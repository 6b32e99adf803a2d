import Mathlib.Tactic.Tauto
import Winspire.Cpu.EagerFlags

/-!
# What lazy flags show

After each arithmetic instruction the getters return the flags of the x86 definition. The
instructions that store CF are apart: while OF is still to be taken from a product, `get_OF`
returns the stored CF.
-/

namespace Winspire.Cpu

open SignExtend

set_option autoImplicit false

theorem Width.eight_le_bits (w : Width) : 8 ≤ w.bits := by cases w <;> decide

theorem Width.bits_le (w : Width) : w.bits ≤ 32 := by cases w <;> decide

theorem Width.bits_pos (w : Width) : 0 < w.bits := by cases w <;> decide

def CcOp.isProduct : CcOp → Bool
  | .imul _ | .mul _ => true
  | _ => false

theorem hasBit_twoPow (x : Word) (i : Nat) : hasBit x (BitVec.twoPow 32 i) = x.getLsbD i := by
  unfold hasBit
  rw [BitVec.and_twoPow]
  by_cases hi : i < 32
  · have hne : BitVec.twoPow 32 i ≠ 0#32 := by
      intro h0
      have h1 := congrArg (fun y : Word => y.getLsbD i) h0
      simp [hi] at h1
    cases h : x.getLsbD i
    · simp
    · simpa using hne
  · have hx : x.getLsbD i = false := BitVec.getLsbD_of_ge x i (by omega)
    simp [hx]

theorem hasBit_one (x : Word) : hasBit x 1 = x.getLsbD 0 := hasBit_twoPow x 0
theorem hasBit_CF (x : Word) : hasBit x CF = x.getLsbD 0 := hasBit_twoPow x 0
theorem hasBit_PF (x : Word) : hasBit x PF = x.getLsbD 2 := hasBit_twoPow x 2
theorem hasBit_AF (x : Word) : hasBit x AF = x.getLsbD 4 := hasBit_twoPow x 4
theorem hasBit_ZF (x : Word) : hasBit x ZF = x.getLsbD 6 := hasBit_twoPow x 6
theorem hasBit_SF (x : Word) : hasBit x SF = x.getLsbD 7 := hasBit_twoPow x 7
theorem hasBit_OF (x : Word) : hasBit x OF = x.getLsbD 11 := hasBit_twoPow x 11

theorem getLsbD_setBit (x : Word) (f : Bool) (m : Word) (i : Nat) :
    (setBit x f m).getLsbD i = if m.getLsbD i then f else x.getLsbD i := by
  by_cases hi : i < 32
  · cases f <;> cases hm : m.getLsbD i <;> rw [BitVec.getLsbD_eq_getElem hi] at hm <;>
      simp [setBit, hi, hm]
  · have hm := BitVec.getLsbD_of_ge m i (by omega)
    have hx := BitVec.getLsbD_of_ge x i (by omega)
    have hs := BitVec.getLsbD_of_ge (setBit x f m) i (by omega)
    simp [hm, hx, hs]

theorem hasBit_setBit_self (x : Word) (f : Bool) (i : Nat) (hi : i < 32) :
    hasBit (setBit x f (BitVec.twoPow 32 i)) (BitVec.twoPow 32 i) = f := by
  rw [hasBit_twoPow, getLsbD_setBit, BitVec.getLsbD_twoPow]
  simp [hi]

theorem hasBit_setBit_of_ne (x : Word) (f : Bool) {i j : Nat} (h : i ≠ j) :
    hasBit (setBit x f (BitVec.twoPow 32 i)) (BitVec.twoPow 32 j) =
      hasBit x (BitVec.twoPow 32 j) := by
  rw [hasBit_twoPow, hasBit_twoPow, getLsbD_setBit, BitVec.getLsbD_twoPow]
  simp [h]

theorem parityTab_eq_evenParity :
    ∀ b : BitVec 8, LazyFlags.parityTab.getD b.toNat false = EFlags.evenParity b := by
  decide +kernel

theorem evenParity_setWidth {n : Nat} (r : BitVec n) :
    EFlags.evenParity (r.setWidth 8) = EFlags.evenParity r := by
  unfold EFlags.evenParity
  congr 2
  apply List.countP_congr
  intro i hi
  have h8 : i < 8 := List.mem_range.mp hi
  simp [h8]

theorem and_ff_toNat (x : Word) : (x &&& 0xff).toNat = (x.setWidth 8).toNat := by
  rw [BitVec.toNat_and, BitVec.toNat_setWidth]
  exact Nat.and_two_pow_sub_one_eq_mod x.toNat 8

theorem and_f_eq (x : Word) : (x &&& 0xf).toNat = x.toNat % 16 := by
  rw [BitVec.toNat_and]
  exact Nat.and_two_pow_sub_one_eq_mod x.toNat 4

theorem sext_setWidth (w : Width) (a : BitVec w.bits) : sext w (a.setWidth 32) = a.signExtend 32 := by
  rw [sext, BitVec.setWidth_setWidth_of_le _ w.bits_le, BitVec.setWidth_eq]

theorem sext_eq (w : Width) (a : Word) : sext w a = (a.setWidth w.bits).signExtend 32 := rfl

namespace LazyFlags

theorem parity_signExtend {n : Nat} (h8 : 8 ≤ n) (h : n ≤ 32) (r : BitVec n) :
    parityTab.getD (r.signExtend 32 &&& 0xff).toNat false = EFlags.evenParity r := by
  have hs : (r.signExtend 32).setWidth 8 = r.setWidth 8 := by
    rw [← BitVec.setWidth_setWidth_of_le (r.signExtend 32) h8, setWidth_signExtend h]
  rw [and_ff_toNat, parityTab_eq_evenParity, hs, evenParity_setWidth]

/-- A state that holds the result `r` shows its PF, ZF and SF. -/
theorem Shows.ofResult {s : LazyFlags} {w : Width} {r : BitVec w.bits} {cf of : Bool}
    {af : Option Bool} (hd : s.cc.dst = r.signExtend 32)
    (hm : s.cc.mask &&& (PF ||| ZF ||| SF) = PF ||| ZF ||| SF)
    (hcf : s.getCF = some cf) (haf : ∀ b, af = some b → s.getAF = b) (hof : s.getOF = some of) :
    s.Shows (.ofResult r cf of af) := by
  have hbit : ∀ i, (PF ||| ZF ||| SF).getLsbD i = true → s.cc.mask.getLsbD i = true := by
    intro i hi
    rw [← hm, BitVec.getLsbD_and, Bool.and_eq_true] at hi
    exact hi.1
  constructor
  · exact hcf
  · intro b hb
    have hb' : EFlags.evenParity r = b := by simpa [EFlags.ofResult] using hb
    rw [getPF, hasBit_PF, hbit 2 rfl, if_pos rfl, hd, ← hb']
    exact parity_signExtend w.eight_le_bits w.bits_le r
  · exact haf
  · intro b hb
    have hb' : decide (r = 0) = b := by simpa [EFlags.ofResult] using hb
    have h0 : (0 : Word) = (0 : BitVec w.bits).signExtend 32 := by cases w <;> rfl
    rw [getZF, hasBit_ZF, hbit 6 rfl, if_pos rfl, hd, ← hb', h0]
    rw [Bool.eq_iff_iff, beq_iff_eq, decide_eq_true_iff]
    exact signExtend_inj w.bits_le
  · intro b hb
    have hb' : r.msb = b := by simpa [EFlags.ofResult] using hb
    rw [getSF, hasBit_SF, hbit 7 rfl, if_pos rfl, hd, ← hb']
    exact msb_signExtend_of_le w.bits_le w.bits_pos
  · exact hof

theorem getAF_exclusive_or {s : LazyFlags} {w : Width} {a b r : BitVec w.bits}
    (h1 : s.cc.src1 = a.signExtend 32) (h2 : s.cc.src2 = b.signExtend 32)
    (hd : s.cc.dst = r.signExtend 32) :
    hasBit ((s.cc.src1 ^^^ s.cc.src2 ^^^ s.cc.dst) >>> 4) 1 =
      (a.getLsbD 4 ^^ b.getLsbD 4 ^^ r.getLsbD 4) := by
  have h4 : 4 < w.bits := by have := w.eight_le_bits; omega
  rw [← getLsbD_signExtend_low w.bits_le h4, ← getLsbD_signExtend_low w.bits_le h4,
    ← getLsbD_signExtend_low w.bits_le h4, ← h1, ← h2, ← hd]
  refine (hasBit_twoPow _ 0).trans ?_
  rw [BitVec.getLsbD_ushiftRight, BitVec.getLsbD_xor, BitVec.getLsbD_xor]

theorem sum_sign_iff : ∀ x y z : Bool, (!(x ^^ y) && (z ^^ y)) = true ↔ x = y ∧ z ≠ y := by
  decide

theorem difference_sign_iff : ∀ x y z : Bool,
    ((x ^^ y) && (z ^^ x)) = true ↔ z = y ∧ x ≠ y := by
  decide

/-- A state that holds a sum shows the flags of ADD, or of ADC with the carry set. -/
theorem Shows.ofAdd {s : LazyFlags} {w : Width} {a b r : BitVec w.bits} {c : Bool}
    (hr : r = a + b + (BitVec.ofBool c).setWidth w.bits)
    (hop : s.cc.op = if c then .adc else .add) (h1 : s.cc.src1 = a.signExtend 32)
    (h2 : s.cc.src2 = b.signExtend 32) (hd : s.cc.dst = r.signExtend 32)
    (hm : s.cc.mask = arithMask) : s.Shows (.add a b c) := by
  have hsum : IsSum r a b c := hr
  have h4 : 4 < w.bits := by have := w.eight_le_bits; omega
  have hmCF : hasBit s.cc.mask CF = true := by rw [hm]; rfl
  have hmAF : hasBit s.cc.mask AF = true := by rw [hm]; rfl
  have hmOF : hasBit s.cc.mask OF = true := by rw [hm]; rfl
  have hcf : s.getCF = some (decide (2 ^ w.bits ≤ a.toNat + b.toNat + c.toNat)) := by
    rw [getCF, if_pos hmCF, hop, hd, h2]
    cases c
    · simp only [Bool.false_eq_true, if_false, Option.some.injEq, decide_eq_decide]
      rw [signExtend_lt_iff w.bits_le w.bits_pos]
      exact hsum.toNat_lt_right w.bits_pos
    · simp only [if_true, Option.some.injEq, decide_eq_decide]
      rw [signExtend_le_iff w.bits_le w.bits_pos]
      exact hsum.toNat_le_right w.bits_pos
  have haf : s.getAF = decide (16 ≤ a.toNat % 16 + b.toNat % 16 + c.toNat) := by
    have hx := (getAF_exclusive_or h1 h2 hd).trans (hsum.carry h4)
    rw [getAF, if_pos hmAF, hop]
    cases c <;> exact hx
  have hof : s.getOF = some (decide (r.toInt ≠ a.toInt + b.toInt + c.toNat)) := by
    have hx : (~~~(s.cc.src1 ^^^ s.cc.src2) &&& (s.cc.dst ^^^ s.cc.src2)).msb =
        decide (r.toInt ≠ a.toInt + b.toInt + c.toNat) := by
      rw [Bool.eq_iff_iff, decide_eq_true_iff, hsum.overflow w.bits_pos, h1, h2, hd,
        BitVec.msb_and, BitVec.msb_not, BitVec.msb_xor, BitVec.msb_xor,
        msb_signExtend_of_le w.bits_le w.bits_pos, msb_signExtend_of_le w.bits_le w.bits_pos,
        msb_signExtend_of_le w.bits_le w.bits_pos]
      exact sum_sign_iff a.msb b.msb r.msb
    rw [getOF, if_pos hmOF, hop]
    cases c <;> exact congrArg some hx
  subst hr
  exact Shows.ofResult hd (by rw [hm]; rfl) hcf (fun x hx => haf.trans (Option.some.inj hx)) hof

/-- A state that holds a difference shows the flags of SUB, or of SBB with the borrow set. -/
theorem Shows.ofSub {s : LazyFlags} {w : Width} {a b r : BitVec w.bits} {c : Bool}
    (hr : r = a - b - (BitVec.ofBool c).setWidth w.bits)
    (hop : s.cc.op = if c then .sbb else .sub) (h1 : s.cc.src1 = a.signExtend 32)
    (h2 : s.cc.src2 = b.signExtend 32) (hd : s.cc.dst = r.signExtend 32)
    (hm : s.cc.mask = arithMask) : s.Shows (.sub a b c) := by
  have hsum : IsSum a r b c := isSum_of_sub hr
  have h4 : 4 < w.bits := by have := w.eight_le_bits; omega
  have hmCF : hasBit s.cc.mask CF = true := by rw [hm]; rfl
  have hmAF : hasBit s.cc.mask AF = true := by rw [hm]; rfl
  have hmOF : hasBit s.cc.mask OF = true := by rw [hm]; rfl
  have hcf : s.getCF = some (decide (a.toNat < b.toNat + c.toNat)) := by
    rw [getCF, if_pos hmCF, hop, h1, h2]
    cases c
    · simp only [Bool.false_eq_true, if_false, Option.some.injEq, decide_eq_decide]
      rw [signExtend_lt_iff w.bits_le w.bits_pos, BitVec.lt_def]
      exact Iff.rfl
    · simp only [if_true, Option.some.injEq, decide_eq_decide]
      rw [signExtend_le_iff w.bits_le w.bits_pos, BitVec.le_def]
      exact Nat.lt_succ_iff.symm
  have haf : s.getAF = decide (a.toNat % 16 < b.toNat % 16 + c.toNat) := by
    have hx : hasBit ((s.cc.src1 ^^^ s.cc.src2 ^^^ s.cc.dst) >>> 4) 1 =
        decide (a.toNat % 16 < b.toNat % 16 + c.toNat) := by
      have hlow : (r.getLsbD 4 ^^ b.getLsbD 4 ^^ a.getLsbD 4) =
          decide (a.toNat % 16 < b.toNat % 16 + c.toNat) :=
        (hsum.carry h4).trans (decide_eq_decide.mpr (hsum.borrow_low h4).symm)
      rw [getAF_exclusive_or h1 h2 hd, ← hlow]
      cases a.getLsbD 4 <;> cases b.getLsbD 4 <;> cases r.getLsbD 4 <;> rfl
    rw [getAF, if_pos hmAF, hop]
    cases c <;> exact hx
  have hof : s.getOF = some (decide (r.toInt ≠ a.toInt - b.toInt - c.toNat)) := by
    have hx : ((s.cc.src1 ^^^ s.cc.src2) &&& (s.cc.dst ^^^ s.cc.src1)).msb =
        decide (r.toInt ≠ a.toInt - b.toInt - c.toNat) := by
      have hback : r.toInt ≠ a.toInt - b.toInt - c.toNat ↔
          a.toInt ≠ r.toInt + b.toInt + c.toNat := by omega
      rw [Bool.eq_iff_iff, decide_eq_true_iff, hback, hsum.overflow w.bits_pos, h1, h2, hd,
        BitVec.msb_and, BitVec.msb_xor, BitVec.msb_xor,
        msb_signExtend_of_le w.bits_le w.bits_pos, msb_signExtend_of_le w.bits_le w.bits_pos,
        msb_signExtend_of_le w.bits_le w.bits_pos]
      exact difference_sign_iff a.msb b.msb r.msb
    rw [getOF, if_pos hmOF, hop]
    cases c <;> exact congrArg some hx
  subst hr
  exact Shows.ofResult hd (by rw [hm]; rfl) hcf (fun x hx => haf.trans (Option.some.inj hx)) hof

theorem Shows.ofLogic {s : LazyFlags} {w : Width} {r : BitVec w.bits}
    (hop : s.cc.op = .and ∨ s.cc.op = .or ∨ s.cc.op = .xor) (hd : s.cc.dst = r.signExtend 32)
    (hm : s.cc.mask = logicMask) : s.Shows (.logic r) := by
  have hmCF : hasBit s.cc.mask CF = true := by rw [hm]; rfl
  have hmOF : hasBit s.cc.mask OF = true := by rw [hm]; rfl
  refine Shows.ofResult hd (by rw [hm]; rfl) ?_ (fun x hx => nomatch hx) ?_
  · rw [getCF, if_pos hmCF]
    rcases hop with h | h | h <;> rw [h]
  · rw [getOF, if_pos hmOF]
    rcases hop with h | h | h <;> rw [h]

theorem signExtend_low {w : Width} (r : BitVec w.bits) :
    (r.signExtend 32 &&& 0xf).toNat = r.toNat % 16 := by
  have hs : (r.signExtend 32).setWidth w.bits = r := setWidth_signExtend w.bits_le r
  have hdvd : 16 ∣ 2 ^ w.bits := by cases w <;> decide
  rw [and_f_eq, ← Nat.mod_mod_of_dvd _ hdvd, ← BitVec.toNat_setWidth, hs]

theorem sext_intMin (w : Width) : (BitVec.intMin w.bits).signExtend 32 =
    sext w (1 <<< (w.bits - 1)) := by
  cases w <;> rfl

theorem sext_intMax (w : Width) : (BitVec.intMax w.bits).signExtend 32 =
    sext w (~~~(1 <<< (w.bits - 1))) := by
  cases w <;> rfl

theorem signExtend_beq_intMin {w : Width} (r : BitVec w.bits) :
    (r.signExtend 32 == sext w (1 <<< (w.bits - 1))) = decide (r = BitVec.intMin w.bits) := by
  rw [Bool.eq_iff_iff, beq_iff_eq, decide_eq_true_iff, ← sext_intMin]
  exact signExtend_inj w.bits_le

theorem signExtend_beq_intMax {w : Width} (r : BitVec w.bits) :
    (r.signExtend 32 == sext w (~~~(1 <<< (w.bits - 1)))) =
      decide (r = BitVec.intMax w.bits) := by
  rw [Bool.eq_iff_iff, beq_iff_eq, decide_eq_true_iff, ← sext_intMax]
  exact signExtend_inj w.bits_le

theorem Shows.ofInc {s : LazyFlags} {w : Width} {a : BitVec w.bits} {cf : Bool}
    (hop : s.cc.op = .inc w) (hd : s.cc.dst = (a + 1).signExtend 32)
    (hm : s.cc.mask = incDecMask) (hcf : hasBit s.flags CF = cf) :
    s.Shows { EFlags.add a 1 false with cf := cf } := by
  have h8 := w.eight_le_bits
  have hadd : a + 1 + (BitVec.ofBool false).setWidth w.bits = a + 1 := by simp
  have hsum : IsSum (a + 1) a 1 false := hadd.symm
  have hmCF : ¬ hasBit s.cc.mask CF = true := by rw [hm]; decide
  have hmAF : hasBit s.cc.mask AF = true := by rw [hm]; rfl
  have hmOF : hasBit s.cc.mask OF = true := by rw [hm]; rfl
  have hcf' : s.getCF = some cf := by rw [getCF, if_neg hmCF, hcf]
  have haf : s.getAF = decide (16 ≤ a.toNat % 16 + (1 : BitVec w.bits).toNat % 16 +
      false.toNat) := by
    have hlow := hsum.low (i := 4) (by omega)
    rw [toNat_one w.bits_pos] at hlow ⊢
    rw [getAF, if_pos hmAF, hop, hd, Bool.eq_iff_iff, beq_iff_eq, decide_eq_true_iff,
      ← BitVec.toNat_inj, signExtend_low]
    simp only [Bool.toNat_false] at hlow ⊢
    change _ % 16 = 0 ↔ _
    omega
  have hof : s.getOF = some (decide ((a + 1).toInt ≠
      a.toInt + (1 : BitVec w.bits).toInt + false.toNat)) := by
    rw [decide_eq_decide.mpr (hsum.overflow_one (by omega)), ← signExtend_beq_intMin, ← hd,
      getOF, if_pos hmOF, hop]
    cases w <;> rfl
  have hres : s.Shows (.ofResult (a + 1) cf
      (decide ((a + 1).toInt ≠ a.toInt + (1 : BitVec w.bits).toInt + false.toNat))
      (some (decide (16 ≤ a.toNat % 16 + (1 : BitVec w.bits).toNat % 16 + false.toNat)))) :=
    Shows.ofResult hd (by rw [hm]; rfl) hcf' (fun x hx => haf.trans (Option.some.inj hx)) hof
  rw [← hadd] at hres
  exact hres

theorem Shows.ofDec {s : LazyFlags} {w : Width} {a : BitVec w.bits} {cf : Bool}
    (hop : s.cc.op = .dec w) (hd : s.cc.dst = (a - 1).signExtend 32)
    (hm : s.cc.mask = incDecMask) (hcf : hasBit s.flags CF = cf) :
    s.Shows { EFlags.sub a 1 false with cf := cf } := by
  have h8 := w.eight_le_bits
  have hsub : a - 1 - (BitVec.ofBool false).setWidth w.bits = a - 1 := by simp
  have hsum : IsSum a (a - 1) 1 false := isSum_of_sub hsub.symm
  have hmCF : ¬ hasBit s.cc.mask CF = true := by rw [hm]; decide
  have hmAF : hasBit s.cc.mask AF = true := by rw [hm]; rfl
  have hmOF : hasBit s.cc.mask OF = true := by rw [hm]; rfl
  have hcf' : s.getCF = some cf := by rw [getCF, if_neg hmCF, hcf]
  have haf : s.getAF = decide (a.toNat % 16 < (1 : BitVec w.bits).toNat % 16 +
      false.toNat) := by
    have hlow := hsum.low (i := 4) (by omega)
    rw [toNat_one w.bits_pos] at hlow ⊢
    rw [getAF, if_pos hmAF, hop, hd, Bool.eq_iff_iff, beq_iff_eq, decide_eq_true_iff,
      ← BitVec.toNat_inj, signExtend_low]
    simp only [Bool.toNat_false] at hlow ⊢
    change _ % 16 = 15 ↔ _
    omega
  have hof : s.getOF = some (decide ((a - 1).toInt ≠
      a.toInt - (1 : BitVec w.bits).toInt - false.toNat)) := by
    rw [decide_eq_decide.mpr (hsum.underflow_one (by omega)), ← signExtend_beq_intMax, ← hd,
      getOF, if_pos hmOF, hop]
    cases w <;> rfl
  have hres : s.Shows (.ofResult (a - 1) cf
      (decide ((a - 1).toInt ≠ a.toInt - (1 : BitVec w.bits).toInt - false.toNat))
      (some (decide (a.toNat % 16 < (1 : BitVec w.bits).toNat % 16 + false.toNat)))) :=
    Shows.ofResult hd (by rw [hm]; rfl) hcf' (fun x hx => haf.trans (Option.some.inj hx)) hof
  rw [← hsub] at hres
  exact hres

theorem Shows.ofNeg {s : LazyFlags} {w : Width} {a : BitVec w.bits} (hop : s.cc.op = .neg w)
    (hd : s.cc.dst = (-a).signExtend 32) (hm : s.cc.mask = arithMask) :
    s.Shows (.sub 0 a false) := by
  have h8 := w.eight_le_bits
  have hsub : 0 - a - (BitVec.ofBool false).setWidth w.bits = -a := by simp
  have hsum : IsSum 0 (-a) a false := isSum_of_sub hsub.symm
  have h0 : (0 : BitVec w.bits).toNat = 0 := BitVec.toNat_zero
  have hmCF : hasBit s.cc.mask CF = true := by rw [hm]; rfl
  have hmAF : hasBit s.cc.mask AF = true := by rw [hm]; rfl
  have hmOF : hasBit s.cc.mask OF = true := by rw [hm]; rfl
  have hcf : s.getCF = some (decide ((0 : BitVec w.bits).toNat < a.toNat + false.toNat)) := by
    have hz : (0 : Word) = (0 : BitVec w.bits).signExtend 32 := by cases w <;> rfl
    have hn := hsum.toNat w.bits_pos
    have hna := (-a).isLt
    rw [getCF, if_pos hmCF, hop, hd]
    simp only [Option.some.injEq]
    rw [Bool.eq_iff_iff, bne_iff_ne, decide_eq_true_iff, hz, ne_eq, signExtend_inj w.bits_le,
      ← BitVec.toNat_inj, h0]
    simp only [h0, Bool.toNat_false] at hn ⊢
    omega
  have haf : s.getAF = decide ((0 : BitVec w.bits).toNat % 16 < a.toNat % 16 +
      false.toNat) := by
    have hlow := hsum.low (i := 4) (by omega)
    rw [h0] at hlow ⊢
    rw [getAF, if_pos hmAF, hop, hd, Bool.eq_iff_iff, bne_iff_ne, decide_eq_true_iff, ne_eq,
      ← BitVec.toNat_inj, signExtend_low]
    simp only [Bool.toNat_false] at hlow ⊢
    change ¬ _ % 16 = 0 ↔ _
    omega
  have hof : s.getOF = some (decide ((-a).toInt ≠
      (0 : BitVec w.bits).toInt - a.toInt - false.toNat)) := by
    rw [decide_eq_decide.mpr (hsum.overflow_neg (by omega)), ← signExtend_beq_intMin, ← hd,
      getOF, if_pos hmOF, hop]
    cases w <;> rfl
  have hres : s.Shows (.ofResult (-a) (decide ((0 : BitVec w.bits).toNat < a.toNat + false.toNat))
      (decide ((-a).toInt ≠ (0 : BitVec w.bits).toInt - a.toInt - false.toNat))
      (some (decide ((0 : BitVec w.bits).toNat % 16 < a.toNat % 16 + false.toNat)))) :=
    Shows.ofResult hd (by rw [hm]; rfl) hcf (fun x hx => haf.trans (Option.some.inj hx)) hof
  rw [← hsub] at hres
  exact hres

theorem hasBit_arithMask_CF : hasBit arithMask CF = true := by decide

/-- CF and OF of a product are the same, as long as both are computed. -/
theorem Shows.ofProduct {s : LazyFlags} {wide : Bool} (hop : s.cc.op.isProduct = true)
    (hm : s.cc.mask = arithMask) (hcf : s.getCF = some wide) : s.Shows (.product wide) := by
  have hmOF : hasBit s.cc.mask OF = true := by rw [hm]; rfl
  refine ⟨hcf, fun _ h => (nomatch h), fun _ h => (nomatch h), fun _ h => (nomatch h),
    fun _ h => (nomatch h), ?_⟩
  rw [getOF, if_pos hmOF]
  cases hc : s.cc.op <;> rw [hc] at hop <;> first | exact hcf | cases hop

theorem imulShort_shows {w : Width} {m : Nat} (hw : w = .b8 ∨ w = .b16) (hm : 0 < m)
    (hmw : m ≤ w.bits) (a : BitVec w.bits) (b : BitVec m) (s : LazyFlags) :
    (s.imulShort (.imul w) (a.signExtend 32) (b.signExtend 32)).Shows (.imul a b) := by
  have hfit : w.bits + m ≤ 32 := by rcases hw with rfl | rfl <;> simp only [Width.bits] at * <;> omega
  have hcf : (sext w (a.signExtend 32 * b.signExtend 32) !=
      a.signExtend 32 * b.signExtend 32) =
        decide ((a * b.signExtend w.bits).toInt ≠ a.toInt * b.toInt) := by
    rw [Bool.eq_iff_iff, bne_iff_ne, decide_eq_true_iff]
    exact not_congr (product_fits_iff w.bits_pos hm hfit a b)
  have hmask : hasBit (s.imulShort (.imul w) (a.signExtend 32) (b.signExtend 32)).cc.mask CF =
    true := hasBit_arithMask_CF
  refine Shows.ofProduct rfl rfl ?_
  rw [getCF, if_pos hmask]
  rcases hw with rfl | rfl <;> exact congrArg some hcf

theorem imulLong_shows {m : Nat} (hm : 0 < m) (hmw : m ≤ 32) (a : Word) (b : BitVec m)
    (s : LazyFlags) : (s.imulLong a (b.signExtend 32)).Shows (.imul a b) := by
  have hb : (b.signExtend 32).signExtend 64 = b.signExtend 64 := by
    apply BitVec.eq_of_toInt_eq
    rw [BitVec.toInt_signExtend_of_le (by omega), BitVec.toInt_signExtend_of_le hmw,
      BitVec.toInt_signExtend_of_le (by omega)]
  have hcf := not_congr ((high_half_iff (a.signExtend 64 * b.signExtend 64)).trans
    (product_fits_iff (n := 32) (by omega) hm (by omega) a b))
  have hmask : hasBit (s.imulLong a (b.signExtend 32)).cc.mask CF = true := hasBit_arithMask_CF
  refine Shows.ofProduct rfl rfl ?_
  rw [getCF, if_pos hmask]
  refine congrArg some ?_
  rw [Bool.eq_iff_iff, bne_iff_ne, decide_eq_true_iff]
  change ((a.signExtend 64 * (b.signExtend 32).signExtend 64).setWidth 32).sshiftRight 31 ≠
    ((a.signExtend 64 * (b.signExtend 32).signExtend 64) >>> 32).setWidth 32 ↔ _
  rw [hb]
  exact hcf

theorem mulb_shows (a b : BitVec 8) (s : LazyFlags) :
    (s.mulb (a.setWidth 32) (b.setWidth 32)).Shows (.mul a b) := by
  have hp : (a.setWidth 32 * b.setWidth 32).toNat = a.toNat * b.toNat :=
    toNat_mul_setWidth (by omega) a b
  have hlt : a.toNat * b.toNat < 2 ^ 8 * 2 ^ 8 := Nat.mul_lt_mul'' a.isLt b.isLt
  have hmask : hasBit (s.mulb (a.setWidth 32) (b.setWidth 32)).cc.mask CF = true := hasBit_arithMask_CF
  refine Shows.ofProduct rfl rfl ?_
  rw [getCF, if_pos hmask]
  refine congrArg some ?_
  change (((a.setWidth 32 * b.setWidth 32).setWidth 16).signExtend 32 >>> 8 != 0#32) = _
  rw [Bool.eq_iff_iff, bne_iff_ne, decide_eq_true_iff, ne_eq, ← BitVec.toNat_inj,
    BitVec.toNat_ushiftRight, Nat.shiftRight_eq_div_pow, BitVec.toNat_signExtend,
    BitVec.toNat_setWidth, BitVec.msb_eq_decide, BitVec.toNat_setWidth, hp]
  simp only [BitVec.toNat_zero, decide_eq_true_iff]
  by_cases hmsb : 2 ^ (16 - 1) ≤ a.toNat * b.toNat % 2 ^ 16
  · rw [if_pos hmsb]
    omega
  · rw [if_neg hmsb]
    omega

theorem mulw_shows (a b : BitVec 16) (s : LazyFlags) :
    (s.mulw (a.setWidth 32) (b.setWidth 32)).Shows (.mul a b) := by
  have hp : (a.setWidth 32 * b.setWidth 32).toNat = a.toNat * b.toNat :=
    toNat_mul_setWidth (by omega) a b
  have hmask : hasBit (s.mulw (a.setWidth 32) (b.setWidth 32)).cc.mask CF = true := hasBit_arithMask_CF
  refine Shows.ofProduct rfl rfl ?_
  rw [getCF, if_pos hmask]
  refine congrArg some ?_
  change ((a.setWidth 32 * b.setWidth 32) >>> 16 != 0#32) = _
  rw [Bool.eq_iff_iff, bne_iff_ne, decide_eq_true_iff, ne_eq, ← BitVec.toNat_inj,
    BitVec.toNat_ushiftRight, Nat.shiftRight_eq_div_pow, hp, BitVec.toNat_zero]
  omega

theorem muld_shows (a b : Word) (s : LazyFlags) : (s.muld a b).Shows (.mul a b) := by
  have hp : (a.setWidth 64 * b.setWidth 64).toNat = a.toNat * b.toNat :=
    toNat_mul_setWidth (by omega) a b
  have hlt : a.toNat * b.toNat < 2 ^ 32 * 2 ^ 32 := Nat.mul_lt_mul'' a.isLt b.isLt
  have hmask : hasBit (s.muld a b).cc.mask CF = true := hasBit_arithMask_CF
  refine Shows.ofProduct rfl rfl ?_
  rw [getCF, if_pos hmask]
  refine congrArg some ?_
  change (((a.setWidth 64 * b.setWidth 64) >>> 32).setWidth 32 != 0#32) = _
  rw [Bool.eq_iff_iff, bne_iff_ne, decide_eq_true_iff, ne_eq, ← BitVec.toNat_inj,
    BitVec.toNat_setWidth, BitVec.toNat_ushiftRight, Nat.shiftRight_eq_div_pow, hp,
    BitVec.toNat_zero]
  omega

/-- OF is to be taken from a product, so `get_OF` asks `get_CF`. -/
def overflowFromCarry (s : LazyFlags) : Bool := hasBit s.cc.mask OF && s.cc.op.isProduct

theorem getOF_of_overflowFromCarry {s : LazyFlags} (h : s.overflowFromCarry = true) :
    s.getOF = s.getCF := by
  rw [overflowFromCarry, Bool.and_eq_true] at h
  rw [getOF, if_pos h.1]
  have hop := h.2
  cases hc : s.cc.op <;> rw [hc] at hop <;> first | rfl | cases hop

/-- `s'` is `s` with CF stored as `c`; OF is left as it was. -/
structure StoresCarry (s s' : LazyFlags) (c : Bool) : Prop where
  cc : s'.cc = { s.cc with mask := s'.cc.mask }
  mask_cf : s'.cc.mask.getLsbD 0 = false
  flags_cf : s'.flags.getLsbD 0 = c
  mask_of : s'.cc.mask.getLsbD 11 = s.cc.mask.getLsbD 11
  flags_of : s'.flags.getLsbD 11 = s.flags.getLsbD 11

theorem StoresCarry.getCF {s s' : LazyFlags} {c : Bool} (h : StoresCarry s s' c) :
    s'.getCF = some c := by
  have hm : ¬ hasBit s'.cc.mask CF = true := by rw [hasBit_CF, h.mask_cf]; decide
  rw [LazyFlags.getCF, if_neg hm, hasBit_CF, h.flags_cf]

theorem StoresCarry.getOF {s s' : LazyFlags} {c : Bool} (h : StoresCarry s s' c) :
    s'.getOF = if s.overflowFromCarry then some c else s.getOF := by
  have hop : s'.cc.op = s.cc.op := by rw [h.cc]
  have hmask : hasBit s'.cc.mask OF = hasBit s.cc.mask OF := by
    rw [hasBit_OF, hasBit_OF, h.mask_of]
  by_cases ho : s.overflowFromCarry = true
  · have ho' : s'.overflowFromCarry = true := by
      rw [overflowFromCarry, hmask, hop]
      exact ho
    rw [if_pos ho, getOF_of_overflowFromCarry ho', h.getCF]
  · rw [if_neg ho, LazyFlags.getOF, LazyFlags.getOF, hmask, h.cc, hasBit_OF s'.flags,
      hasBit_OF s.flags, h.flags_of]
    by_cases hm : hasBit s.cc.mask OF = true
    · rw [if_pos hm, if_pos hm]
      rw [overflowFromCarry, hm, Bool.true_and] at ho
      cases hc : s.cc.op with
      | imul w | mul w =>
        rw [hc] at ho
        exact absurd rfl ho
      | dec w | inc w | neg w => cases w <;> rfl
      | _ => rfl
    · rw [if_neg hm, if_neg hm]

/-- Storing CF is right unless it changes the carry OF is taken from. -/
theorem StoresCarry.of_iff {s s' : LazyFlags} {c : Bool} {e : EFlags} (h : StoresCarry s s' c)
    (he : s.Shows e) :
    s'.getOF = some e.of ↔ (s.overflowFromCarry = true → s.getCF = some c) := by
  rw [h.getOF]
  by_cases ho : s.overflowFromCarry = true
  · rw [if_pos ho, ← he.of, getOF_of_overflowFromCarry ho]
    constructor
    · intro hc _
      exact hc.symm
    · intro hc
      exact (hc ho).symm
  · rw [if_neg ho]
    constructor
    · intro _ hc
      exact absurd hc ho
    · intro _
      exact he.of

/-- `s'` has the PF, AF, ZF and SF of `s`. -/
structure SameRest (s s' : LazyFlags) : Prop where
  cc : s'.cc = { s.cc with mask := s'.cc.mask }
  bits : ∀ i, i = 2 ∨ i = 4 ∨ i = 6 ∨ i = 7 →
    s'.cc.mask.getLsbD i = s.cc.mask.getLsbD i ∧ s'.flags.getLsbD i = s.flags.getLsbD i

theorem SameRest.getPF {s s' : LazyFlags} (h : SameRest s s') : s'.getPF = s.getPF := by
  obtain ⟨hm, hf⟩ := h.bits 2 (by decide)
  rw [LazyFlags.getPF, LazyFlags.getPF, hasBit_PF, hasBit_PF, hasBit_PF, hasBit_PF, hm, hf, h.cc]

theorem SameRest.getAF {s s' : LazyFlags} (h : SameRest s s') : s'.getAF = s.getAF := by
  obtain ⟨hm, hf⟩ := h.bits 4 (by decide)
  rw [LazyFlags.getAF, LazyFlags.getAF, hasBit_AF, hasBit_AF, hasBit_AF, hasBit_AF, hm, hf, h.cc]

theorem SameRest.getZF {s s' : LazyFlags} (h : SameRest s s') : s'.getZF = s.getZF := by
  obtain ⟨hm, hf⟩ := h.bits 6 (by decide)
  rw [LazyFlags.getZF, LazyFlags.getZF, hasBit_ZF, hasBit_ZF, hasBit_ZF, hasBit_ZF, hm, hf, h.cc]

theorem SameRest.getSF {s s' : LazyFlags} (h : SameRest s s') : s'.getSF = s.getSF := by
  obtain ⟨hm, hf⟩ := h.bits 7 (by decide)
  rw [LazyFlags.getSF, LazyFlags.getSF, hasBit_SF, hasBit_SF, hasBit_SF, hasBit_SF, hm, hf, h.cc]

theorem shows_storeCarry_iff {s s' : LazyFlags} {c : Bool} {e : EFlags} (h : StoresCarry s s' c)
    (hr : SameRest s s') (he : s.Shows e) :
    s'.Shows { e with cf := c } ↔ (s.overflowFromCarry = true → s.getCF = some c) := by
  rw [← h.of_iff he]
  constructor
  · intro hs
    exact hs.of
  · intro hof
    refine ⟨h.getCF, ?_, ?_, ?_, ?_, hof⟩
    · rw [hr.getPF]
      exact he.pf
    · rw [hr.getAF]
      exact he.af
    · rw [hr.getZF]
      exact he.zf
    · rw [hr.getSF]
      exact he.sf

theorem getLsbD_clearCF (x : Word) {i : Nat} (hi : i ≠ 0) :
    (x &&& ~~~CF).getLsbD i = x.getLsbD i := by
  by_cases h : i < 32
  · have h1 : (~~~CF).getLsbD i = true := by
      rw [BitVec.getLsbD_not, CF]
      simp [h, hi]
    rw [BitVec.getLsbD_and, h1, Bool.and_true]
  · rw [BitVec.getLsbD_of_ge _ i (by omega), BitVec.getLsbD_of_ge _ i (by omega)]

theorem getLsbD_setCF (x : Word) {i : Nat} (hi : i ≠ 0) :
    (x ||| CF).getLsbD i = x.getLsbD i := by
  have h1 : CF.getLsbD i = false := by simp [CF, BitVec.getLsbD_one, hi]
  rw [BitVec.getLsbD_or, h1, Bool.or_false]

theorem getLsbD_setBit_CF (x : Word) (f : Bool) {i : Nat} (hi : i ≠ 0) :
    (setBit x f CF).getLsbD i = x.getLsbD i := by
  have h1 : CF.getLsbD i = false := by simp [CF, BitVec.getLsbD_one, hi]
  rw [getLsbD_setBit, h1]
  rfl

theorem clc_storesCarry (s : LazyFlags) : StoresCarry s s.clc false where
  cc := rfl
  mask_cf := by simp [clc, setMask, CF]
  flags_cf := by simp [clc, setMask, CF]
  mask_of := getLsbD_clearCF _ (by decide)
  flags_of := getLsbD_clearCF _ (by decide)

theorem clc_sameRest (s : LazyFlags) : SameRest s s.clc where
  cc := rfl
  bits i hi := by
    have h0 : i ≠ 0 := by omega
    exact ⟨getLsbD_clearCF _ h0, getLsbD_clearCF _ h0⟩

theorem stc_storesCarry (s : LazyFlags) : StoresCarry s s.stc true where
  cc := rfl
  mask_cf := by simp [stc, setMask, CF]
  flags_cf := by simp [stc, setMask, CF]
  mask_of := getLsbD_clearCF _ (by decide)
  flags_of := getLsbD_setCF _ (by decide)

theorem stc_sameRest (s : LazyFlags) : SameRest s s.stc where
  cc := rfl
  bits i hi := by
    have h0 : i ≠ 0 := by omega
    exact ⟨getLsbD_clearCF _ h0, getLsbD_setCF _ h0⟩

/-- What CMC leaves when CF was `cf`. -/
def complemented (s : LazyFlags) (cf : Bool) : LazyFlags :=
  (s.setMask (s.cc.mask &&& ~~~CF)).setFlag (!cf) CF

theorem cmc_eq {s : LazyFlags} {cf : Bool} (h : s.getCF = some cf) :
    s.cmc = some (s.complemented cf) := by
  rw [cmc, h]
  rfl

theorem complemented_storesCarry (s : LazyFlags) (cf : Bool) :
    StoresCarry s (s.complemented cf) (!cf) where
  cc := rfl
  mask_cf := by simp [complemented, setMask, setFlag, CF]
  flags_cf := by
    simp only [complemented, setMask, setFlag, getLsbD_setBit]
    simp [CF]
  mask_of := getLsbD_clearCF _ (by decide)
  flags_of := getLsbD_setBit_CF _ _ (by decide)

theorem complemented_sameRest (s : LazyFlags) (cf : Bool) : SameRest s (s.complemented cf) where
  cc := rfl
  bits i hi := by
    have h0 : i ≠ 0 := by omega
    exact ⟨getLsbD_clearCF _ h0, getLsbD_setBit_CF _ _ h0⟩

/-- The arithmetic flags are among those every generation has. -/
theorem eflagsMask_getLsbD (gen : Gen) {i : Nat}
    (hi : i = 0 ∨ i = 2 ∨ i = 4 ∨ i = 6 ∨ i = 7 ∨ i = 11) : gen.eflagsMask.getLsbD i = true := by
  rcases hi with rfl | rfl | rfl | rfl | rfl | rfl <;> cases gen <;> rfl

theorem getLsbD_two (i : Nat) (hi : i ≠ 1) : (0x2 : Word).getLsbD i = false := by
  have h : (0x2 : Word) = BitVec.twoPow 32 1 := rfl
  rw [h, BitVec.getLsbD_twoPow]
  simp [Ne.symm hi]

theorem sahf_flags_low (gen : Gen) (ah : Byte) (s : LazyFlags) {i : Nat}
    (hi : i = 0 ∨ i = 2 ∨ i = 4 ∨ i = 6 ∨ i = 7) :
    (s.sahf gen ah).flags.getLsbD i = ah.getLsbD i := by
  have hg := eflagsMask_getLsbD gen (i := i) (by omega)
  have h2 := getLsbD_two i (by omega)
  have hff : (~~~(0xff : Word)).getLsbD i = false := by
    rcases hi with rfl | rfl | rfl | rfl | rfl <;> rfl
  have h32 : i < 32 := by omega
  simp only [sahf, setMask, BitVec.getLsbD_or, BitVec.getLsbD_and, hg, h2, hff,
    BitVec.getLsbD_setWidth, h32, decide_true, Bool.true_and, Bool.and_true, Bool.or_false,
    Bool.and_false, Bool.false_or]

theorem sahf_storesCarry (gen : Gen) (ah : Byte) (s : LazyFlags) :
    StoresCarry s (s.sahf gen ah) (ah.getLsbD 0) where
  cc := rfl
  mask_cf := by simp [sahf, setMask, OF]
  flags_cf := sahf_flags_low gen ah s (by decide)
  mask_of := by simp [sahf, setMask, OF]
  flags_of := by
    have hg := eflagsMask_getLsbD gen (i := 11) (by decide)
    have hff : (~~~(0xff : Word)).getLsbD 11 = true := rfl
    have h8 : ah.getLsbD 11 = false := BitVec.getLsbD_of_ge ah 11 (by decide)
    simp only [sahf, setMask, BitVec.getLsbD_or, BitVec.getLsbD_and, hg,
      getLsbD_two 11 (by decide), hff, BitVec.getLsbD_setWidth, h8, Bool.and_false,
      Bool.and_true, Bool.or_false]

theorem sahf_mask (gen : Gen) (ah : Byte) (s : LazyFlags) {i : Nat} (hi : i ≠ 11) :
    (s.sahf gen ah).cc.mask.getLsbD i = false := by
  have h : OF = BitVec.twoPow 32 11 := rfl
  simp only [sahf, setMask, BitVec.getLsbD_and, h, BitVec.getLsbD_twoPow]
  simp [Ne.symm hi]

theorem sahf_shows_iff (gen : Gen) (ah : Byte) {s : LazyFlags} {e : EFlags} (he : s.Shows e) :
    (s.sahf gen ah).Shows (FlagInsn.eager e (.sahf ah)) ↔
      (s.overflowFromCarry = true → s.getCF = some (ah.getLsbD 0)) := by
  rw [← (sahf_storesCarry gen ah s).of_iff he]
  constructor
  · intro hs
    exact hs.of
  · intro hof
    refine ⟨(sahf_storesCarry gen ah s).getCF, ?_, ?_, ?_, ?_, hof⟩
    · intro b hb
      rw [getPF, hasBit_PF, hasBit_PF, sahf_mask gen ah s (by decide), if_neg (by decide),
        sahf_flags_low gen ah s (by decide)]
      exact Option.some.inj hb
    · intro b hb
      rw [getAF, hasBit_AF, hasBit_AF, sahf_mask gen ah s (by decide), if_neg (by decide),
        sahf_flags_low gen ah s (by decide)]
      exact Option.some.inj hb
    · intro b hb
      rw [getZF, hasBit_ZF, hasBit_ZF, sahf_mask gen ah s (by decide), if_neg (by decide),
        sahf_flags_low gen ah s (by decide)]
      exact Option.some.inj hb
    · intro b hb
      rw [getSF, hasBit_SF, hasBit_SF, sahf_mask gen ah s (by decide), if_neg (by decide),
        sahf_flags_low gen ah s (by decide)]
      exact Option.some.inj hb

theorem shows_of_stored {s : LazyFlags} {e : EFlags} (hm : s.cc.mask = 0)
    (hcf : s.flags.getLsbD 0 = e.cf) (hpf : ∀ b, e.pf = some b → s.flags.getLsbD 2 = b)
    (haf : ∀ b, e.af = some b → s.flags.getLsbD 4 = b)
    (hzf : ∀ b, e.zf = some b → s.flags.getLsbD 6 = b)
    (hsf : ∀ b, e.sf = some b → s.flags.getLsbD 7 = b)
    (hof : s.flags.getLsbD 11 = e.of) : s.Shows e := by
  have h0 : ∀ m, ¬ hasBit s.cc.mask m = true := by
    intro m
    rw [hm]
    simp [hasBit]
  constructor
  · rw [getCF, if_neg (h0 CF), hasBit_CF, hcf]
  · rw [getPF, if_neg (h0 PF), hasBit_PF]
    exact hpf
  · rw [getAF, if_neg (h0 AF), hasBit_AF]
    exact haf
  · rw [getZF, if_neg (h0 ZF), hasBit_ZF]
    exact hzf
  · rw [getSF, if_neg (h0 SF), hasBit_SF]
    exact hsf
  · rw [getOF, if_neg (h0 OF), hasBit_OF, hof]

theorem popfKept_vm (pe : Bool) (cpl : Nat) (s : LazyFlags) :
    (s.popfKept pe cpl).getLsbD 17 = true := by
  unfold popfKept
  cases pe with
  | false =>
    simp only [if_neg Bool.false_ne_true]
    rfl
  | true =>
    by_cases h : 0 < cpl
    · by_cases h' : s.getIOPL < cpl
      · simp only [if_pos h, if_pos h']
        rfl
      · simp only [if_pos h, if_neg h']
        rfl
    · by_cases h' : s.getIOPL < cpl
      · simp only [if_neg h, if_pos h']
        rfl
      · simp only [if_neg h, if_neg h']
        rfl

theorem popf_flags (gen : Gen) (opsz16 pe : Bool) (cpl : Nat) (image : Word) (s : LazyFlags)
    {i : Nat} (hi : i = 0 ∨ i = 2 ∨ i = 4 ∨ i = 6 ∨ i = 7 ∨ i = 11) :
    (s.popf gen opsz16 pe cpl image).flags.getLsbD i = image.getLsbD i := by
  have hg := eflagsMask_getLsbD gen hi
  have h2 := getLsbD_two i (by omega)
  have hkept : (s.popfKept pe cpl).getLsbD i = false := by
    unfold popfKept
    rcases hi with rfl | rfl | rfl | rfl | rfl | rfl <;> cases pe <;>
      by_cases hc : 0 < cpl <;> by_cases hio : s.getIOPL < cpl <;>
      simp only [hc, hio, if_true, if_false, Bool.false_eq_true] <;> rfl
  have hhigh : (0xffff0000 : Word).getLsbD i = false := by
    rcases hi with rfl | rfl | rfl | rfl | rfl | rfl <;> rfl
  have h32 : i < 32 := by omega
  have h16 : i < 16 := by omega
  cases opsz16
  · simp only [popf, setMask, Bool.false_eq_true, if_false, BitVec.getLsbD_or,
      BitVec.getLsbD_and, BitVec.getLsbD_not, hg, h2, hkept, h32, decide_true, Bool.not_false,
      Bool.and_true, Bool.and_false, Bool.or_false, Bool.false_or]
  · simp only [popf, setMask, if_true, BitVec.getLsbD_or, BitVec.getLsbD_and,
      BitVec.getLsbD_not, hg, h2, hkept, hhigh, BitVec.getLsbD_setWidth, h32, h16, decide_true,
      Bool.not_false, Bool.and_true, Bool.true_and, Bool.and_false, Bool.or_false,
      Bool.false_or]

theorem popf_shows (gen : Gen) (opsz16 pe : Bool) (cpl : Nat) (image : Word) (s : LazyFlags)
    (e : EFlags) :
    (s.popf gen opsz16 pe cpl image).Shows (FlagInsn.eager e (.popf opsz16 pe cpl image)) := by
  apply shows_of_stored
  · rfl
  · exact popf_flags gen opsz16 pe cpl image s (by decide)
  · rintro _ ⟨⟩
    exact popf_flags gen opsz16 pe cpl image s (by decide)
  · rintro _ ⟨⟩
    exact popf_flags gen opsz16 pe cpl image s (by decide)
  · rintro _ ⟨⟩
    exact popf_flags gen opsz16 pe cpl image s (by decide)
  · rintro _ ⟨⟩
    exact popf_flags gen opsz16 pe cpl image s (by decide)
  · exact popf_flags gen opsz16 pe cpl image s (by decide)

section Refresh

variable {s : LazyFlags} {f : Bool} {i : Nat}

theorem getCF_setFlag (h : i ≠ 0) : (s.setFlag f (BitVec.twoPow 32 i)).getCF = s.getCF := by
  have hb : hasBit (setBit s.flags f (BitVec.twoPow 32 i)) CF = hasBit s.flags CF :=
    hasBit_setBit_of_ne s.flags f h
  unfold getCF
  rw [setFlag, hb]

theorem getCF_setFlag_self {cf : Bool} (h : s.getCF = some cf) :
    (s.setFlag cf CF).getCF = some cf := by
  by_cases hm : hasBit s.cc.mask CF = true
  · rw [getCF, if_pos hm] at h
    rw [getCF, setFlag, if_pos hm]
    exact h
  · rw [getCF, setFlag, if_neg hm]
    exact congrArg some (hasBit_setBit_self s.flags cf 0 (by decide))

theorem getPF_setFlag (h : i ≠ 2) : (s.setFlag f (BitVec.twoPow 32 i)).getPF = s.getPF := by
  have hb : hasBit (setBit s.flags f (BitVec.twoPow 32 i)) PF = hasBit s.flags PF :=
    hasBit_setBit_of_ne s.flags f h
  unfold getPF
  rw [setFlag, hb]

theorem getAF_setFlag (h : i ≠ 4) : (s.setFlag f (BitVec.twoPow 32 i)).getAF = s.getAF := by
  have hb : hasBit (setBit s.flags f (BitVec.twoPow 32 i)) AF = hasBit s.flags AF :=
    hasBit_setBit_of_ne s.flags f h
  unfold getAF
  rw [setFlag, hb]

theorem getZF_setFlag (h : i ≠ 6) : (s.setFlag f (BitVec.twoPow 32 i)).getZF = s.getZF := by
  have hb : hasBit (setBit s.flags f (BitVec.twoPow 32 i)) ZF = hasBit s.flags ZF :=
    hasBit_setBit_of_ne s.flags f h
  unfold getZF
  rw [setFlag, hb]

theorem getSF_setFlag (h : i ≠ 7) : (s.setFlag f (BitVec.twoPow 32 i)).getSF = s.getSF := by
  have hb : hasBit (setBit s.flags f (BitVec.twoPow 32 i)) SF = hasBit s.flags SF :=
    hasBit_setBit_of_ne s.flags f h
  unfold getSF
  rw [setFlag, hb]

theorem getOF_setFlag (h : i ≠ 11) (hcf : (s.setFlag f (BitVec.twoPow 32 i)).getCF = s.getCF) :
    (s.setFlag f (BitVec.twoPow 32 i)).getOF = s.getOF := by
  have hb : hasBit (setBit s.flags f (BitVec.twoPow 32 i)) OF = hasBit s.flags OF :=
    hasBit_setBit_of_ne s.flags f h
  unfold getOF
  rw [hcf, setFlag, hb]

end Refresh

/-- The flags word with the six arithmetic flags stored. -/
def storeFlags (x : Word) (cf pf af zf sf of : Bool) : Word :=
  setBit (setBit (setBit (setBit (setBit (setBit x cf CF) pf PF) af AF) zf ZF) sf SF) of OF

/-- Each getter reads what it read before the first flag was stored. -/
theorem refreshFlags_bind {s : LazyFlags} {cf : Bool} (hcf : s.getCF = some cf) :
    s.refreshFlags = s.getOF.map fun of => { s with
      flags := storeFlags s.flags cf s.getPF s.getAF s.getZF s.getSF of } := by
  have h1 : (s.setFlag cf CF).getPF = s.getPF := getPF_setFlag (i := 0) (by decide)
  have h2 : ((s.setFlag cf CF).setFlag s.getPF PF).getAF = s.getAF :=
    (getAF_setFlag (i := 2) (by decide)).trans (getAF_setFlag (i := 0) (by decide))
  have h3 : (((s.setFlag cf CF).setFlag s.getPF PF).setFlag s.getAF AF).getZF = s.getZF :=
    (getZF_setFlag (i := 4) (by decide)).trans
      ((getZF_setFlag (i := 2) (by decide)).trans (getZF_setFlag (i := 0) (by decide)))
  have h4 : ((((s.setFlag cf CF).setFlag s.getPF PF).setFlag s.getAF AF).setFlag
      s.getZF ZF).getSF = s.getSF :=
    (getSF_setFlag (i := 6) (by decide)).trans ((getSF_setFlag (i := 4) (by decide)).trans
      ((getSF_setFlag (i := 2) (by decide)).trans (getSF_setFlag (i := 0) (by decide))))
  have hcf0 : (s.setFlag cf CF).getCF = s.getCF := (getCF_setFlag_self hcf).trans hcf.symm
  have h5 : (((((s.setFlag cf CF).setFlag s.getPF PF).setFlag s.getAF AF).setFlag
      s.getZF ZF).setFlag s.getSF SF).getOF = s.getOF := by
    refine (getOF_setFlag (i := 7) (by decide) (getCF_setFlag (by decide))).trans ?_
    refine (getOF_setFlag (i := 6) (by decide) (getCF_setFlag (by decide))).trans ?_
    refine (getOF_setFlag (i := 4) (by decide) (getCF_setFlag (by decide))).trans ?_
    refine (getOF_setFlag (i := 2) (by decide) (getCF_setFlag (by decide))).trans ?_
    exact getOF_setFlag (i := 0) (by decide) hcf0
  simp only [refreshFlags, hcf, Option.bind_eq_bind, Option.bind_some, h1, h2, h3, h4, h5]
  cases s.getOF with
  | none => rfl
  | some of => rfl

theorem refreshFlags_eq {s : LazyFlags} {cf of : Bool} (hcf : s.getCF = some cf)
    (hof : s.getOF = some of) :
    s.refreshFlags = some { s with
      flags := storeFlags s.flags cf s.getPF s.getAF s.getZF s.getSF of } := by
  rw [refreshFlags_bind hcf, hof]
  rfl

/-- What `refresh_flags` stores when no assertion fails in it. -/
theorem refreshFlags_some {s t : LazyFlags} (h : s.refreshFlags = some t) :
    ∃ cf of, s.getCF = some cf ∧ s.getOF = some of ∧
      t = { s with flags := storeFlags s.flags cf s.getPF s.getAF s.getZF s.getSF of } := by
  cases hcf : s.getCF with
  | none =>
    rw [refreshFlags, hcf] at h
    cases h
  | some cf =>
    rw [refreshFlags_bind hcf] at h
    cases hof : s.getOF with
    | none =>
      rw [hof] at h
      cases h
    | some of =>
      rw [hof] at h
      cases h
      exact ⟨cf, of, rfl, rfl, rfl⟩

theorem storeFlags_rest (x : Word) (cf pf af zf sf of : Bool) :
    storeFlags x cf pf af zf sf of &&& ~~~arithMask = x &&& ~~~arithMask := by
  apply BitVec.eq_of_getLsbD_eq
  intro i hi
  cases ha : arithMask.getLsbD i
  · have hbits : CF.getLsbD i = false ∧ PF.getLsbD i = false ∧ AF.getLsbD i = false ∧
        ZF.getLsbD i = false ∧ SF.getLsbD i = false ∧ OF.getLsbD i = false := by
      simp only [arithMask, BitVec.getLsbD_or, Bool.or_eq_false_iff] at ha
      tauto
    obtain ⟨h0, h2, h4, h6, h7, h11⟩ := hbits
    simp only [storeFlags, BitVec.getLsbD_and, getLsbD_setBit, h0, h2, h4, h6, h7, h11,
      Bool.false_eq_true, if_false]
  · simp only [BitVec.getLsbD_and, BitVec.getLsbD_not, ha, Bool.not_true, Bool.and_false]

theorem Shows.stored {s : LazyFlags} {e : EFlags} (h : s.Shows e) {t : LazyFlags}
    (hm : t.cc.mask = 0)
    (hf : t.flags = storeFlags s.flags e.cf s.getPF s.getAF s.getZF s.getSF e.of) :
    t.Shows e := by
  apply shows_of_stored hm <;> rw [hf]
  · simp only [storeFlags, getLsbD_setBit]
    rfl
  · simp only [storeFlags, getLsbD_setBit]
    exact h.pf
  · simp only [storeFlags, getLsbD_setBit]
    exact h.af
  · simp only [storeFlags, getLsbD_setBit]
    exact h.zf
  · simp only [storeFlags, getLsbD_setBit]
    exact h.sf
  · simp only [storeFlags, getLsbD_setBit]
    rfl

theorem Shows.agrees {s : LazyFlags} {e : EFlags} (h : s.Shows e) : s.Agrees e :=
  ⟨h, _, refreshFlags_eq h.cf h.of, h.stored rfl rfl, storeFlags_rest ..⟩

end LazyFlags

end Winspire.Cpu
