import Winspire.Cpu.LazyFlags

/-!
# Lazy flags along runs

The getters and `refresh_flags` stay in step with the x86 definition through any sequence of
instructions, exactly as long as no instruction changes the stored carry under a product whose
OF has not been taken yet.
-/

namespace Winspire.Cpu

open SignExtend LazyFlags

set_option autoImplicit false

namespace FlagInsn

/-- The carry that CLC, STC, CMC and SAHF store. -/
def storedCarry (s : LazyFlags) : FlagInsn → Option Bool
  | clc => some false
  | stc => some true
  | cmc => s.getCF.map (! ·)
  | sahf ah => some (ah.getLsbD 0)
  | _ => none

/-- The instruction does not change CF while OF is to be taken from a product. -/
def KeepsCarry (s : LazyFlags) (i : FlagInsn) : Prop :=
  ∀ c, i.storedCarry s = some c → s.overflowFromCarry = true → s.getCF = some c

theorem keepsCarry_iff {s : LazyFlags} {i : FlagInsn} {c : Bool} (h : i.storedCarry s = some c) :
    i.KeepsCarry s ↔ (s.overflowFromCarry = true → s.getCF = some c) := by
  constructor
  · intro hk
    exact hk c h
  · intro hk c' hc'
    obtain rfl : c' = c := Option.some.inj (hc'.symm.trans h)
    exact hk

/-- The instruction runs through, and shows the flags it should or changes a carry it should not. -/
def StepOk (gen : Gen) (s : LazyFlags) (e : EFlags) (i : FlagInsn) : Prop :=
  ∃ s', i.exec gen s = some s' ∧ (s'.Shows (i.eager e) ↔ i.KeepsCarry s)

variable {gen : Gen} {s : LazyFlags} {e : EFlags}

theorem StepOk.of_shows {i : FlagInsn} {s' : LazyFlags} (hx : i.exec gen s = some s')
    (hn : i.storedCarry s = none) (hs : s'.Shows (i.eager e)) : i.StepOk gen s e := by
  refine ⟨s', hx, ?_⟩
  constructor
  · intro _ c hc
    rw [hn] at hc
    cases hc
  · intro _
    exact hs

theorem StepOk.of_iff {i : FlagInsn} {s' : LazyFlags} {c : Bool} (hx : i.exec gen s = some s')
    (hc : i.storedCarry s = some c)
    (hs : s'.Shows (i.eager e) ↔ (s.overflowFromCarry = true → s.getCF = some c)) :
    i.StepOk gen s e :=
  ⟨s', hx, hs.trans (keepsCarry_iff hc).symm⟩

end FlagInsn

namespace LazyFlags

variable {s : LazyFlags} {e : EFlags} {w : Width}

theorem dst_add (a b : BitVec w.bits) (c : Bool) :
    sext w (a.signExtend 32 + b.signExtend 32 + (if c then 1 else 0)) =
      (a + b + (BitVec.ofBool c).setWidth w.bits).signExtend 32 := by
  have hc : ((if c then 1 else 0 : Word)).setWidth w.bits = (BitVec.ofBool c).setWidth w.bits := by
    cases c <;> cases w <;> rfl
  rw [sext, BitVec.setWidth_add _ _ w.bits_le, BitVec.setWidth_add _ _ w.bits_le, hc,
    setWidth_signExtend w.bits_le, setWidth_signExtend w.bits_le]

theorem setWidth_sub_signExtend (a b : BitVec w.bits) :
    (a.signExtend 32 - b.signExtend 32).setWidth w.bits = a - b := by
  rw [BitVec.sub_eq_add_neg, BitVec.setWidth_add _ _ w.bits_le,
    BitVec.setWidth_neg_of_le w.bits_le, setWidth_signExtend w.bits_le,
    setWidth_signExtend w.bits_le, BitVec.sub_eq_add_neg]

theorem dst_sub (a b : BitVec w.bits) (c : Bool) :
    sext w (a.signExtend 32 - b.signExtend 32 - (if c then 1 else 0)) =
      (a - b - (BitVec.ofBool c).setWidth w.bits).signExtend 32 := by
  have hc : ((if c then 1 else 0 : Word)).setWidth w.bits = (BitVec.ofBool c).setWidth w.bits := by
    cases c <;> cases w <;> rfl
  have hneg : (-(if c then 1 else 0 : Word)).setWidth w.bits =
      -((BitVec.ofBool c).setWidth w.bits) := by
    rw [BitVec.setWidth_neg_of_le w.bits_le, hc]
  rw [sext, BitVec.sub_eq_add_neg (a.signExtend 32 - b.signExtend 32),
    BitVec.setWidth_add _ _ w.bits_le, hneg, setWidth_sub_signExtend, ← BitVec.sub_eq_add_neg]

theorem add_shows (a b : BitVec w.bits) (s : LazyFlags) :
    (s.add w (a.setWidth 32) (b.setWidth 32)).Shows (.add a b false) := by
  apply Shows.ofAdd (a := a) (b := b) rfl
  · rfl
  · exact sext_setWidth w a
  · exact sext_setWidth w b
  · have h0 : ∀ x : Word, x + 0 = x := BitVec.add_zero
    rw [← dst_add a b false, if_neg (by decide), h0, ← sext_setWidth, ← sext_setWidth]
    rfl
  · rfl

theorem sub_shows (a b : BitVec w.bits) (s : LazyFlags) :
    (s.sub w (a.setWidth 32) (b.setWidth 32)).Shows (.sub a b false) := by
  apply Shows.ofSub (a := a) (b := b) rfl
  · rfl
  · exact sext_setWidth w a
  · exact sext_setWidth w b
  · have h0 : ∀ x : Word, x - 0 = x := BitVec.sub_zero
    rw [← dst_sub a b false, if_neg (by decide), h0, ← sext_setWidth, ← sext_setWidth]
    rfl
  · rfl

theorem adc_shows (a b : BitVec w.bits) (he : s.Shows e) :
    ∃ s', s.adc w (a.setWidth 32) (b.setWidth 32) = some s' ∧ s'.Shows (.add a b e.cf) := by
  refine ⟨_, by rw [adc, acopHelper, he.cf]; rfl, ?_⟩
  apply Shows.ofAdd (a := a) (b := b) rfl
  · rfl
  · exact sext_setWidth w a
  · exact sext_setWidth w b
  · rw [← dst_add, ← sext_setWidth, ← sext_setWidth]
  · rfl

theorem sbb_shows (a b : BitVec w.bits) (he : s.Shows e) :
    ∃ s', s.sbb w (a.setWidth 32) (b.setWidth 32) = some s' ∧ s'.Shows (.sub a b e.cf) := by
  refine ⟨_, by rw [sbb, acopHelper, he.cf]; rfl, ?_⟩
  apply Shows.ofSub (a := a) (b := b) rfl
  · rfl
  · exact sext_setWidth w a
  · exact sext_setWidth w b
  · rw [← dst_sub, ← sext_setWidth, ← sext_setWidth]
  · rfl

theorem lop0_shows {name : CcOp} (hop : name = .and ∨ name = .or ∨ name = .xor)
    {op : Word → Word → Word} {a b r : BitVec w.bits}
    (hr : (op (a.setWidth 32) (b.setWidth 32)).setWidth w.bits = r) (s : LazyFlags) :
    (s.lop0Helper name w op (a.setWidth 32) (b.setWidth 32)).Shows (.logic r) := by
  apply Shows.ofLogic
  · exact hop
  · rw [← hr]
    rfl
  · rfl

theorem inc_shows (a : BitVec w.bits) (he : s.Shows e) :
    ∃ s', s.inc w (a.setWidth 32) = some s' ∧
      s'.Shows { EFlags.add a 1 false with cf := e.cf } := by
  refine ⟨_, by rw [inc, incDecHelper, he.cf]; rfl, ?_⟩
  apply Shows.ofInc
  · rfl
  · have h1 : (1 : Word).setWidth w.bits = 1 := by cases w <;> rfl
    change sext w (sext w (a.setWidth 32) + 1) = _
    rw [sext_setWidth, sext, BitVec.setWidth_add _ _ w.bits_le, setWidth_signExtend w.bits_le, h1]
  · rfl
  · exact hasBit_setBit_self s.flags e.cf 0 (by decide)

theorem dec_shows (a : BitVec w.bits) (he : s.Shows e) :
    ∃ s', s.dec w (a.setWidth 32) = some s' ∧
      s'.Shows { EFlags.sub a 1 false with cf := e.cf } := by
  refine ⟨_, by rw [dec, incDecHelper, he.cf]; rfl, ?_⟩
  apply Shows.ofDec
  · rfl
  · have h1 : (1 : Word) = (1 : BitVec w.bits).signExtend 32 := by cases w <;> rfl
    change sext w (sext w (a.setWidth 32) - 1) = _
    rw [sext_setWidth, h1, sext, setWidth_sub_signExtend]
  · rfl
  · exact hasBit_setBit_self s.flags e.cf 0 (by decide)

theorem neg_shows (a : BitVec w.bits) (s : LazyFlags) :
    (s.neg w (a.setWidth 32)).Shows (.sub 0 a false) := by
  apply Shows.ofNeg
  · rfl
  · change sext w (-(sext w (a.setWidth 32))) = _
    rw [sext_setWidth, sext, BitVec.setWidth_neg_of_le w.bits_le, setWidth_signExtend w.bits_le]
  · rfl

theorem refreshed_shows (he : s.Shows e) :
    ∃ s', s.refreshFlags = some s' ∧ (s'.setMask 0).Shows e := by
  obtain ⟨-, s', hr, hs, -⟩ := he.agrees
  exact ⟨s', hr, hs⟩

end LazyFlags

namespace FlagInsn

variable {gen : Gen} {s : LazyFlags} {e : EFlags}

theorem and_truncates {w : Width} (a b : BitVec w.bits) :
    (a.setWidth 32 &&& b.setWidth 32).setWidth w.bits = a &&& b := by
  rw [BitVec.setWidth_and, BitVec.setWidth_setWidth_of_le _ w.bits_le,
    BitVec.setWidth_setWidth_of_le _ w.bits_le, BitVec.setWidth_eq, BitVec.setWidth_eq]

theorem or_truncates {w : Width} (a b : BitVec w.bits) :
    (a.setWidth 32 ||| b.setWidth 32).setWidth w.bits = a ||| b := by
  rw [BitVec.setWidth_or, BitVec.setWidth_setWidth_of_le _ w.bits_le,
    BitVec.setWidth_setWidth_of_le _ w.bits_le, BitVec.setWidth_eq, BitVec.setWidth_eq]

theorem xor_truncates {w : Width} (a b : BitVec w.bits) :
    (a.setWidth 32 ^^^ b.setWidth 32).setWidth w.bits = a ^^^ b := by
  rw [BitVec.setWidth_xor, BitVec.setWidth_setWidth_of_le _ w.bits_le,
    BitVec.setWidth_setWidth_of_le _ w.bits_le, BitVec.setWidth_eq, BitVec.setWidth_eq]

theorem sext_b8 (a : BitVec 8) : sext .b8 (a.setWidth 32) = a.signExtend 32 := sext_setWidth .b8 a

theorem sext_b16 (a : BitVec 16) : sext .b16 (a.setWidth 32) = a.signExtend 32 :=
  sext_setWidth .b16 a

theorem sext_b32 (a : Word) : sext .b32 a = a := by
  change (a.setWidth 32).signExtend 32 = a
  rw [BitVec.setWidth_eq, BitVec.signExtend_eq]

theorem imulw_shows {m : Nat} (hm : 0 < m) (hmw : m ≤ 16) (a : BitVec 16) (b : BitVec m)
    (s : LazyFlags) :
    (s.imulShort (.imul .b16) (a.signExtend 32) (b.signExtend 32)).Shows (.imul a b) :=
  imulShort_shows (w := .b16) (Or.inr rfl) hm hmw a b s

theorem imuld_shows (a b : Word) (s : LazyFlags) : (s.imulLong a b).Shows (.imul a b) := by
  have h := imulLong_shows (m := 32) (by decide) (by decide) a b s
  rw [BitVec.signExtend_eq] at h
  exact h

/-- Every instruction keeps the getters in step, but for a carry changed under a product. -/
theorem stepOk (he : s.Shows e) (i : FlagInsn) : i.StepOk gen s e := by
  cases i with
  | add w a b => exact .of_shows rfl rfl (add_shows a b s)
  | adc w a b =>
    obtain ⟨s', hx, hs⟩ := adc_shows a b he
    exact .of_shows hx rfl hs
  | sub w a b => exact .of_shows rfl rfl (sub_shows a b s)
  | sbb w a b =>
    obtain ⟨s', hx, hs⟩ := sbb_shows a b he
    exact .of_shows hx rfl hs
  | cmp w a b => exact .of_shows rfl rfl (sub_shows a b s)
  | and w a b => exact .of_shows rfl rfl (lop0_shows (Or.inl rfl) (and_truncates a b) s)
  | or w a b => exact .of_shows rfl rfl (lop0_shows (Or.inr (Or.inl rfl)) (or_truncates a b) s)
  | xor w a b => exact .of_shows rfl rfl (lop0_shows (Or.inr (Or.inr rfl)) (xor_truncates a b) s)
  | test w a b => exact .of_shows rfl rfl (lop0_shows (Or.inl rfl) (and_truncates a b) s)
  | inc w a =>
    obtain ⟨s', hx, hs⟩ := inc_shows a he
    exact .of_shows hx rfl hs
  | dec w a =>
    obtain ⟨s', hx, hs⟩ := dec_shows a he
    exact .of_shows hx rfl hs
  | neg w a => exact .of_shows rfl rfl (neg_shows a s)
  | imul2w a b =>
    refine .of_shows rfl rfl ?_
    rw [LazyFlags.imul2w, sext_b16, sext_b16]
    exact imulw_shows (by decide) (by decide) a b s
  | imul2d a b =>
    refine .of_shows rfl rfl ?_
    rw [LazyFlags.imul2d, sext_b32, sext_b32]
    exact imuld_shows a b s
  | imul2wIb b c =>
    refine .of_shows rfl rfl ?_
    rw [LazyFlags.imul2wIb, sext_b16, sext_b8]
    exact imulw_shows (by decide) (by decide) b c s
  | imul2wIw b c =>
    refine .of_shows rfl rfl ?_
    rw [LazyFlags.imul2wIw, sext_b16, sext_b16]
    exact imulw_shows (by decide) (by decide) b c s
  | imul2dIb b c =>
    refine .of_shows rfl rfl ?_
    rw [LazyFlags.imul2dIb, sext_b32, sext_b8]
    exact imulLong_shows (by decide) (by decide) b c s
  | imul2dId b c =>
    refine .of_shows rfl rfl ?_
    rw [LazyFlags.imul2dId, sext_b32, sext_b32]
    exact imuld_shows b c s
  | imulb acc a =>
    refine .of_shows rfl rfl ?_
    rw [LazyFlags.imulb, sext_b8, sext_b8]
    exact imulShort_shows (w := .b8) (Or.inl rfl) (by decide) (by decide) acc a s
  | imulw acc a =>
    refine .of_shows rfl rfl ?_
    rw [LazyFlags.imulw, sext_b16, sext_b16]
    exact imulw_shows (by decide) (by decide) acc a s
  | imuld acc a =>
    refine .of_shows rfl rfl ?_
    rw [LazyFlags.imuld, sext_b32, sext_b32]
    exact imuld_shows acc a s
  | mulb acc a => exact .of_shows rfl rfl (mulb_shows acc a s)
  | mulw acc a => exact .of_shows rfl rfl (mulw_shows acc a s)
  | muld acc a => exact .of_shows rfl rfl (muld_shows acc a s)
  | clc => exact .of_iff rfl rfl (shows_storeCarry_iff (clc_storesCarry s) (clc_sameRest s) he)
  | stc => exact .of_iff rfl rfl (shows_storeCarry_iff (stc_storesCarry s) (stc_sameRest s) he)
  | cmc =>
    refine .of_iff (c := !e.cf) (cmc_eq he.cf) (by rw [storedCarry, he.cf]; rfl) ?_
    exact shows_storeCarry_iff (complemented_storesCarry s e.cf) (complemented_sameRest s e.cf) he
  | lahf =>
    obtain ⟨s', hx, hs⟩ := refreshed_shows he
    have hx' : FlagInsn.exec gen s .lahf = some (s'.setMask 0) := by
      rw [exec, LazyFlags.lahf, hx]
      rfl
    exact .of_shows hx' rfl hs
  | sahf ah => exact .of_iff rfl rfl (sahf_shows_iff gen ah he)
  | pushf =>
    obtain ⟨s', hx, hs⟩ := refreshed_shows he
    have hx' : FlagInsn.exec gen s .pushf = some (s'.setMask 0) := by
      rw [exec, LazyFlags.pushf, hx]
      rfl
    exact .of_shows hx' rfl hs
  | popf opsz16 pe cpl image => exact .of_shows rfl rfl (popf_shows gen opsz16 pe cpl image s e)

end FlagInsn

section Others

/-- The flags that only POPF changes here. -/
def otherFlags : Word := TF ||| IF ||| DF ||| IOPL ||| NT ||| VM

/-- IF is for ring IOPL and below, IOPL for ring 0. -/
def popfChanges (pe : Bool) (cpl : Nat) (s : LazyFlags) : Word :=
  TF ||| DF ||| NT ||| (if pe ∧ s.getIOPL < cpl then 0 else IF) |||
    (if pe ∧ 0 < cpl then 0 else IOPL)

/-- The other flags by the x86 definition. -/
def FlagInsn.others (s : LazyFlags) : FlagInsn → Word
  | popf _ pe cpl image =>
    (s.flags &&& otherFlags &&& ~~~popfChanges pe cpl s) ||| (image &&& popfChanges pe cpl s)
  | _ => s.flags &&& otherFlags

variable {gen : Gen} {s s' : LazyFlags}

theorem otherFlags_bits (gen : Gen) {i : Nat} (h : otherFlags.getLsbD i = true) :
    (i = 8 ∨ i = 9 ∨ i = 10 ∨ i = 12 ∨ i = 13 ∨ i = 14 ∨ i = 17) ∧
      gen.eflagsMask.getLsbD i = true := by
  have hall : ∀ j : Fin 32, otherFlags.getLsbD j.val = true →
      (j.val = 8 ∨ j.val = 9 ∨ j.val = 10 ∨ j.val = 12 ∨ j.val = 13 ∨ j.val = 14 ∨ j.val = 17) ∧
        ∀ g ∈ [Gen.i386, .i486, .i586, .i686], g.eflagsMask.getLsbD j.val = true := by decide
  obtain ⟨hbits, hgen⟩ := hall ⟨i, BitVec.lt_of_getLsbD h⟩ h
  exact ⟨hbits, hgen gen (by cases gen <;> simp)⟩

theorem and_otherFlags {x y : Word}
    (h : ∀ i, otherFlags.getLsbD i = true → y.getLsbD i = x.getLsbD i) :
    y &&& otherFlags = x &&& otherFlags := by
  apply BitVec.eq_of_getLsbD_eq
  intro i _
  rw [BitVec.getLsbD_and, BitVec.getLsbD_and]
  cases hi : otherFlags.getLsbD i with
  | false => rw [Bool.and_false, Bool.and_false]
  | true => rw [h i hi]

theorem setBit_others (x : Word) (f : Bool) : setBit x f CF &&& otherFlags = x &&& otherFlags := by
  apply and_otherFlags
  intro i hi
  obtain ⟨hbits, -⟩ := otherFlags_bits .i386 hi
  exact getLsbD_setBit_CF x f (by omega)

theorem refreshFlags_others (h : s.refreshFlags = some s') :
    s'.flags &&& otherFlags = s.flags &&& otherFlags := by
  obtain ⟨cf, of, -, -, rfl⟩ := refreshFlags_some h
  have hrest := storeFlags_rest s.flags cf s.getPF s.getAF s.getZF s.getSF of
  have hmask : ∀ x : Word, x &&& ~~~arithMask &&& otherFlags = x &&& otherFlags := by
    intro x
    rw [BitVec.and_assoc]
    rfl
  rw [← hmask, hrest, hmask]

theorem sahf_others (ah : Byte) (s : LazyFlags) :
    (s.sahf gen ah).flags &&& otherFlags = s.flags &&& otherFlags := by
  apply and_otherFlags
  intro i hi
  obtain ⟨hbits, hgen⟩ := otherFlags_bits gen hi
  have hlow : (0xff : Word).getLsbD i = false := by
    rcases hbits with rfl | rfl | rfl | rfl | rfl | rfl | rfl <;> rfl
  have hah : (ah.setWidth 32).getLsbD i = false := by
    rw [BitVec.getLsbD_setWidth, BitVec.getLsbD_of_ge ah i (by omega), Bool.and_false]
  simp only [LazyFlags.sahf, LazyFlags.setMask, BitVec.getLsbD_or, BitVec.getLsbD_and,
    BitVec.getLsbD_not, hlow, hah, hgen, getLsbD_two i (by omega), Bool.not_false, Bool.and_true,
    Bool.or_false]
  rw [decide_eq_true (by omega), Bool.and_true]

theorem popfChanges_bit (pe : Bool) (cpl : Nat) (s : LazyFlags) {i : Nat}
    (hi : otherFlags.getLsbD i = true) :
    (popfChanges pe cpl s).getLsbD i = !(s.popfKept pe cpl).getLsbD i := by
  obtain ⟨hbits, -⟩ := otherFlags_bits .i386 hi
  unfold popfChanges LazyFlags.popfKept
  rcases hbits with rfl | rfl | rfl | rfl | rfl | rfl | rfl <;> cases pe <;>
    by_cases hc : 0 < cpl <;> by_cases hio : s.getIOPL < cpl <;>
    simp only [hc, hio, if_true, if_false, Bool.false_eq_true, and_true, and_false] <;> rfl

theorem popfChanges_other (pe : Bool) (cpl : Nat) (s : LazyFlags) {i : Nat}
    (hi : otherFlags.getLsbD i = false) : (popfChanges pe cpl s).getLsbD i = false := by
  have hsub : ∀ m ∈ [TF, DF, NT, IF, IOPL, 0], m.getLsbD i = false := by
    simp only [otherFlags, BitVec.getLsbD_or, Bool.or_eq_false_iff] at hi
    simp [hi]
  unfold popfChanges
  simp only [BitVec.getLsbD_or]
  split <;> split <;> simp [hsub]

theorem popf_others (opsz16 pe : Bool) (cpl : Nat) (image : Word) (s : LazyFlags) :
    (s.popf gen opsz16 pe cpl image).flags &&& otherFlags =
      FlagInsn.others s (.popf opsz16 pe cpl image) := by
  apply BitVec.eq_of_getLsbD_eq
  intro i h32
  unfold FlagInsn.others
  rw [BitVec.getLsbD_and, BitVec.getLsbD_or, BitVec.getLsbD_and, BitVec.getLsbD_and,
    BitVec.getLsbD_and, BitVec.getLsbD_not]
  cases hi : otherFlags.getLsbD i with
  | false => simp [popfChanges_other pe cpl s hi]
  | true =>
    obtain ⟨hbits, hgen⟩ := otherFlags_bits gen hi
    have h2 := getLsbD_two i (by omega)
    rw [popfChanges_bit pe cpl s hi]
    cases opsz16 with
    | false =>
      simp only [LazyFlags.popf, LazyFlags.setMask, Bool.false_eq_true, if_false, BitVec.getLsbD_or,
        BitVec.getLsbD_and, BitVec.getLsbD_not, hgen, h2, h32, decide_true, Bool.not_not,
        Bool.true_and, Bool.and_true, Bool.or_false]
    | true =>
      -- VM is the one flag above the image of sixteen bits, and is kept
      have hhigh : (0xffff0000 : Word).getLsbD i = false ∧ i < 16 ∨
          (s.popfKept pe cpl).getLsbD i = true := by
        rcases hbits with rfl | rfl | rfl | rfl | rfl | rfl | rfl
        case inr.inr.inr.inr.inr.inr => exact .inr (popfKept_vm pe cpl s)
        all_goals exact .inl ⟨rfl, by decide⟩
      simp only [LazyFlags.popf, LazyFlags.setMask, if_true, BitVec.getLsbD_or, BitVec.getLsbD_and,
        BitVec.getLsbD_not, hgen, h2, h32, BitVec.getLsbD_setWidth, decide_true, Bool.not_not,
        Bool.true_and, Bool.and_true, Bool.or_false]
      rcases hhigh with ⟨hlow, h16⟩ | hkept
      · rw [hlow, decide_eq_true h16, Bool.false_or, Bool.true_and]
      · rw [hkept, Bool.or_true, Bool.not_true, Bool.and_false, Bool.and_false]

/-- An instruction sets the other flags as the x86 definition does. -/
theorem FlagInsn.exec_others {i : FlagInsn} (h : i.exec gen s = some s') :
    s'.flags &&& otherFlags = i.others s := by
  cases i with
  | adc w a b | sbb w a b =>
    obtain ⟨cf, -, h⟩ := Option.bind_eq_some_iff.mp h
    cases h
    rfl
  | inc w a | dec w a =>
    obtain ⟨cf, -, h⟩ := Option.bind_eq_some_iff.mp h
    cases h
    exact setBit_others s.flags cf
  | clc =>
    cases h
    exact BitVec.and_assoc ..
  | stc =>
    cases h
    apply and_otherFlags
    intro i hi
    obtain ⟨hbits, -⟩ := otherFlags_bits gen hi
    have hcf : CF.getLsbD i = false := by simp [CF, BitVec.getLsbD_one, show i ≠ 0 by omega]
    change (s.flags ||| CF).getLsbD i = _
    rw [BitVec.getLsbD_or, hcf, Bool.or_false]
  | cmc =>
    obtain ⟨cf, -, h⟩ := Option.bind_eq_some_iff.mp h
    cases h
    exact setBit_others s.flags (!cf)
  | lahf | pushf =>
    obtain ⟨t, ht, h⟩ := Option.bind_eq_some_iff.mp h
    cases h
    exact (refreshFlags_others ht :)
  | sahf ah =>
    cases h
    exact sahf_others ah s
  | popf opsz16 pe cpl image =>
    cases h
    exact popf_others opsz16 pe cpl image s
  | _ =>
    cases h
    rfl

end Others

/-- After every step the flags agree with the x86 definition, and no assertion fails. An
instruction that raises #GP changes no flag. -/
def AgreesAlong (gen : Gen) : List FlagInsn → LazyFlags → EFlags → Prop
  | [], s, e => s.Agrees e
  | i :: is, s, e => s.Agrees e ∧
    if i.traps s then AgreesAlong gen is s e
    else ∃ s', i.exec gen s = some s' ∧ AgreesAlong gen is s' (i.eager e)

/-- No instruction of the run changes CF while OF is to be taken from a product. -/
def KeepsCarryAlong (gen : Gen) : List FlagInsn → LazyFlags → Prop
  | [], _ => True
  | i :: is, s =>
    if i.traps s then KeepsCarryAlong gen is s
    else i.KeepsCarry s ∧ ∀ s', i.exec gen s = some s' → KeepsCarryAlong gen is s'

/-- Every instruction of the run sets the other flags as the x86 definition does. -/
def OthersAlong (gen : Gen) : List FlagInsn → LazyFlags → Prop
  | [], _ => True
  | i :: is, s =>
    if i.traps s then OthersAlong gen is s
    else ∀ s', i.exec gen s = some s' →
      s'.flags &&& otherFlags = i.others s ∧ OthersAlong gen is s'

theorem others_along (gen : Gen) (is : List FlagInsn) (s : LazyFlags) : OthersAlong gen is s := by
  induction is generalizing s with
  | nil => trivial
  | cons i is ih =>
    unfold OthersAlong
    split
    · exact ih s
    · intro s' h
      exact ⟨FlagInsn.exec_others h, ih s'⟩

theorem AgreesAlong.head {gen : Gen} {is : List FlagInsn} {s : LazyFlags} {e : EFlags}
    (h : AgreesAlong gen is s e) : s.Agrees e := by
  cases is with
  | nil => exact h
  | cons i is => exact h.1

/-- From any flags the getters show, the lazy flags follow the x86 definition along a run iff the
run never changes CF under a product. -/
theorem lazyFlags_agree_iff (gen : Gen) (is : List FlagInsn) (s : LazyFlags) (e : EFlags)
    (he : s.Shows e) : AgreesAlong gen is s e ↔ KeepsCarryAlong gen is s := by
  induction is generalizing s e with
  | nil =>
    constructor
    · intro _
      trivial
    · intro _
      exact he.agrees
  | cons i is ih =>
    unfold AgreesAlong KeepsCarryAlong
    by_cases ht : i.traps s = true
    · rw [if_pos ht, if_pos ht, ih s e he]
      constructor
      · intro h
        exact h.2
      · intro h
        exact ⟨he.agrees, h⟩
    · rw [if_neg ht, if_neg ht]
      have hstep : i.StepOk gen s e := i.stepOk he
      obtain ⟨s', hx, hs⟩ := hstep
      constructor
      · rintro ⟨-, s'', hx', ha⟩
        obtain rfl : s' = s'' := Option.some.inj (hx.symm.trans hx')
        refine ⟨hs.mp ha.head.shows, ?_⟩
        intro t ht'
        obtain rfl : s' = t := Option.some.inj (hx.symm.trans ht')
        exact (ih s' _ ha.head.shows).mp ha
      · rintro ⟨hk, hrest⟩
        have hshows := hs.mpr hk
        exact ⟨he.agrees, s', hx, (ih s' _ hshows).mpr (hrest s' hx)⟩

def clearFlags : LazyFlags := ⟨0x2, ⟨.add, 0, 0, 0, 0, 0⟩⟩

def clearEFlags : EFlags := ⟨false, some false, some false, some false, some false, false⟩

theorem clearFlags_shows : clearFlags.Shows clearEFlags := by
  apply shows_of_stored <;> first | rfl | (rintro _ ⟨⟩; rfl)

/-- A product that overflows, a sum that takes its flags over, and then a change of CF. -/
theorem lazyFlags_agree_product_add :
    clearFlags.Shows clearEFlags ∧
      AgreesAlong .i586 [.mulb 16 16, .add .b8 1 1, .cmc] clearFlags clearEFlags := by
  refine ⟨clearFlags_shows, (lazyFlags_agree_iff _ _ _ _ clearFlags_shows).mpr ?_⟩
  refine ⟨fun c hc => (nomatch hc), ?_⟩
  rintro s ⟨⟩
  refine ⟨fun c hc => (nomatch hc), ?_⟩
  rintro s ⟨⟩
  refine ⟨fun c _ ho => absurd ho (by decide), ?_⟩
  intro s _
  trivial

/-- CLC after a product that overflows clears OF as well. -/
theorem clc_changes_overflow :
    clearFlags.Shows clearEFlags ∧
      ¬ AgreesAlong .i586 [.mulb 16 16, .clc] clearFlags clearEFlags := by
  refine ⟨clearFlags_shows, ?_⟩
  rintro ⟨-, s₁, hs₁, -, s₂, hs₂, h⟩
  obtain rfl : clearFlags.mulb 16 16 = s₁ := Option.some.inj hs₁
  obtain rfl : (clearFlags.mulb 16 16).clc = s₂ := Option.some.inj hs₂
  have hof := h.shows.of
  revert hof
  decide

end Winspire.Cpu
