import Winspire.Cpu.Shifts
import Winspire.Cpu.LazyFlags

/-!
# When shifts and rotates follow the definition

SHL fails for counts above the width, where the shift that takes CF has a negative amount. ROL and
ROR fail for a count that is not zero but is zero when masked, unless CF and OF already hold what
they store.
-/

namespace Winspire.Cpu

open SignExtend

set_option autoImplicit false

theorem Width.bit_toNat (w : Width) : w.bit.toNat = w.bits := by cases w <;> rfl

theorem amount_toNat (b : Word) : (b &&& 0x1f).toNat = b.toNat % 32 := by
  rw [BitVec.toNat_and]
  exact Nat.and_two_pow_sub_one_eq_mod b.toNat 5

theorem ne_zero_iff (y : Word) : y ≠ 0 ↔ y.toNat ≠ 0 := by
  rw [ne_eq, ← BitVec.toNat_inj]
  rfl

theorem Width.bit_sub_toNat (w : Width) {y : Word} (h : y.toNat ≤ w.bits) :
    (w.bit - y).toNat = w.bits - y.toNat := by
  have hle : y ≤ w.bit := by rw [BitVec.le_def, w.bit_toNat]; exact h
  rw [BitVec.toNat_sub_of_le hle, w.bit_toNat]

theorem Width.bit_sub_wrapped (w : Width) {y : Word} (h : w.bits < y.toNat) (h5 : y.toNat < 32) :
    ¬ (w.bit - y).toNat < 32 := by
  have hb := w.bits_le
  rw [BitVec.toNat_sub, w.bit_toNat]
  omega

theorem pred_toNat {y : Word} (h : y.toNat ≠ 0) : (y - 1).toNat = y.toNat - 1 := by
  have hle : (1 : Word) ≤ y := by rw [BitVec.le_def]; exact Nat.one_le_iff_ne_zero.mpr h
  rw [BitVec.toNat_sub_of_le hle]
  rfl

theorem Width.bit_mask_toNat (w : Width) (b : Word) :
    (b &&& (w.bit - 1)).toNat = b.toNat % w.bits := by
  rw [BitVec.toNat_and]
  cases w
  · exact Nat.and_two_pow_sub_one_eq_mod b.toNat 3
  · exact Nat.and_two_pow_sub_one_eq_mod b.toNat 4
  · exact Nat.and_two_pow_sub_one_eq_mod b.toNat 5

theorem Width.bit_succ_toNat (w : Width) : (w.bit + 1).toNat = w.bits + 1 := by cases w <;> rfl

theorem Width.bit_mod_toNat (w : Width) (y : Word) :
    (y % (w.bit + 1)).toNat = y.toNat % (w.bits + 1) := by
  rw [BitVec.toNat_umod, w.bit_succ_toNat]

theorem Width.bit_succ_sub_toNat (w : Width) {y : Word} (h : y.toNat ≤ w.bits) :
    (w.bit + 1 - y).toNat = w.bits + 1 - y.toNat := by
  have hle : y ≤ w.bit + 1 := by rw [BitVec.le_def, w.bit_succ_toNat]; omega
  rw [BitVec.toNat_sub_of_le hle, w.bit_succ_toNat]

theorem Width.mod_bits (w : Width) (b : Nat) : b % 32 % w.bits = b % w.bits := by
  cases w <;> simp only [Width.bits] <;> omega

section Host

variable {x y : Word} {k : Nat}

theorem hostShl_eq (h : y.toNat = k) (hk : k < 32) : hostShl x y = some (x <<< k) := by
  subst h
  exact if_pos hk

theorem hostShr_eq (h : y.toNat = k) (hk : k < 32) : hostShr x y = some (x >>> k) := by
  subst h
  exact if_pos hk

theorem hostSar_eq (h : y.toNat = k) (hk : k < 32) : hostSar x y = some (x.sshiftRight k) := by
  subst h
  exact if_pos hk

end Host

section Bits

variable {w : Width} (x : BitVec w.bits)

theorem getLsbD_zeroExtend (i : Nat) : (x.setWidth 32).getLsbD i = x.getLsbD i := by
  rw [BitVec.getLsbD_setWidth]
  by_cases hi : i < 32
  · simp [hi]
  · have hb := w.bits_le
    have hx := BitVec.getLsbD_of_ge x i (by omega)
    simp [hx]

theorem hasBit_low (z : Word) : hasBit (z &&& 1) 1 = z.getLsbD 0 := by
  refine (hasBit_twoPow _ 0).trans ?_
  rw [BitVec.getLsbD_and]
  simp

theorem msb_sext (z : Word) : (sext w z).msb = z.getLsbD (w.bits - 1) := by
  have hp := w.bits_pos
  rw [sext_eq, msb_signExtend_of_le w.bits_le hp, BitVec.msb_eq_getLsbD_last,
    BitVec.getLsbD_setWidth]
  simp [hp]

theorem getLsbD_sext {z : Word} {i : Nat} (hi : i < w.bits) :
    (sext w z).getLsbD i = z.getLsbD i := by
  rw [sext_eq, getLsbD_signExtend_low w.bits_le hi, BitVec.getLsbD_setWidth]
  simp [hi]

theorem setWidth_sext (z : Word) : (sext w z).setWidth w.bits = z.setWidth w.bits := by
  rw [sext_eq, setWidth_signExtend w.bits_le]

theorem sshiftRight_signExtend (k : Nat) :
    (x.signExtend 32).sshiftRight k = (x.sshiftRight k).signExtend 32 := by
  apply BitVec.eq_of_toInt_eq
  rw [BitVec.toInt_sshiftRight, BitVec.toInt_signExtend_of_le w.bits_le,
    BitVec.toInt_signExtend_of_le w.bits_le, BitVec.toInt_sshiftRight]

end Bits

section Follows

variable {w : Width} {s s' : LazyFlags} {e : FlagSet Bool} {c o : Bool} {cf of : Option Bool}
  {r : BitVec w.bits}

theorem shown_eq (hc : s.getCF = some c) (ho : s.getOF = some o) :
    s.shown = some ⟨c, s.getPF, s.getAF, s.getZF, s.getSF, o⟩ := by
  rw [LazyFlags.shown, hc, ho]
  rfl

theorem shown_cases (h : s.shown = some e) : s.getCF = some e.cf ∧ s.getPF = e.pf ∧
    s.getAF = e.af ∧ s.getZF = e.zf ∧ s.getSF = e.sf ∧ s.getOF = some e.of := by
  unfold LazyFlags.shown at h
  cases hc : s.getCF with
  | none => rw [hc] at h; cases h
  | some c =>
    cases ho : s.getOF with
    | none => rw [hc, ho] at h; cases h
    | some o =>
      rw [hc, ho] at h
      obtain rfl := Option.some.inj h
      exact ⟨rfl, rfl, rfl, rfl, rfl, rfl⟩

theorem not_follows_none (f : Shifted w.bits) : ¬ f.Follows none := by
  intro ⟨_, _, _, h, _⟩
  cases h

theorem same_follows (x : BitVec w.bits) (he : s.shown = some e) :
    (Shifted.same x e).Follows (some (s, x.setWidth 32)) := by
  refine ⟨s, x.setWidth 32, e, rfl, ?_, he, ?_⟩
  · intro v hv
    rw [← Option.some.inj hv, BitVec.setWidth_setWidth_of_le _ w.bits_le, BitVec.setWidth_eq]
  · exact ⟨fun _ h => Option.some.inj h, fun _ h => Option.some.inj h,
      fun _ h => Option.some.inj h, fun _ h => Option.some.inj h,
      fun _ h => Option.some.inj h, fun _ h => Option.some.inj h⟩

theorem undefined_follows (hc : s'.getCF = some c) (ho : s'.getOF = some o) (z : Word) :
    (Shifted.undefined (n := w.bits)).Follows (some (s', z)) := by
  refine ⟨s', z, _, rfl, ?_, shown_eq hc ho, ?_⟩
  · intro v hv
    cases hv
  · constructor <;> intro b hb <;> cases hb

theorem shift_follows (hd : s'.cc.dst = r.signExtend 32) (hm : s'.cc.mask = LazyFlags.logicMask)
    (hc : s'.getCF = some c) (ho : s'.getOF = some o) (hcf : ∀ v, cf = some v → c = v)
    (hof : ∀ v, of = some v → o = v) :
    (Shifted.shift r cf of).Follows (some (s', s'.cc.dst)) := by
  have hshow : s'.Shows (.ofResult r c o none) :=
    LazyFlags.Shows.ofResult hd (by rw [hm]; rfl) hc (fun _ h => nomatch h) ho
  refine ⟨s', s'.cc.dst, _, rfl, ?_, shown_eq hc ho, ?_⟩
  · intro v hv
    rw [hd, setWidth_signExtend w.bits_le]
    exact Option.some.inj hv
  · exact ⟨hcf, hshow.pf, fun _ h => (nomatch h), hshow.zf, hshow.sf, hof⟩

theorem getLsbD_cleared (m : Word) {i : Nat} (h0 : i ≠ 0) (h11 : i ≠ 11) :
    (m &&& ~~~(CF ||| OF)).getLsbD i = m.getLsbD i := by
  have hcf : CF.getLsbD i = false := by
    change (BitVec.twoPow 32 0).getLsbD i = false
    rw [BitVec.getLsbD_twoPow]
    simp [Ne.symm h0]
  have hof : OF.getLsbD i = false := by
    change (BitVec.twoPow 32 11).getLsbD i = false
    rw [BitVec.getLsbD_twoPow]
    simp [Ne.symm h11]
  rw [BitVec.getLsbD_and, BitVec.getLsbD_not, BitVec.getLsbD_or, hcf, hof]
  by_cases hi : i < 32
  · simp [hi]
  · rw [BitVec.getLsbD_of_ge m i (by omega)]
    simp

theorem setCarries_other (s : LazyFlags) (c o : Bool) {i : Nat} (h0 : i ≠ 0) (h11 : i ≠ 11) :
    hasBit (s.setCarries c o).cc.mask (BitVec.twoPow 32 i) =
        hasBit s.cc.mask (BitVec.twoPow 32 i) ∧
      hasBit (s.setCarries c o).flags (BitVec.twoPow 32 i) =
        hasBit s.flags (BitVec.twoPow 32 i) := by
  constructor
  · rw [hasBit_twoPow, hasBit_twoPow]
    exact getLsbD_cleared s.cc.mask h0 h11
  · refine (hasBit_setBit_of_ne (i := 11) _ o (Ne.symm h11)).trans ?_
    exact hasBit_setBit_of_ne (i := 0) _ c (Ne.symm h0)

theorem getCF_setCarries (s : LazyFlags) (c o : Bool) : (s.setCarries c o).getCF = some c := by
  have hm : ¬ hasBit (s.setCarries c o).cc.mask CF = true := by
    rw [hasBit_CF]
    change ¬ (s.cc.mask &&& ~~~(CF ||| OF)).getLsbD 0 = true
    rw [BitVec.getLsbD_and]
    simp [CF, OF]
  rw [LazyFlags.getCF, if_neg hm]
  refine congrArg some ?_
  refine (hasBit_setBit_of_ne (i := 11) (j := 0) _ o (by omega)).trans ?_
  exact hasBit_setBit_self s.flags c 0 (by omega)

theorem getOF_setCarries (s : LazyFlags) (c o : Bool) : (s.setCarries c o).getOF = some o := by
  have hm : ¬ hasBit (s.setCarries c o).cc.mask OF = true := by
    rw [hasBit_OF]
    change ¬ (s.cc.mask &&& ~~~(CF ||| OF)).getLsbD 11 = true
    rw [BitVec.getLsbD_and]
    simp [CF, OF]
  rw [LazyFlags.getOF, if_neg hm]
  exact congrArg some (hasBit_setBit_self (setBit s.flags c CF) o 11 (by omega))

theorem shown_setCarries (h : s.shown = some e) (c o : Bool) :
    (s.setCarries c o).shown = some { e with cf := c, of := o } := by
  obtain ⟨_, hpf, haf, hzf, hsf, _⟩ := shown_cases h
  rw [shown_eq (getCF_setCarries s c o) (getOF_setCarries s c o), ← hpf, ← haf, ← hzf, ← hsf]
  have hp := setCarries_other s c o (i := 2) (by omega) (by omega)
  have ha := setCarries_other s c o (i := 4) (by omega) (by omega)
  have hz := setCarries_other s c o (i := 6) (by omega) (by omega)
  have hs := setCarries_other s c o (i := 7) (by omega) (by omega)
  congr 2
  · exact if_congr (Bool.eq_iff_iff.mp hp.1) rfl hp.2
  · exact if_congr (Bool.eq_iff_iff.mp ha.1) rfl ha.2
  · exact if_congr (Bool.eq_iff_iff.mp hz.1) rfl hz.2
  · exact if_congr (Bool.eq_iff_iff.mp hs.1) rfl hs.2

theorem rotate_follows (he : s.shown = some e) {res : Word} (hr : res.setWidth w.bits = r)
    (hof : ∀ v, of = some v → o = v) :
    (Shifted.rotate e r c of).Follows (some (s.setCarries c o, res)) := by
  refine ⟨s.setCarries c o, res, _, rfl, ?_, shown_setCarries he c o, ?_⟩
  · intro v hv
    rw [hr]
    exact Option.some.inj hv
  · exact ⟨fun _ h => Option.some.inj h, fun _ h => Option.some.inj h,
      fun _ h => Option.some.inj h, fun _ h => Option.some.inj h,
      fun _ h => Option.some.inj h, hof⟩

theorem same_follows_setCarries (x : BitVec w.bits) (he : s.shown = some e) :
    (Shifted.same x e).Follows (some (s.setCarries c o, x.setWidth 32)) ↔
      e.cf = c ∧ e.of = o := by
  constructor
  · intro ⟨s', res, e', hout, _, hshow, hall⟩
    obtain ⟨rfl, rfl⟩ := Prod.mk.inj (Option.some.inj hout)
    rw [shown_setCarries he] at hshow
    obtain rfl := Option.some.inj hshow
    exact ⟨(hall.cf e.cf rfl).symm, (hall.of e.of rfl).symm⟩
  · intro ⟨hc, ho⟩
    refine ⟨s.setCarries c o, x.setWidth 32, e, rfl, ?_, ?_, ?_⟩
    · intro v hv
      rw [← Option.some.inj hv, BitVec.setWidth_setWidth_of_le _ w.bits_le, BitVec.setWidth_eq]
    · rw [shown_setCarries he, ← hc, ← ho]
    · exact ⟨fun _ h => Option.some.inj h, fun _ h => Option.some.inj h,
        fun _ h => Option.some.inj h, fun _ h => Option.some.inj h,
        fun _ h => Option.some.inj h, fun _ h => Option.some.inj h⟩

theorem byOne_allows {k : Nat} {b v : Bool} (h : k = 1 → o = b) (hv : byOne k b = some v) :
    o = v := by
  by_cases hk : k = 1
  · rw [byOne, if_pos hk] at hv
    rw [h hk]
    exact Option.some.inj hv
  · rw [byOne, if_neg hk] at hv
    cases hv

end Follows

section Shifts

variable {w : Width} {x y : BitVec w.bits} {b : Word} {s : LazyFlags} {e : FlagSet Bool}

theorem setWidth_shiftLeft (k : Nat) : (x.setWidth 32 <<< k).setWidth w.bits = x <<< k := by
  have hb := w.bits_le
  apply BitVec.eq_of_getLsbD_eq
  intro i hi
  rw [BitVec.getLsbD_setWidth, BitVec.getLsbD_shiftLeft, BitVec.getLsbD_shiftLeft,
    getLsbD_zeroExtend]
  have h32 : i < 32 := by omega
  simp [hi, h32]

theorem setWidth_ushiftRight (k : Nat) : (x.setWidth 32 >>> k).setWidth w.bits = x >>> k := by
  apply BitVec.eq_of_getLsbD_eq
  intro i hi
  rw [BitVec.getLsbD_setWidth, BitVec.getLsbD_ushiftRight, BitVec.getLsbD_ushiftRight,
    getLsbD_zeroExtend]
  simp [hi]

theorem getLsbD_shr_bit (k : Nat) :
    hasBit (x.setWidth 32 >>> k &&& 1) 1 = x.getLsbD k := by
  rw [hasBit_low, BitVec.getLsbD_ushiftRight, getLsbD_zeroExtend, Nat.add_zero]

section Getters

variable {s' : LazyFlags}

theorem masked_logic (hm : s'.cc.mask = LazyFlags.logicMask) :
    hasBit s'.cc.mask CF = true ∧ hasBit s'.cc.mask OF = true := by
  rw [hm]
  exact ⟨rfl, rfl⟩

theorem getCF_low (hop : s'.cc.op = .shl ∨ s'.cc.op = .shr ∨ s'.cc.op = .sar ∨ s'.cc.op = .shrd)
    (hm : s'.cc.mask = LazyFlags.logicMask) : s'.getCF = some (hasBit s'.cc.dst2 1) := by
  rw [LazyFlags.getCF, if_pos (masked_logic hm).1]
  rcases hop with h | h | h | h <;> rw [h]

theorem getCF_high (hop : s'.cc.op = .shld) (hm : s'.cc.mask = LazyFlags.logicMask) :
    s'.getCF = some (s'.cc.dst2 >>> 31 != 0) := by
  rw [LazyFlags.getCF, if_pos (masked_logic hm).1, hop]

theorem getOF_shl (hop : s'.cc.op = .shl) (hm : s'.cc.mask = LazyFlags.logicMask) :
    s'.getOF = some (s'.cc.dst.msb ^^ hasBit s'.cc.dst2 1) := by
  rw [LazyFlags.getOF, if_pos (masked_logic hm).2, hop]

theorem getOF_shr (hop : s'.cc.op = .shr) (hm : s'.cc.mask = LazyFlags.logicMask) :
    s'.getOF = some s'.cc.src1.msb := by
  rw [LazyFlags.getOF, if_pos (masked_logic hm).2, hop]

theorem getOF_sar (hop : s'.cc.op = .sar) (hm : s'.cc.mask = LazyFlags.logicMask) :
    s'.getOF = some false := by
  rw [LazyFlags.getOF, if_pos (masked_logic hm).2, hop]

theorem getOF_double (hop : s'.cc.op = .shld ∨ s'.cc.op = .shrd)
    (hm : s'.cc.mask = LazyFlags.logicMask) :
    s'.getOF = some (s'.cc.src1 ^^^ s'.cc.dst).msb := by
  rw [LazyFlags.getOF, if_pos (masked_logic hm).2]
  rcases hop with h | h <;> rw [h]

end Getters

theorem shl_right (he : s.shown = some e) :
    ShiftOp.shl.Right w x y b s e ↔ b.toNat % 32 ≤ w.bits := by
  unfold ShiftOp.Right
  have hy := amount_toNat b
  have hk : b.toNat % 32 < 32 := Nat.mod_lt _ (by omega)
  by_cases h0 : b.toNat % 32 = 0
  · have hz : ¬ (b &&& 0x1f) ≠ 0 := by rw [ne_zero_iff, hy]; omega
    rw [ShiftOp.eager, if_pos h0, ShiftOp.helper, LazyFlags.shlHelper, if_neg hz]
    exact iff_of_true (same_follows x he) (by omega)
  · have hnz : (b &&& 0x1f) ≠ 0 := by rw [ne_zero_iff, hy]; exact h0
    rw [ShiftOp.eager, if_neg h0, ShiftOp.helper, LazyFlags.shlHelper, if_pos hnz, hostShl_eq hy hk]
    by_cases hle : b.toNat % 32 ≤ w.bits
    · refine iff_of_true ?_ hle
      have hsub := w.bit_sub_toNat (y := b &&& 0x1f) (by rw [hy]; exact hle)
      have hbits := w.bits_le
      rw [hostShr_eq hsub (by omega), hy]
      generalize b.toNat % 32 = k at *
      have hcf := getLsbD_shr_bit (x := x) (w.bits - k)
      have hmsb : (sext w (x.setWidth 32 <<< k)).msb = (x <<< k).msb := by
        rw [sext_eq, setWidth_shiftLeft, msb_signExtend_of_le w.bits_le w.bits_pos]
      refine shift_follows (w := w) ?_ rfl (getCF_low (.inl rfl) rfl) (getOF_shl rfl rfl) ?_ ?_
      · exact congrArg (BitVec.signExtend 32) (setWidth_shiftLeft k)
      · intro v hv
        rw [hcf]
        split at hv
        · exact Option.some.inj hv
        · cases hv
      · intro v hv
        rw [hcf, hmsb]
        exact byOne_allows (fun _ => rfl) hv
    · refine iff_of_false ?_ hle
      rw [hostShr, if_neg (w.bit_sub_wrapped (by rw [hy]; omega) (by rw [hy]; exact hk))]
      exact not_follows_none _

theorem shr_right (he : s.shown = some e) : ShiftOp.shr.Right w x y b s e := by
  unfold ShiftOp.Right
  have hy := amount_toNat b
  have hk : b.toNat % 32 < 32 := Nat.mod_lt _ (by omega)
  by_cases h0 : b.toNat % 32 = 0
  · have hz : ¬ (b &&& 0x1f) ≠ 0 := by rw [ne_zero_iff, hy]; omega
    rw [ShiftOp.eager, if_pos h0, ShiftOp.helper, LazyFlags.shrHelper, if_neg hz]
    exact same_follows x he
  · have hnz : (b &&& 0x1f) ≠ 0 := by rw [ne_zero_iff, hy]; exact h0
    have hpred := pred_toNat (y := b &&& 0x1f) (by rw [hy]; exact h0)
    rw [ShiftOp.eager, if_neg h0, ShiftOp.helper, LazyFlags.shrHelper, if_pos hnz,
      hostShr_eq hy hk, hostShr_eq hpred (by omega), hy]
    generalize b.toNat % 32 = k at *
    have hcf := getLsbD_shr_bit (x := x) (k - 1)
    have hmsb : (sext w (x.setWidth 32)).msb = x.msb := by
      rw [sext_setWidth, msb_signExtend_of_le w.bits_le w.bits_pos]
    refine shift_follows (w := w) ?_ rfl (getCF_low (.inr (.inl rfl)) rfl) (getOF_shr rfl rfl) ?_ ?_
    · exact congrArg (BitVec.signExtend 32) (setWidth_ushiftRight k)
    · intro v hv
      rw [hcf]
      split at hv
      · exact Option.some.inj hv
      · cases hv
    · intro v hv
      rw [hmsb]
      exact byOne_allows (fun _ => rfl) hv

theorem sar_right (he : s.shown = some e) : ShiftOp.sar.Right w x y b s e := by
  unfold ShiftOp.Right
  have hy := amount_toNat b
  have hk : b.toNat % 32 < 32 := Nat.mod_lt _ (by omega)
  by_cases h0 : b.toNat % 32 = 0
  · have hz : ¬ (b &&& 0x1f) ≠ 0 := by rw [ne_zero_iff, hy]; omega
    rw [ShiftOp.eager, if_pos h0, ShiftOp.helper, LazyFlags.sarHelper, if_neg hz]
    exact same_follows x he
  · have hnz : (b &&& 0x1f) ≠ 0 := by rw [ne_zero_iff, hy]; exact h0
    have hpred := pred_toNat (y := b &&& 0x1f) (by rw [hy]; exact h0)
    rw [ShiftOp.eager, if_neg h0, ShiftOp.helper, LazyFlags.sarHelper, if_pos hnz,
      hostSar_eq hy hk, hostSar_eq hpred (by omega), hy, sext_setWidth]
    generalize b.toNat % 32 = k at *
    have hcf : hasBit ((x.signExtend 32).sshiftRight (k - 1) &&& 1) 1 =
        (x.sshiftRight (k - 1)).getLsbD 0 := by
      rw [hasBit_low, sshiftRight_signExtend, getLsbD_signExtend_low w.bits_le w.bits_pos]
    refine shift_follows (w := w) ?_ rfl (getCF_low (.inr (.inr (.inl rfl))) rfl)
      (getOF_sar rfl rfl) ?_ ?_
    · exact sshiftRight_signExtend x k
    · intro v hv
      rw [hcf]
      exact Option.some.inj hv
    · intro v hv
      exact byOne_allows (fun _ => rfl) hv

theorem getLsbD_double_left {k i : Nat} :
    (x.setWidth 32 <<< k ||| y.setWidth 32 >>> (w.bits - k)).getLsbD i =
      (decide (i < 32) && !decide (i < k) && x.getLsbD (i - k) || y.getLsbD (w.bits - k + i)) := by
  rw [BitVec.getLsbD_or, BitVec.getLsbD_shiftLeft, BitVec.getLsbD_ushiftRight,
    getLsbD_zeroExtend, getLsbD_zeroExtend]

theorem getLsbD_double_right {k i : Nat} :
    (x.setWidth 32 >>> k ||| y.setWidth 32 <<< (w.bits - k)).getLsbD i =
      (x.getLsbD (k + i) || decide (i < 32) && !decide (i < w.bits - k) &&
        y.getLsbD (i - (w.bits - k))) := by
  rw [BitVec.getLsbD_or, BitVec.getLsbD_shiftLeft, BitVec.getLsbD_ushiftRight,
    getLsbD_zeroExtend, getLsbD_zeroExtend]

theorem setWidth_double_left {k : Nat} (hk : k ≤ w.bits) :
    (x.setWidth 32 <<< k ||| y.setWidth 32 >>> (w.bits - k)).setWidth w.bits =
      ((x ++ y) <<< k >>> w.bits).setWidth w.bits := by
  have hb := w.bits_le
  apply BitVec.eq_of_getLsbD_eq
  intro i hi
  have h32 : i < 32 := by omega
  rw [BitVec.getLsbD_setWidth, BitVec.getLsbD_setWidth, getLsbD_double_left,
    BitVec.getLsbD_ushiftRight, BitVec.getLsbD_shiftLeft, BitVec.getLsbD_append]
  by_cases hik : i < k
  · have h1 : w.bits + i - k < w.bits := by omega
    have h2 : w.bits - k + i = w.bits + i - k := by omega
    have h3 : w.bits + i < w.bits + w.bits := by omega
    have h4 : ¬ w.bits + i < k := by omega
    simp [hi, h32, hik, h1, h2, h4]
  · have h1 : ¬ w.bits + i - k < w.bits := by omega
    have h2 : w.bits + i - k - w.bits = i - k := by omega
    have h4 : ¬ w.bits + i < k := by omega
    have h5 := BitVec.getLsbD_of_ge y (w.bits - k + i) (by omega)
    simp [hi, h32, hik, h1, h2, h4, h5]

theorem setWidth_double_right {k : Nat} (hk : k ≤ w.bits) :
    (x.setWidth 32 >>> k ||| y.setWidth 32 <<< (w.bits - k)).setWidth w.bits =
      ((y ++ x) >>> k).setWidth w.bits := by
  have hb := w.bits_le
  apply BitVec.eq_of_getLsbD_eq
  intro i hi
  have h32 : i < 32 := by omega
  rw [BitVec.getLsbD_setWidth, BitVec.getLsbD_setWidth, getLsbD_double_right,
    BitVec.getLsbD_ushiftRight, BitVec.getLsbD_append]
  by_cases hik : i < w.bits - k
  · have h1 : k + i < w.bits := by omega
    simp [hi, hik, h1]
  · have h1 : ¬ k + i < w.bits := by omega
    have h2 : k + i - w.bits = i - (w.bits - k) := by omega
    have h5 := BitVec.getLsbD_of_ge x (k + i) (by omega)
    simp [hi, h32, hik, h1, h2, h5]

theorem Width.bit_lt_iff (w : Width) (c : Word) : w.bit < c ↔ w.bits < c.toNat := by
  rw [BitVec.lt_def, w.bit_toNat]

theorem eq_one_iff (c : Word) : c = 1 ↔ c.toNat = 1 := by
  rw [← BitVec.toNat_inj]
  rfl

theorem double_amounts {c : Word} (h0 : c.toNat ≠ 0) (hle : c.toNat ≤ w.bits) (hk : c.toNat < 32)
    (z : Word) :
    hostShl z c = some (z <<< c.toNat) ∧
    hostShr z c = some (z >>> c.toNat) ∧
    hostShr z (w.bit - c) = some (z >>> (w.bits - c.toNat)) ∧
    hostShl z (w.bit - c) = some (z <<< (w.bits - c.toNat)) := by
  have hb := w.bits_le
  have hsub := w.bit_sub_toNat hle
  exact ⟨hostShl_eq rfl hk, hostShr_eq rfl hk, hostShr_eq hsub (by omega),
    hostShl_eq hsub (by omega)⟩

section Double

variable {a d : BitVec w.bits} {c : Word}

theorem shldHelper_run (hnz : b &&& 0x1f ≠ 0)
    (hswap : (if w.bit < b &&& 0x1f then (y.setWidth 32, x.setWidth 32, (b &&& 0x1f) - w.bit)
      else (x.setWidth 32, y.setWidth 32, b &&& 0x1f)) = (a.setWidth 32, d.setWidth 32, c))
    (h0 : c.toNat ≠ 0) (hle : c.toNat ≤ w.bits) (hk : c.toNat < 32) :
    ∃ s', s.shldHelper w (x.setWidth 32) (y.setWidth 32) b = some (s', s'.cc.dst) ∧
      s'.cc.dst = (((a ++ d) <<< c.toNat >>> w.bits).setWidth w.bits).signExtend 32 ∧
      s'.cc.op = .shld ∧ s'.cc.mask = LazyFlags.logicMask ∧ s'.cc.src1 = x.signExtend 32 ∧
      s'.cc.dst2.msb = a.getLsbD (w.bits - c.toNat) := by
  have hb := w.bits_le
  have hp := w.bits_pos
  have hpred := pred_toNat h0
  have hdst := congrArg (BitVec.signExtend 32) (setWidth_double_left (x := a) (y := d) hle)
  obtain ⟨hl, _, _, _⟩ := double_amounts (w := w) h0 hle hk (a.setWidth 32)
  obtain ⟨_, _, hr, _⟩ := double_amounts (w := w) h0 hle hk (d.setWidth 32)
  rw [LazyFlags.shldHelper, if_pos hnz]
  simp only [hswap, hl, hr, Option.bind_eq_bind, Option.bind_some]
  by_cases h1 : c = 1
  · have hc : c.toNat = 1 := (eq_one_iff c).mp h1
    rw [if_pos h1]
    refine ⟨_, rfl, hdst, rfl, rfl, sext_setWidth w x, ?_⟩
    rw [hc]
    exact (msb_sext _).trans (getLsbD_zeroExtend a _)
  · have hne : c.toNat ≠ 1 := fun h => h1 ((eq_one_iff c).mpr h)
    obtain ⟨hl', _, _, _⟩ := double_amounts (w := w) (c := c - 1) (by omega) (by omega) (by omega)
      (a.setWidth 32)
    obtain ⟨_, _, hr', _⟩ := double_amounts (w := w) (c := c - 1) (by omega) (by omega) (by omega)
      (d.setWidth 32)
    rw [if_neg h1, hl', hr', hpred]
    refine ⟨_, rfl, hdst, rfl, rfl, sext_setWidth w x, ?_⟩
    refine (msb_sext _).trans ?_
    have h32 : w.bits - 1 < 32 := by omega
    have hlt : ¬ w.bits - 1 < c.toNat - 1 := by omega
    have hsub : w.bits - 1 - (c.toNat - 1) = w.bits - c.toNat := by omega
    have hd := BitVec.getLsbD_of_ge d (w.bits - (c.toNat - 1) + (w.bits - 1)) (by omega)
    rw [getLsbD_double_left, hsub, hd]
    simp [h32, hlt]

theorem shrdHelper_run (hnz : b &&& 0x1f ≠ 0)
    (hswap : (if w.bit < b &&& 0x1f then (y.setWidth 32, x.setWidth 32, (b &&& 0x1f) - w.bit)
      else (x.setWidth 32, y.setWidth 32, b &&& 0x1f)) = (a.setWidth 32, d.setWidth 32, c))
    (h0 : c.toNat ≠ 0) (hle : c.toNat ≤ w.bits) (hk : c.toNat < 32) :
    ∃ s', s.shrdHelper w (x.setWidth 32) (y.setWidth 32) b = some (s', s'.cc.dst) ∧
      s'.cc.dst = (((d ++ a) >>> c.toNat).setWidth w.bits).signExtend 32 ∧
      s'.cc.op = .shrd ∧ s'.cc.mask = LazyFlags.logicMask ∧ s'.cc.src1 = a.signExtend 32 ∧
      hasBit s'.cc.dst2 1 = a.getLsbD (c.toNat - 1) := by
  have hb := w.bits_le
  have hp := w.bits_pos
  have hpred := pred_toNat h0
  have hdst := congrArg (BitVec.signExtend 32) (setWidth_double_right (x := a) (y := d) hle)
  obtain ⟨_, hr, _, _⟩ := double_amounts (w := w) h0 hle hk (a.setWidth 32)
  obtain ⟨_, _, _, hl⟩ := double_amounts (w := w) h0 hle hk (d.setWidth 32)
  rw [LazyFlags.shrdHelper, if_pos hnz]
  simp only [hswap, hl, hr, Option.bind_eq_bind, Option.bind_some]
  by_cases h1 : c = 1
  · have hc : c.toNat = 1 := (eq_one_iff c).mp h1
    rw [if_pos h1]
    refine ⟨_, rfl, hdst, rfl, rfl, sext_setWidth w a, ?_⟩
    rw [hc, hasBit_one]
    exact (getLsbD_sext hp).trans (getLsbD_zeroExtend a 0)
  · have hne : c.toNat ≠ 1 := fun h => h1 ((eq_one_iff c).mpr h)
    obtain ⟨_, hr', _, _⟩ := double_amounts (w := w) (c := c - 1) (by omega) (by omega) (by omega)
      (a.setWidth 32)
    obtain ⟨_, _, _, hl'⟩ := double_amounts (w := w) (c := c - 1) (by omega) (by omega) (by omega)
      (d.setWidth 32)
    rw [if_neg h1, hl', hr', hpred]
    refine ⟨_, rfl, hdst, rfl, rfl, sext_setWidth w a, ?_⟩
    have hlt : 0 < w.bits - (c.toNat - 1) := by omega
    rw [hasBit_one]
    refine (getLsbD_sext hp).trans ?_
    rw [getLsbD_double_right]
    simp [hlt]

end Double

theorem exchanged_count (hw : w ≠ .b8) (hlt : w.bits < b.toNat % 32) :
    ((b &&& 0x1f) - w.bit).toNat ≠ 0 ∧ ((b &&& 0x1f) - w.bit).toNat ≤ w.bits ∧
      ((b &&& 0x1f) - w.bit).toNat < 32 := by
  have hy := amount_toNat b
  have hle : w.bit ≤ b &&& 0x1f := by rw [BitVec.le_def, w.bit_toNat, hy]; omega
  rw [BitVec.toNat_sub_of_le hle, w.bit_toNat, hy]
  cases w with
  | b8 => exact absurd rfl hw
  | b16 => simp only [Width.bits] at *; omega
  | b32 => simp only [Width.bits] at *; omega

theorem shift31_ne_zero (z : Word) : (z >>> 31 != 0) = z.msb := by
  rw [Bool.eq_iff_iff, bne_iff_ne, ne_eq, ← BitVec.toNat_inj, BitVec.msb_eq_decide]
  simp [Nat.shiftRight_eq_div_pow]

theorem shld_right (hw : w ≠ .b8) (he : s.shown = some e) :
    ShiftOp.shld.Right w x y b s e := by
  unfold ShiftOp.Right
  have hy := amount_toNat b
  have hk : b.toNat % 32 < 32 := Nat.mod_lt _ (by omega)
  by_cases h0 : b.toNat % 32 = 0
  · have hz : ¬ (b &&& 0x1f) ≠ 0 := by rw [ne_zero_iff, hy]; omega
    rw [ShiftOp.eager, if_pos h0, ShiftOp.helper, LazyFlags.shldHelper, if_neg hz]
    exact same_follows x he
  have hnz : (b &&& 0x1f) ≠ 0 := by rw [ne_zero_iff, hy]; exact h0
  rw [ShiftOp.eager, if_neg h0, ShiftOp.helper, ShiftOp.shifted]
  by_cases hle : b.toNat % 32 ≤ w.bits
  · have hlt : ¬ w.bit < b &&& 0x1f := by rw [w.bit_lt_iff, hy]; omega
    obtain ⟨s', hs', hd, hop, hm, h1, h2⟩ := shldHelper_run (s := s) hnz (if_neg hlt) (by omega)
      (by omega) (by omega)
    have hof : (s'.cc.src1 ^^^ s'.cc.dst).msb =
        (x.msb ^^ (((x ++ y) <<< (b.toNat % 32) >>> w.bits).setWidth w.bits).msb) := by
      rw [BitVec.msb_xor, h1, hd, hy, msb_signExtend_of_le w.bits_le w.bits_pos,
        msb_signExtend_of_le w.bits_le w.bits_pos]
    rw [if_pos hle, hs']
    rw [hy] at hd
    refine shift_follows hd hm (getCF_high hop hm) (getOF_double (.inl hop) hm) ?_ ?_
    · intro v hv
      rw [shift31_ne_zero, h2, hy]
      exact Option.some.inj hv
    · intro v hv
      exact byOne_allows (fun _ => hof) hv
  · have hlt : w.bit < b &&& 0x1f := by rw [w.bit_lt_iff, hy]; omega
    obtain ⟨hc0, hcle, hc32⟩ := exchanged_count (b := b) hw (by omega)
    obtain ⟨s', hs', _, hop, hm, _, _⟩ := shldHelper_run (s := s) hnz (if_pos hlt) hc0 hcle hc32
    rw [if_neg hle, hs']
    exact undefined_follows (getCF_high hop hm) (getOF_double (.inl hop) hm) _

theorem shrd_right (hw : w ≠ .b8) (he : s.shown = some e) :
    ShiftOp.shrd.Right w x y b s e := by
  unfold ShiftOp.Right
  have hy := amount_toNat b
  have hk : b.toNat % 32 < 32 := Nat.mod_lt _ (by omega)
  by_cases h0 : b.toNat % 32 = 0
  · have hz : ¬ (b &&& 0x1f) ≠ 0 := by rw [ne_zero_iff, hy]; omega
    rw [ShiftOp.eager, if_pos h0, ShiftOp.helper, LazyFlags.shrdHelper, if_neg hz]
    exact same_follows x he
  have hnz : (b &&& 0x1f) ≠ 0 := by rw [ne_zero_iff, hy]; exact h0
  rw [ShiftOp.eager, if_neg h0, ShiftOp.helper, ShiftOp.shifted]
  by_cases hle : b.toNat % 32 ≤ w.bits
  · have hlt : ¬ w.bit < b &&& 0x1f := by rw [w.bit_lt_iff, hy]; omega
    obtain ⟨s', hs', hd, hop, hm, h1, h2⟩ := shrdHelper_run (s := s) hnz (if_neg hlt) (by omega)
      (by omega) (by omega)
    have hof : (s'.cc.src1 ^^^ s'.cc.dst).msb =
        (x.msb ^^ (((y ++ x) >>> (b.toNat % 32)).setWidth w.bits).msb) := by
      rw [BitVec.msb_xor, h1, hd, hy, msb_signExtend_of_le w.bits_le w.bits_pos,
        msb_signExtend_of_le w.bits_le w.bits_pos]
    rw [if_pos hle, hs']
    rw [hy] at hd
    refine shift_follows hd hm (getCF_low (.inr (.inr (.inr hop))) hm)
      (getOF_double (.inr hop) hm) ?_ ?_
    · intro v hv
      rw [h2, hy]
      exact Option.some.inj hv
    · intro v hv
      exact byOne_allows (fun _ => hof) hv
  · have hlt : w.bit < b &&& 0x1f := by rw [w.bit_lt_iff, hy]; omega
    obtain ⟨hc0, hcle, hc32⟩ := exchanged_count (b := b) hw (by omega)
    obtain ⟨s', hs', _, hop, hm, _, _⟩ := shrdHelper_run (s := s) hnz (if_pos hlt) hc0 hcle hc32
    rw [if_neg hle, hs']
    exact undefined_follows (getCF_low (.inr (.inr (.inr hop))) hm) (getOF_double (.inr hop) hm) _

theorem rotateLeft_of_mod {n k : Nat} (x : BitVec n) (h : k % n = 0) : x.rotateLeft k = x := by
  apply BitVec.eq_of_getLsbD_eq
  intro i hi
  rw [BitVec.getLsbD_rotateLeft, h]
  simp [hi]

theorem rotateRight_of_mod {n k : Nat} (x : BitVec n) (h : k % n = 0) :
    x.rotateRight k = x := by
  apply BitVec.eq_of_getLsbD_eq
  intro i hi
  rw [BitVec.getLsbD_rotateRight, h]
  simp [hi]

theorem setWidth_rotateLeft (k : Nat) :
    (x.setWidth 32 <<< (k % w.bits) ||| x.setWidth 32 >>> (w.bits - k % w.bits)).setWidth w.bits =
      x.rotateLeft k := by
  rw [BitVec.setWidth_or, setWidth_shiftLeft, setWidth_ushiftRight, BitVec.rotateLeft_def]

theorem setWidth_rotateRight (k : Nat) :
    (x.setWidth 32 >>> (k % w.bits) ||| x.setWidth 32 <<< (w.bits - k % w.bits)).setWidth w.bits =
      x.rotateRight k := by
  rw [BitVec.setWidth_or, setWidth_shiftLeft, setWidth_ushiftRight, BitVec.rotateRight_def]

section Carries

variable {res : Word} {r : BitVec w.bits}

theorem getLsbD_of_setWidth (hr : res.setWidth w.bits = r) {i : Nat} (hi : i < w.bits) :
    res.getLsbD i = r.getLsbD i := by
  rw [← hr, BitVec.getLsbD_setWidth]
  simp [hi]

theorem low_carry (hr : res.setWidth w.bits = r) : hasBit res 1 = r.getLsbD 0 := by
  rw [hasBit_one, getLsbD_of_setWidth hr w.bits_pos]

theorem high_carry (hr : res.setWidth w.bits = r) :
    hasBit (res >>> (w.bits - 1)) 1 = r.msb := by
  have hp := w.bits_pos
  rw [hasBit_one, BitVec.getLsbD_ushiftRight, Nat.add_zero, getLsbD_of_setWidth hr (by omega),
    BitVec.msb_eq_getLsbD_last]

theorem high_overflow (hr : res.setWidth w.bits = r) :
    hasBit ((res ^^^ res <<< 1) >>> (w.bits - 1)) 1 = (r.msb ^^ r.getLsbD (w.bits - 2)) := by
  have h8 := w.eight_le_bits
  have h32 : w.bits - 1 < 32 := by have := w.bits_le; omega
  have hne : ¬ w.bits - 1 < 1 := by omega
  have hsub : w.bits - 1 - 1 = w.bits - 2 := by omega
  rw [hasBit_one, BitVec.getLsbD_ushiftRight, Nat.add_zero, BitVec.getLsbD_xor,
    BitVec.getLsbD_shiftLeft, hsub, getLsbD_of_setWidth hr (by omega),
    getLsbD_of_setWidth hr (by omega), BitVec.msb_eq_getLsbD_last]
  simp [h32, hne]

end Carries

theorem setWidth_zeroExtend (x : BitVec w.bits) : (x.setWidth 32).setWidth w.bits = x := by
  rw [BitVec.setWidth_setWidth_of_le _ w.bits_le, BitVec.setWidth_eq]

theorem rolHelper_run : ∃ res : Word, s.rolHelper w (x.setWidth 32) b =
      some (if b ≠ 0 then (s.setCarries (hasBit res 1) (res.msb ^^ hasBit res 1), res)
        else (s, res)) ∧
    res.setWidth w.bits = x.rotateLeft (b.toNat % 32) ∧
    (b.toNat % w.bits = 0 → res = x.setWidth 32) ∧
    (b.toNat % w.bits ≠ 0 → res.msb = (x.rotateLeft (b.toNat % 32)).msb) := by
  have hy := w.bit_mask_toNat b
  have hb := w.bits_le
  have hlt : b.toNat % w.bits < w.bits := Nat.mod_lt _ w.bits_pos
  have hrot := setWidth_rotateLeft (x := x) (b.toNat % 32)
  rw [w.mod_bits] at hrot
  rw [LazyFlags.rolHelper]
  by_cases hk : b.toNat % w.bits = 0
  · have hz : ¬ (b &&& (w.bit - 1)) ≠ 0 := by rw [ne_zero_iff, hy]; omega
    refine ⟨x.setWidth 32, ?_, ?_, fun _ => rfl, fun h => absurd hk h⟩
    · simp only [if_neg hz, Option.bind_eq_bind, Option.bind_some]
      split <;> rfl
    · rw [setWidth_zeroExtend, rotateLeft_of_mod x ((w.mod_bits b.toNat).trans hk)]
  · have hnz : (b &&& (w.bit - 1)) ≠ 0 := by rw [ne_zero_iff, hy]; exact hk
    have hsub := w.bit_sub_toNat (y := b &&& (w.bit - 1)) (by omega)
    rw [hy] at hsub
    refine ⟨_, ?_, (setWidth_sext _).trans hrot, fun h => absurd h hk, ?_⟩
    · simp only [if_pos hnz, hostShl_eq hy (by omega), hostShr_eq hsub (by omega),
        Option.bind_eq_bind, Option.bind_some]
      split <;> rfl
    · intro _
      rw [sext_eq, hrot, msb_signExtend_of_le hb w.bits_pos]

theorem rorHelper_run : ∃ res : Word, s.rorHelper w (x.setWidth 32) b =
      some (if b ≠ 0 then (s.setCarries (hasBit (res >>> (w.bits - 1)) 1)
        (hasBit ((res ^^^ res <<< 1) >>> (w.bits - 1)) 1), res) else (s, res)) ∧
    res.setWidth w.bits = x.rotateRight (b.toNat % 32) ∧
    (b.toNat % w.bits = 0 → res = x.setWidth 32) := by
  have hy := w.bit_mask_toNat b
  have hb := w.bits_le
  have hlt : b.toNat % w.bits < w.bits := Nat.mod_lt _ w.bits_pos
  have hrot := setWidth_rotateRight (x := x) (b.toNat % 32)
  rw [w.mod_bits] at hrot
  rw [LazyFlags.rorHelper]
  by_cases hk : b.toNat % w.bits = 0
  · have hz : ¬ (b &&& (w.bit - 1)) ≠ 0 := by rw [ne_zero_iff, hy]; omega
    refine ⟨x.setWidth 32, ?_, ?_, fun _ => rfl⟩
    · simp only [if_neg hz, Option.bind_eq_bind, Option.bind_some]
      split <;> rfl
    · rw [setWidth_zeroExtend, rotateRight_of_mod x ((w.mod_bits b.toNat).trans hk)]
  · have hnz : (b &&& (w.bit - 1)) ≠ 0 := by rw [ne_zero_iff, hy]; exact hk
    have hsub := w.bit_sub_toNat (y := b &&& (w.bit - 1)) (by omega)
    rw [hy] at hsub
    refine ⟨_, ?_, (setWidth_sext _).trans hrot, fun h => absurd h hk⟩
    simp only [if_pos hnz, hostShr_eq hy (by omega), hostShl_eq hsub (by omega),
      Option.bind_eq_bind, Option.bind_some]
    split <;> rfl

/-- A count that is zero when masked is a multiple of the width. -/
theorem Width.mod_bits_of_masked (w : Width) {k : Nat} (h : k % 32 = 0) : k % w.bits = 0 := by
  rw [← w.mod_bits, h, Nat.zero_mod]

theorem rol_right (he : s.shown = some e) :
    ShiftOp.rol.Right w x y b s e ↔ (b.toNat % 32 = 0 → b ≠ 0 →
      e.cf = x.getLsbD 0 ∧ e.of = ((x.setWidth 32).msb ^^ x.getLsbD 0)) := by
  unfold ShiftOp.Right
  obtain ⟨res, hrun, hrot, hsame, hmsb⟩ := rolHelper_run (x := x) (b := b) (s := s)
  rw [ShiftOp.helper, hrun]
  by_cases h0 : b.toNat % 32 = 0
  · rw [ShiftOp.eager, if_pos h0, hsame (w.mod_bits_of_masked h0)]
    by_cases hb0 : b = 0
    · have hn : ¬ b ≠ 0 := fun h => h hb0
      rw [if_neg hn]
      exact iff_of_true (same_follows x he) (fun _ h => absurd hb0 h)
    · rw [if_pos hb0]
      refine (same_follows_setCarries x he).trans ?_
      rw [low_carry (setWidth_zeroExtend x)]
      exact ⟨fun h _ _ => h, fun h => h h0 hb0⟩
  · have hb0 : b ≠ 0 := by
      intro h
      rw [h] at h0
      exact h0 rfl
    refine iff_of_true ?_ (fun h => absurd h h0)
    rw [ShiftOp.eager, if_neg h0, if_pos hb0, low_carry hrot]
    refine rotate_follows he hrot ?_
    intro v hv
    refine byOne_allows ?_ hv
    intro h1
    have h8 := w.eight_le_bits
    have hne : b.toNat % w.bits ≠ 0 := by
      rw [← w.mod_bits, h1, Nat.mod_eq_of_lt (by omega)]
      omega
    rw [hmsb hne]

theorem ror_right (he : s.shown = some e) :
    ShiftOp.ror.Right w x y b s e ↔ (b.toNat % 32 = 0 → b ≠ 0 →
      e.cf = x.msb ∧ e.of = (x.msb ^^ x.getLsbD (w.bits - 2))) := by
  unfold ShiftOp.Right
  obtain ⟨res, hrun, hrot, hsame⟩ := rorHelper_run (x := x) (b := b) (s := s)
  rw [ShiftOp.helper, hrun]
  by_cases h0 : b.toNat % 32 = 0
  · rw [ShiftOp.eager, if_pos h0, hsame (w.mod_bits_of_masked h0)]
    by_cases hb0 : b = 0
    · have hn : ¬ b ≠ 0 := fun h => h hb0
      rw [if_neg hn]
      exact iff_of_true (same_follows x he) (fun _ h => absurd hb0 h)
    · rw [if_pos hb0]
      refine (same_follows_setCarries x he).trans ?_
      rw [high_carry (setWidth_zeroExtend x), high_overflow (setWidth_zeroExtend x)]
      exact ⟨fun h _ _ => h, fun h => h h0 hb0⟩
  · have hb0 : b ≠ 0 := by
      intro h
      rw [h] at h0
      exact h0 rfl
    refine iff_of_true ?_ (fun h => absurd h h0)
    rw [ShiftOp.eager, if_neg h0, if_pos hb0, high_carry hrot, high_overflow hrot]
    refine rotate_follows he hrot ?_
    intro v hv
    exact byOne_allows (fun _ => rfl) hv

section Carried

variable {c : Bool} {m : Nat}

theorem hostCarry (c : Bool) (i : Nat) (k : Nat) :
    ((if c then 1 else 0 : Word) <<< k).getLsbD i = (c && decide (i = k) && decide (i < 32)) := by
  rw [BitVec.getLsbD_shiftLeft]
  cases c
  · simp
  · by_cases hi : i < 32
    · by_cases hk : i < k
      · have hne : i ≠ k := by omega
        simp [hk, hne]
      · rcases Nat.eq_or_lt_of_le (Nat.le_of_not_lt hk) with h | h
        · subst h
          simp [hi]
        · have hne : i ≠ k := by omega
          have hsub : i - k ≠ 0 := by omega
          simp [hi, hk, hne, hsub]
    · simp [hi]

theorem rotateLeft_carried (hm : 0 < m) (hle : m ≤ w.bits) :
    (x.setWidth 32 <<< m ||| (if c then 1 else 0 : Word) <<< (m - 1) |||
        (if m = 1 then 0 else x.setWidth 32 >>> (w.bits + 1 - m))).setWidth w.bits =
      ((BitVec.cons c x).rotateLeft m).setWidth w.bits ∧
    ((BitVec.cons c x).rotateLeft m).msb = x.getLsbD (w.bits - m) := by
  have hb := w.bits_le
  have hmod : m % (w.bits + 1) = m := Nat.mod_eq_of_lt (by omega)
  constructor
  · apply BitVec.eq_of_getLsbD_eq
    intro i hi
    have h32 : i < 32 := by omega
    have hright : (if m = 1 then 0 else x.setWidth 32 >>> (w.bits + 1 - m)).getLsbD i =
        x.getLsbD (w.bits + 1 - m + i) := by
      by_cases h1 : m = 1
      · rw [if_pos h1, BitVec.getLsbD_of_ge x _ (by omega)]
        exact BitVec.getLsbD_zero
      · rw [if_neg h1, BitVec.getLsbD_ushiftRight, getLsbD_zeroExtend]
    rw [BitVec.getLsbD_setWidth, BitVec.getLsbD_setWidth, BitVec.getLsbD_or, BitVec.getLsbD_or,
      BitVec.getLsbD_shiftLeft, hostCarry, hright, getLsbD_zeroExtend,
      BitVec.getLsbD_rotateLeft, hmod, BitVec.getLsbD_cons, BitVec.getLsbD_cons]
    by_cases hlt : i < m
    · by_cases heq : i = m - 1
      · have h1 : w.bits + 1 - m + i = w.bits := by omega
        rw [h1]
        simp [hi, h32, hlt, ← heq]
      · have h1 : ¬ w.bits + 1 - m + i = w.bits := by omega
        simp [hi, h32, hlt, h1, heq]
    · have h1 : ¬ i - m = w.bits := by omega
      have h2 : ¬ i = m - 1 := by omega
      have h3 : i < w.bits + 1 := by omega
      have hx := BitVec.getLsbD_of_ge x (w.bits + 1 - m + i) (by omega)
      simp [hi, h32, hlt, h1, h2, h3, hx]
  · have h1 : ¬ w.bits < m := by omega
    have h2 : ¬ w.bits - m = w.bits := by omega
    rw [BitVec.msb_eq_getLsbD_last, Nat.add_sub_cancel, BitVec.getLsbD_rotateLeft, hmod,
      BitVec.getLsbD_cons, BitVec.getLsbD_cons]
    simp [h1, h2]

theorem rotateRight_carried (hm : 0 < m) (hle : m ≤ w.bits) :
    (x.setWidth 32 >>> m ||| (if c then 1 else 0 : Word) <<< (w.bits - m) |||
        (if m = 1 then 0 else x.setWidth 32 <<< (w.bits + 1 - m))).setWidth w.bits =
      ((BitVec.cons c x).rotateRight m).setWidth w.bits ∧
    ((BitVec.cons c x).rotateRight m).msb = x.getLsbD (m - 1) := by
  have hb := w.bits_le
  have hmod : m % (w.bits + 1) = m := Nat.mod_eq_of_lt (by omega)
  constructor
  · apply BitVec.eq_of_getLsbD_eq
    intro i hi
    have h32 : i < 32 := by omega
    have hleft : (if m = 1 then 0 else x.setWidth 32 <<< (w.bits + 1 - m)).getLsbD i =
        (!decide (i < w.bits + 1 - m) && x.getLsbD (i - (w.bits + 1 - m))) := by
      by_cases h1 : m = 1
      · have hlt : i < w.bits + 1 - m := by omega
        rw [if_pos h1]
        simp [hlt]
      · rw [if_neg h1, BitVec.getLsbD_shiftLeft, getLsbD_zeroExtend]
        simp [h32]
    rw [BitVec.getLsbD_setWidth, BitVec.getLsbD_setWidth, BitVec.getLsbD_or, BitVec.getLsbD_or,
      BitVec.getLsbD_ushiftRight, hostCarry, hleft, getLsbD_zeroExtend,
      BitVec.getLsbD_rotateRight, hmod, BitVec.getLsbD_cons, BitVec.getLsbD_cons]
    by_cases hlt : i < w.bits + 1 - m
    · by_cases heq : i = w.bits - m
      · have h1 : m + i = w.bits := by omega
        rw [h1]
        simp [hi, h32, hlt, ← heq]
      · have h1 : ¬ m + i = w.bits := by omega
        simp [hi, hlt, h1, heq]
    · have h1 : ¬ i - (w.bits + 1 - m) = w.bits := by omega
      have h2 : ¬ i = w.bits - m := by omega
      have h3 : i < w.bits + 1 := by omega
      have hx := BitVec.getLsbD_of_ge x (m + i) (by omega)
      simp [hi, hlt, h1, h2, h3, hx]
  · have h1 : ¬ w.bits < w.bits + 1 - m := by omega
    have h2 : w.bits - (w.bits + 1 - m) = m - 1 := by omega
    have h3 : ¬ m - 1 = w.bits := by omega
    rw [BitVec.msb_eq_getLsbD_last, Nat.add_sub_cancel, BitVec.getLsbD_rotateRight, hmod, h2,
      BitVec.getLsbD_cons, BitVec.getLsbD_cons]
    simp [h1, h3]

end Carried

theorem setWidth_cons (c : Bool) (x : BitVec w.bits) :
    (BitVec.cons c x).setWidth w.bits = x := by
  apply BitVec.eq_of_getLsbD_eq
  intro i hi
  have hne : ¬ i = w.bits := by omega
  rw [BitVec.getLsbD_setWidth, BitVec.getLsbD_cons]
  simp [hi, hne]

/-- A rotate by a multiple of the width and the carry changes nothing. -/
theorem unrotated_follows (he : s.shown = some e) {r : BitVec (w.bits + 1)} {k : Nat}
    (hr : r = BitVec.cons e.cf x) (hmod : k % (w.bits + 1) = 0) (o : Bool) :
    (Shifted.rotate e (r.setWidth w.bits) r.msb (byOne k o)).Follows
      (some (s, x.setWidth 32)) := by
  have h8 := w.eight_le_bits
  have hk1 : k ≠ 1 := by
    intro h1
    rw [h1, Nat.mod_eq_of_lt (by omega)] at hmod
    omega
  have hmsb : r.msb = e.cf := by
    rw [hr, BitVec.msb_eq_getLsbD_last, Nat.add_sub_cancel, BitVec.getLsbD_cons, if_pos rfl]
  refine ⟨s, x.setWidth 32, e, rfl, ?_, he, ?_⟩
  · intro v hv
    rw [setWidth_zeroExtend, ← Option.some.inj hv, hr, setWidth_cons]
  · refine ⟨?_, fun _ h => Option.some.inj h, fun _ h => Option.some.inj h,
      fun _ h => Option.some.inj h, fun _ h => Option.some.inj h, ?_⟩
    · intro v hv
      rw [← Option.some.inj hv, hmsb]
    · intro v hv
      exact byOne_allows (fun h => absurd h hk1) hv

theorem carried_amount (w : Width) (b : Word) :
    ((b &&& 0x1f) % (w.bit + 1)).toNat = b.toNat % 32 % (w.bits + 1) ∧
      b.toNat % 32 % (w.bits + 1) ≤ w.bits ∧ b.toNat % 32 % (w.bits + 1) < 32 := by
  have hlt : b.toNat % 32 % (w.bits + 1) < w.bits + 1 := Nat.mod_lt _ (by omega)
  have hle : b.toNat % 32 % (w.bits + 1) ≤ b.toNat % 32 := Nat.mod_le _ _
  refine ⟨?_, by omega, by omega⟩
  rw [w.bit_mod_toNat, amount_toNat]

theorem rclHelper_run {m : Nat} (hm : b.toNat % 32 % (w.bits + 1) = m) (h0 : m ≠ 0)
    (hc : s.getCF = some e.cf) : ∃ res : Word, s.rclHelper w (x.setWidth 32) b =
      some (s.setCarries (x.getLsbD (w.bits - m)) (res.msb ^^ x.getLsbD (w.bits - m)), res) ∧
    res.setWidth w.bits = ((BitVec.cons e.cf x).rotateLeft m).setWidth w.bits ∧
    res.msb = (((BitVec.cons e.cf x).rotateLeft m).setWidth w.bits).msb := by
  obtain ⟨hy, hle, hlt⟩ := carried_amount w b
  rw [hm] at hy hle hlt
  have hb := w.bits_le
  have hnz : (b &&& 0x1f) % (w.bit + 1) ≠ 0 := by rw [ne_zero_iff, hy]; exact h0
  have hpred := pred_toNat (y := (b &&& 0x1f) % (w.bit + 1)) (by omega)
  have hsub := w.bit_sub_toNat (y := (b &&& 0x1f) % (w.bit + 1)) (by omega)
  have hsucc := w.bit_succ_sub_toNat (y := (b &&& 0x1f) % (w.bit + 1)) (by omega)
  obtain ⟨hrot, _⟩ := rotateLeft_carried (x := x) (c := e.cf) (m := m) (by omega) hle
  have hcf : hasBit (x.setWidth 32 >>> (w.bits - m)) 1 = x.getLsbD (w.bits - m) := by
    rw [hasBit_one, BitVec.getLsbD_ushiftRight, getLsbD_zeroExtend, Nat.add_zero]
  rw [hy] at hpred hsub hsucc
  refine ⟨sext w (x.setWidth 32 <<< m ||| (if e.cf then 1 else 0 : Word) <<< (m - 1) |||
    (if m = 1 then 0 else x.setWidth 32 >>> (w.bits + 1 - m))), ?_, ?_, ?_⟩
  · rw [LazyFlags.rclHelper, if_pos hnz, ← hcf]
    by_cases h1 : m = 1
    · have hone : ¬ (b &&& 0x1f) % (w.bit + 1) ≠ 1 := by rw [ne_eq, eq_one_iff, hy]; omega
      simp only [hc, hostShl_eq hy hlt, hostShl_eq hpred (by omega), hostShr_eq hsub (by omega),
        if_neg hone, if_pos h1, Option.bind_eq_bind, Option.bind_some]
      rfl
    · have hne : (b &&& 0x1f) % (w.bit + 1) ≠ 1 := by rw [ne_eq, eq_one_iff, hy]; exact h1
      simp only [hc, hostShl_eq hy hlt, hostShl_eq hpred (by omega), hostShr_eq hsub (by omega),
        hostShr_eq hsucc (by omega), if_pos hne, if_neg h1, Option.bind_eq_bind, Option.bind_some]
      rfl
  · rw [setWidth_sext, hrot]
  · rw [sext_eq, hrot, msb_signExtend_of_le hb w.bits_pos]

theorem rcrHelper_run {m : Nat} (hm : b.toNat % 32 % (w.bits + 1) = m) (h0 : m ≠ 0)
    (hc : s.getCF = some e.cf) : ∃ res : Word, s.rcrHelper w (x.setWidth 32) b =
      some (s.setCarries (x.getLsbD (m - 1))
        (hasBit ((res ^^^ res <<< 1) >>> (w.bits - 1)) 1), res) ∧
    res.setWidth w.bits = ((BitVec.cons e.cf x).rotateRight m).setWidth w.bits := by
  obtain ⟨hy, hle, hlt⟩ := carried_amount w b
  rw [hm] at hy hle hlt
  have hb := w.bits_le
  have hnz : (b &&& 0x1f) % (w.bit + 1) ≠ 0 := by rw [ne_zero_iff, hy]; exact h0
  have hsub := w.bit_sub_toNat (y := (b &&& 0x1f) % (w.bit + 1)) (by omega)
  have hsucc := w.bit_succ_sub_toNat (y := (b &&& 0x1f) % (w.bit + 1)) (by omega)
  obtain ⟨hrot, _⟩ := rotateRight_carried (x := x) (c := e.cf) (m := m) (by omega) hle
  have hcf : hasBit (sext w (x.setWidth 32 <<< (w.bits - m)) >>> (w.bits - 1)) 1 =
      x.getLsbD (m - 1) := by
    have h1 : w.bits - 1 - (w.bits - m) = m - 1 := by omega
    have h2 : ¬ w.bits - 1 < w.bits - m := by omega
    have h3 : w.bits - 1 < 32 := by omega
    rw [high_carry (setWidth_sext _), BitVec.msb_eq_getLsbD_last, BitVec.getLsbD_setWidth,
      BitVec.getLsbD_shiftLeft, getLsbD_zeroExtend, h1]
    simp [h2, h3, w.bits_pos]
  rw [hy] at hsub hsucc
  refine ⟨sext w (x.setWidth 32 >>> m ||| (if e.cf then 1 else 0 : Word) <<< (w.bits - m) |||
    (if m = 1 then 0 else x.setWidth 32 <<< (w.bits + 1 - m))), ?_, ?_⟩
  · rw [LazyFlags.rcrHelper, if_pos hnz, ← hcf]
    by_cases h1 : m = 1
    · have hone : ¬ (b &&& 0x1f) % (w.bit + 1) ≠ 1 := by rw [ne_eq, eq_one_iff, hy]; omega
      simp only [hc, hostShr_eq hy hlt, hostShl_eq hsub (by omega), if_neg hone, if_pos h1,
        Option.bind_eq_bind, Option.bind_some]
      rfl
    · have hne : (b &&& 0x1f) % (w.bit + 1) ≠ 1 := by rw [ne_eq, eq_one_iff, hy]; exact h1
      simp only [hc, hostShr_eq hy hlt, hostShl_eq hsub (by omega), hostShl_eq hsucc (by omega),
        if_pos hne, if_neg h1, Option.bind_eq_bind, Option.bind_some]
      rfl
  · rw [setWidth_sext, hrot]

theorem rotateRight_one_carried (x : BitVec w.bits) (c : Bool) :
    ((((BitVec.cons c x).rotateRight (1 % (w.bits + 1))).setWidth w.bits).msb ^^
      (((BitVec.cons c x).rotateRight (1 % (w.bits + 1))).setWidth w.bits).getLsbD (w.bits - 2)) =
      (x.msb ^^ c) := by
  have h8 := w.eight_le_bits
  have hone : 1 % (w.bits + 1) % (w.bits + 1) = 1 := by
    rw [Nat.mod_mod]
    exact Nat.mod_eq_of_lt (by omega)
  have h1 : 1 + (w.bits - 1) = w.bits := by omega
  have h2 : 1 + (w.bits - 2) = w.bits - 1 := by omega
  have h5 : ¬ w.bits - 1 = w.bits := by omega
  have htop : (BitVec.cons c x).getLsbD w.bits = c := by rw [BitVec.getLsbD_cons, if_pos rfl]
  have hnext : (BitVec.cons c x).getLsbD (w.bits - 1) = x.getLsbD (w.bits - 1) := by
    rw [BitVec.getLsbD_cons, if_neg h5]
  have h6 : w.bits - 2 < w.bits := by omega
  have h7 : w.bits - 1 < w.bits := by omega
  rw [BitVec.msb_eq_getLsbD_last, BitVec.msb_eq_getLsbD_last, BitVec.getLsbD_setWidth,
    BitVec.getLsbD_setWidth, BitVec.getLsbD_rotateRight, BitVec.getLsbD_rotateRight, hone, h1, h2,
    htop, hnext, Bool.xor_comm (x.getLsbD _) c]
  simp [h6, h7]

theorem rcl_right (he : s.shown = some e) : ShiftOp.rcl.Right w x y b s e := by
  unfold ShiftOp.Right
  obtain ⟨hy, hle, _⟩ := carried_amount w b
  have hc := (shown_cases he).1
  by_cases h0 : b.toNat % 32 = 0
  · have hz : ¬ (b &&& 0x1f) % (w.bit + 1) ≠ 0 := by rw [ne_zero_iff, hy, h0]; simp
    rw [ShiftOp.eager, if_pos h0, ShiftOp.helper, LazyFlags.rclHelper, if_neg hz]
    exact same_follows x he
  rw [ShiftOp.eager, if_neg h0, ShiftOp.helper, ShiftOp.shifted]
  by_cases hm : b.toNat % 32 % (w.bits + 1) = 0
  · have hz : ¬ (b &&& 0x1f) % (w.bit + 1) ≠ 0 := by rw [ne_zero_iff, hy]; omega
    rw [LazyFlags.rclHelper, if_neg hz]
    exact unrotated_follows he (rotateLeft_of_mod _ hm) hm _
  · obtain ⟨res, hrun, hr, hmsb⟩ := rclHelper_run (x := x) (e := e) (s := s) rfl hm hc
    obtain ⟨_, hcf⟩ := rotateLeft_carried (x := x) (c := e.cf) (Nat.pos_of_ne_zero hm) hle
    rw [BitVec.rotateLeft_mod_eq_rotateLeft] at hr hmsb hcf
    rw [hrun, hcf]
    refine rotate_follows he hr ?_
    intro v hv
    exact byOne_allows (fun _ => by rw [hmsb]) hv

theorem rcr_right (he : s.shown = some e) : ShiftOp.rcr.Right w x y b s e := by
  unfold ShiftOp.Right
  obtain ⟨hy, hle, _⟩ := carried_amount w b
  have hc := (shown_cases he).1
  by_cases h0 : b.toNat % 32 = 0
  · have hz : ¬ (b &&& 0x1f) % (w.bit + 1) ≠ 0 := by rw [ne_zero_iff, hy, h0]; simp
    rw [ShiftOp.eager, if_pos h0, ShiftOp.helper, LazyFlags.rcrHelper, if_neg hz]
    exact same_follows x he
  rw [ShiftOp.eager, if_neg h0, ShiftOp.helper, ShiftOp.shifted]
  by_cases hm : b.toNat % 32 % (w.bits + 1) = 0
  · have hz : ¬ (b &&& 0x1f) % (w.bit + 1) ≠ 0 := by rw [ne_zero_iff, hy]; omega
    rw [LazyFlags.rcrHelper, if_neg hz]
    exact unrotated_follows he (rotateRight_of_mod _ hm) hm _
  · obtain ⟨res, hrun, hr⟩ := rcrHelper_run (x := x) (e := e) (s := s) rfl hm hc
    obtain ⟨_, hcf⟩ := rotateRight_carried (x := x) (c := e.cf) (Nat.pos_of_ne_zero hm) hle
    have hover : b.toNat % 32 = 1 → hasBit ((res ^^^ res <<< 1) >>> (w.bits - 1)) 1 =
        (x.msb ^^ e.cf) := by
      intro h1
      rw [high_overflow hr, h1]
      exact rotateRight_one_carried x e.cf
    rw [BitVec.rotateRight_mod_eq_rotateRight] at hr hcf
    rw [hrun, hcf]
    refine rotate_follows he hr ?_
    intro v hv
    exact byOne_allows hover hv

end Shifts

/-- When the helper follows the definition. -/
def ShiftOp.Conforms (op : ShiftOp) (w : Width) (x : BitVec w.bits) (b : Word)
    (e : FlagSet Bool) : Prop :=
  match op with
  | .shl => b.toNat % 32 ≤ w.bits
  | .rol => b.toNat % 32 = 0 → b ≠ 0 →
      e.cf = x.getLsbD 0 ∧ e.of = ((x.setWidth 32).msb ^^ x.getLsbD 0)
  | .ror => b.toNat % 32 = 0 → b ≠ 0 →
      e.cf = x.msb ∧ e.of = (x.msb ^^ x.getLsbD (w.bits - 2))
  | .shr | .sar | .rcl | .rcr | .shld | .shrd => True

theorem shift_right_iff {op : ShiftOp} {w : Width} {x y : BitVec w.bits} {b : Word}
    {s : LazyFlags} {e : FlagSet Bool} (hform : op.HasForm w) (he : s.shown = some e) :
    op.Right w x y b s e ↔ op.Conforms w x b e := by
  have hword : op = .shld ∨ op = .shrd → w ≠ .b8 := by
    intro hop hw
    subst hw
    rcases hop with h | h
    · subst h
      exact hform
    · subst h
      exact hform
  cases op with
  | shl => exact shl_right he
  | shr => exact iff_of_true (shr_right he) trivial
  | sar => exact iff_of_true (sar_right he) trivial
  | rol => exact rol_right he
  | ror => exact ror_right he
  | rcl => exact iff_of_true (rcl_right he) trivial
  | rcr => exact iff_of_true (rcr_right he) trivial
  | shld => exact iff_of_true (shld_right (hword (.inl rfl)) he) trivial
  | shrd => exact iff_of_true (shrd_right (hword (.inr rfl)) he) trivial

def afterStc : LazyFlags := ⟨0x3, ⟨.and, 0, 0, 0, 0, 0⟩⟩

theorem shift_right_iff_afterStc :
    ShiftOp.rol.Right .b16 0x8000 0 17 afterStc ⟨true, false, false, false, false, false⟩ ↔
      ShiftOp.rol.Conforms .b16 0x8000 17 ⟨true, false, false, false, false, false⟩ :=
  shift_right_iff trivial (by decide)

/-- SHL of a byte by 9 ends in a shift that is undefined; ROL by 32 clears CF. -/
theorem afterStc_wrong :
    afterStc.shown = some ⟨true, false, false, false, false, false⟩ ∧
    ¬ ShiftOp.shl.Right .b8 0x81 0 9 afterStc ⟨true, false, false, false, false, false⟩ ∧
    ¬ ShiftOp.rol.Right .b32 0x2 0 32 afterStc ⟨true, false, false, false, false, false⟩ := by
  have hshow : afterStc.shown = some ⟨true, false, false, false, false, false⟩ := by decide
  refine ⟨hshow, ?_, ?_⟩
  · rw [shl_right hshow]
    decide
  · rw [rol_right hshow]
    decide

end Winspire.Cpu
