import Mathlib.Algebra.Order.Ring.Abs
import Mathlib.Tactic.Positivity
import Mathlib.Tactic.Ring

/-!
# Sums and differences under sign extension

Carries, borrows and overflows of `n`-bit numbers, read off words the numbers were extended to.
-/

namespace Winspire.SignExtend

set_option autoImplicit false

variable {n v : Nat} {a b r : BitVec n} {c : Bool}

theorem two_mul_half (hn : 0 < n) : 2 * 2 ^ (n - 1) = 2 ^ n := by
  rw [← Nat.pow_succ', Nat.succ_eq_add_one, Nat.sub_add_cancel hn]

theorem getLsbD_signExtend_low {i : Nat} (h : n ≤ v) (hi : i < n) :
    (a.signExtend v).getLsbD i = a.getLsbD i := by
  have hv : i < v := by omega
  rw [BitVec.getLsbD_signExtend, if_pos hi]
  simp [hv]

theorem setWidth_signExtend (h : n ≤ v) (a : BitVec n) : (a.signExtend v).setWidth n = a := by
  apply BitVec.eq_of_getLsbD_eq
  intro i hi
  rw [BitVec.getLsbD_setWidth, getLsbD_signExtend_low h hi]
  simp [hi]

theorem signExtend_inj (h : n ≤ v) : a.signExtend v = b.signExtend v ↔ a = b := by
  constructor
  · intro he
    rw [← setWidth_signExtend h a, he, setWidth_signExtend h]
  · rintro rfl
    rfl

theorem msb_signExtend_of_le (h : n ≤ v) (hn : 0 < n) : (a.signExtend v).msb = a.msb := by
  rw [BitVec.msb_signExtend]
  by_cases hv : n < v
  · have hle : ¬ v ≤ n := by omega
    have hpos : 0 < v := by omega
    simp [hle, hpos]
  · obtain rfl : n = v := by omega
    simp [BitVec.msb, hn]

theorem signExtend_lt_iff (h : n ≤ v) (hn : 0 < n) :
    a.signExtend v < b.signExtend v ↔ a < b := by
  have hp : 2 ^ n ≤ 2 ^ v := Nat.pow_le_pow_right (by decide) h
  have ha := a.isLt
  have hb := b.isLt
  have hpred := two_mul_half hn
  rw [BitVec.lt_def, BitVec.lt_def, BitVec.toNat_signExtend, BitVec.toNat_signExtend,
    BitVec.toNat_setWidth, BitVec.toNat_setWidth, Nat.mod_eq_of_lt (by omega),
    Nat.mod_eq_of_lt (by omega), BitVec.msb_eq_decide, BitVec.msb_eq_decide]
  by_cases hma : 2 ^ (n - 1) ≤ a.toNat <;> by_cases hmb : 2 ^ (n - 1) ≤ b.toNat <;>
    simp [hma, hmb] <;> omega

theorem signExtend_le_iff (h : n ≤ v) (hn : 0 < n) :
    a.signExtend v ≤ b.signExtend v ↔ a ≤ b := by
  rw [← BitVec.not_lt, ← BitVec.not_lt, signExtend_lt_iff h hn]

/-- `r` is the sum of `a`, `b` and the carry. -/
def IsSum (r a b : BitVec n) (c : Bool) : Prop := r = a + b + (BitVec.ofBool c).setWidth n

theorem toNat_carry (hn : 0 < n) (c : Bool) :
    ((BitVec.ofBool c).setWidth n).toNat = c.toNat := by
  cases c
  · simp
  · simp [hn]

theorem IsSum.toNat (hn : 0 < n) (h : IsSum r a b c) :
    (r.toNat = a.toNat + b.toNat + c.toNat ∧ a.toNat + b.toNat + c.toNat < 2 ^ n) ∨
      (r.toNat + 2 ^ n = a.toNat + b.toNat + c.toNat) := by
  have ha := a.isLt
  have hb := b.isLt
  have hc : c.toNat ≤ 1 := by cases c <;> decide
  have hr : r.toNat = (a.toNat + b.toNat + c.toNat) % 2 ^ n := by
    rw [h, BitVec.toNat_add, BitVec.toNat_add, toNat_carry hn, Nat.mod_add_mod]
  by_cases hlt : a.toNat + b.toNat + c.toNat < 2 ^ n
  · rw [Nat.mod_eq_of_lt hlt] at hr
    exact Or.inl ⟨hr, hlt⟩
  · rw [Nat.mod_eq_sub_mod (by omega), Nat.mod_eq_of_lt (by omega)] at hr
    exact Or.inr (by omega)

theorem IsSum.toNat_lt_right (hn : 0 < n) (h : IsSum r a b false) :
    (r < b) ↔ 2 ^ n ≤ a.toNat + b.toNat := by
  have ha := a.isLt
  rw [BitVec.lt_def]
  rcases h.toNat hn with h | h <;> simp only [Bool.toNat_false] at h <;> omega

theorem IsSum.toNat_le_right (hn : 0 < n) (h : IsSum r a b true) :
    (r ≤ b) ↔ 2 ^ n ≤ a.toNat + b.toNat + 1 := by
  have ha := a.isLt
  rw [BitVec.le_def]
  rcases h.toNat hn with h | h <;> simp only [Bool.toNat_true] at h <;> omega

/-- The carry into bit `i` is the exclusive or of the three bits there. -/
theorem IsSum.carry {i : Nat} (hi : i < n) (h : IsSum r a b c) :
    (a.getLsbD i ^^ b.getLsbD i ^^ r.getLsbD i) =
      decide (2 ^ i ≤ a.toNat % 2 ^ i + b.toNat % 2 ^ i + c.toNat) := by
  have hr : r.getLsbD i = (a.getLsbD i ^^ (b.getLsbD i ^^ BitVec.carry i a b c)) := by
    rw [h]
    exact BitVec.getLsbD_add_add_bool hi a b c
  have hc : BitVec.carry i a b c =
      decide (2 ^ i ≤ a.toNat % 2 ^ i + b.toNat % 2 ^ i + c.toNat) := rfl
  rw [hr, ← hc]
  cases a.getLsbD i <;> cases b.getLsbD i <;> cases BitVec.carry i a b c <;> rfl

theorem toInt_eq_of_half (hn : 0 < n) (a : BitVec n) :
    a.toInt = if 2 ^ (n - 1) ≤ a.toNat then (a.toNat : Int) - ((2 ^ n : Nat) : Int)
      else (a.toNat : Int) := by
  have hh := two_mul_half hn
  rw [BitVec.toInt_eq_toNat_cond]
  by_cases h : 2 ^ (n - 1) ≤ a.toNat
  · rw [if_pos h, if_neg (by omega)]
  · rw [if_neg h, if_pos (by omega)]

/-- The sum overflows iff the operands have one sign and the result has the other. -/
theorem IsSum.overflow (hn : 0 < n) (h : IsSum r a b c) :
    (r.toInt ≠ a.toInt + b.toInt + c.toNat) ↔ a.msb = b.msb ∧ r.msb ≠ b.msb := by
  have ha := a.isLt
  have hb := b.isLt
  have hr := r.isLt
  have hh := two_mul_half hn
  have hc : c.toNat ≤ 1 := by cases c <;> decide
  have hs := h.toNat hn
  generalize hca : c.toNat = k at hs hc ⊢
  rw [toInt_eq_of_half hn a, toInt_eq_of_half hn b, toInt_eq_of_half hn r,
    BitVec.msb_eq_decide, BitVec.msb_eq_decide, BitVec.msb_eq_decide]
  generalize 2 ^ (n - 1) = half at hh ⊢
  generalize 2 ^ n = m at ha hb hr hh hs ⊢
  by_cases hma : half ≤ a.toNat <;> by_cases hmb : half ≤ b.toNat <;>
    by_cases hmr : half ≤ r.toNat <;> simp only [hma, hmb, hmr, if_true, if_false,
      decide_true, decide_false, reduceCtorEq, ne_eq, not_true_eq_false, and_false, and_true,
      not_false_eq_true, iff_false, iff_true, not_not] <;> omega

/-- A difference is a sum read backwards: `a` is the sum of `r`, `b` and the borrow. -/
theorem isSum_of_sub (h : r = a - b - (BitVec.ofBool c).setWidth n) : IsSum a r b c := by
  have hb : ∀ x y z : BitVec n, x = x - y - z + y + z := by
    intro x y z
    rw [BitVec.sub_sub, BitVec.add_assoc, BitVec.sub_add_cancel]
  rw [IsSum, h]
  exact hb a b _

theorem IsSum.low {i : Nat} (hi : i < n) (h : IsSum r a b c) :
    r.toNat % 2 ^ i = (a.toNat % 2 ^ i + b.toNat % 2 ^ i + c.toNat) % 2 ^ i := by
  have hdvd : 2 ^ i ∣ 2 ^ n := Nat.pow_dvd_pow 2 (by omega)
  rw [h, BitVec.toNat_add, BitVec.toNat_add, toNat_carry (by omega), Nat.mod_add_mod,
    Nat.mod_mod_of_dvd _ hdvd, Nat.add_mod, Nat.add_mod a.toNat, Nat.mod_add_mod,
    Nat.add_mod_mod]

theorem IsSum.borrow_low {i : Nat} (hi : i < n) (h : IsSum a r b c) :
    a.toNat % 2 ^ i < b.toNat % 2 ^ i + c.toNat ↔
      2 ^ i ≤ r.toNat % 2 ^ i + b.toNat % 2 ^ i + c.toNat := by
  have hpos : 0 < 2 ^ i := Nat.two_pow_pos i
  have hrl := Nat.mod_lt r.toNat hpos
  have hbl := Nat.mod_lt b.toNat hpos
  have hal := Nat.mod_lt a.toNat hpos
  have hc : c.toNat ≤ 1 := by cases c <;> decide
  have hm := h.low hi
  generalize a.toNat % 2 ^ i = x at hal hm ⊢
  generalize r.toNat % 2 ^ i = y at hrl hm ⊢
  generalize b.toNat % 2 ^ i = z at hbl hm ⊢
  generalize 2 ^ i = m at hpos hrl hbl hal hm ⊢
  by_cases hlt : y + z + c.toNat < m
  · rw [Nat.mod_eq_of_lt hlt] at hm
    omega
  · rw [Nat.mod_eq_sub_mod (by omega), Nat.mod_eq_of_lt (by omega)] at hm
    omega

theorem toNat_one (hn : 0 < n) : (1 : BitVec n).toNat = 1 := by
  have h := toNat_carry hn true
  simpa using h

theorem msb_one (hn : 1 < n) : (1 : BitVec n).msb = false := by
  have hh := two_mul_half (n := n - 1) (by omega)
  have hpos := Nat.two_pow_pos (n - 1 - 1)
  rw [BitVec.msb_eq_decide, toNat_one (by omega), decide_eq_false_iff_not]
  omega

theorem IsSum.overflow_one (hn : 1 < n) (h : IsSum r a 1 false) :
    (r.toInt ≠ a.toInt + (1 : BitVec n).toInt + false.toNat) ↔ r = BitVec.intMin n := by
  have hs := h.toNat (by omega)
  have hh := two_mul_half (n := n) (by omega)
  have ha := a.isLt
  have hr := r.isLt
  rw [h.overflow (by omega), msb_one hn, BitVec.msb_eq_decide, BitVec.msb_eq_decide,
    ← BitVec.toNat_inj, BitVec.toNat_intMin_of_pos (by omega)]
  rw [toNat_one (by omega), Bool.toNat_false] at hs
  simp only [decide_eq_false_iff_not, ne_eq, not_not]
  omega

theorem IsSum.underflow_one (hn : 1 < n) (h : IsSum a r 1 false) :
    (r.toInt ≠ a.toInt - (1 : BitVec n).toInt - false.toNat) ↔ r = BitVec.intMax n := by
  have hs := h.toNat (by omega)
  have hh := two_mul_half (n := n) (by omega)
  have ha := a.isLt
  have hr := r.isLt
  have hback : (r.toInt ≠ a.toInt - (1 : BitVec n).toInt - false.toNat) ↔
      (a.toInt ≠ r.toInt + (1 : BitVec n).toInt + false.toNat) := by omega
  rw [hback, h.overflow (by omega), msb_one hn, BitVec.msb_eq_decide, BitVec.msb_eq_decide,
    ← BitVec.toNat_inj, BitVec.toNat_intMax]
  rw [toNat_one (by omega), Bool.toNat_false] at hs
  simp only [decide_eq_false_iff_not, ne_eq, not_not]
  omega

theorem IsSum.overflow_neg (hn : 0 < n) (h : IsSum 0 r a false) :
    (r.toInt ≠ (0 : BitVec n).toInt - a.toInt - false.toNat) ↔ r = BitVec.intMin n := by
  have hs := h.toNat hn
  have hh := two_mul_half hn
  have hpos := Nat.two_pow_pos (n - 1)
  have ha := a.isLt
  have hr := r.isLt
  have hback : (r.toInt ≠ (0 : BitVec n).toInt - a.toInt - false.toNat) ↔
      ((0 : BitVec n).toInt ≠ r.toInt + a.toInt + false.toNat) := by omega
  have h0 : (0 : BitVec n).toNat = 0 := BitVec.toNat_zero
  rw [hback, h.overflow hn, BitVec.msb_eq_decide, BitVec.msb_eq_decide, BitVec.msb_eq_decide,
    ← BitVec.toNat_inj, BitVec.toNat_intMin_of_pos hn, h0, decide_eq_decide, ne_eq,
    decide_eq_decide]
  rw [h0, Bool.toNat_false] at hs
  omega

section Products

variable {m : Nat}

theorem toInt_abs_le (a : BitVec n) : |a.toInt| ≤ 2 ^ (n - 1) := by
  have hlo := BitVec.le_toInt a
  have hhi := BitVec.toInt_lt (x := a)
  exact abs_le.mpr ⟨hlo, hhi.le⟩

/-- A product of sign-extended numbers is exact where both widths fit together. -/
theorem toInt_mul_signExtend (hn : 0 < n) (hm : 0 < m) (h : n + m ≤ v) (a : BitVec n)
    (b : BitVec m) : (a.signExtend v * b.signExtend v).toInt = a.toInt * b.toInt := by
  rw [BitVec.toInt_mul, BitVec.toInt_signExtend_of_le (by omega),
    BitVec.toInt_signExtend_of_le (by omega)]
  have ha := toInt_abs_le a
  have hb := toInt_abs_le b
  have hp : |a.toInt * b.toInt| ≤ 2 ^ (v - 2) := by
    calc |a.toInt * b.toInt| = |a.toInt| * |b.toInt| := abs_mul _ _
      _ ≤ 2 ^ (n - 1) * 2 ^ (m - 1) := mul_le_mul ha hb (abs_nonneg _) (by positivity)
      _ = 2 ^ (n - 1 + (m - 1)) := (pow_add _ _ _).symm
      _ ≤ 2 ^ (v - 2) := pow_le_pow_right₀ (by norm_num) (by omega)
  obtain ⟨k, rfl⟩ : ∃ k, v = k + 2 := ⟨v - 2, by omega⟩
  obtain ⟨hlo, hhi⟩ := abs_le.mp hp
  simp only [Nat.add_sub_cancel] at hlo hhi
  have hpow : (2 : Int) ^ (k + 2) = 4 * 2 ^ k := by ring
  have hpos : (0 : Int) < 2 ^ k := by positivity
  apply Int.bmod_eq_of_le
  · push_cast
    rw [hpow]
    omega
  · push_cast
    rw [hpow]
    omega

theorem setWidth_signExtend_of_le (h : n ≤ v) (b : BitVec m) :
    (b.signExtend v).setWidth n = b.signExtend n := by
  apply BitVec.eq_of_getLsbD_eq
  intro i hi
  have hv : i < v := by omega
  rw [BitVec.getLsbD_setWidth, BitVec.getLsbD_signExtend, BitVec.getLsbD_signExtend]
  simp only [hi, hv, decide_true, Bool.true_and]

/-- The product fits in `n` bits iff it is the extension of its low part. -/
theorem product_fits_iff (hn : 0 < n) (hm : 0 < m) (h : n + m ≤ v) (a : BitVec n)
    (b : BitVec m) :
    ((a.signExtend v * b.signExtend v).setWidth n).signExtend v =
        a.signExtend v * b.signExtend v ↔
      (a * b.signExtend n).toInt = a.toInt * b.toInt := by
  have hlow : (a.signExtend v * b.signExtend v).setWidth n = a * b.signExtend n := by
    rw [BitVec.setWidth_mul _ _ (by omega), setWidth_signExtend (by omega),
      setWidth_signExtend_of_le (by omega)]
  rw [hlow, ← BitVec.toInt_inj, toInt_mul_signExtend hn hm h,
    BitVec.toInt_signExtend_of_le (by omega)]

theorem sshiftRight_last (x : BitVec 32) :
    x.sshiftRight 31 = if x.msb then BitVec.allOnes 32 else 0#32 := by
  apply BitVec.eq_of_getLsbD_eq
  intro i hi
  have hbit : (x.sshiftRight 31).getLsbD i = x.msb := by
    rw [BitVec.getLsbD_sshiftRight]
    by_cases h0 : i = 0
    · subst h0
      simp [BitVec.msb_eq_getLsbD_last]
    · have hge : ¬ 31 + i < 32 := by omega
      simp [hge, hi]
  rw [hbit]
  cases x.msb
  · simp
  · rw [if_pos rfl, BitVec.getLsbD_allOnes, decide_eq_true hi]

/-- The high half of a number repeats the sign of the low half iff the low half is all of it. -/
theorem high_half_iff (p : BitVec 64) :
    (p.setWidth 32).sshiftRight 31 = (p >>> 32).setWidth 32 ↔
      (p.setWidth 32).signExtend 64 = p := by
  have hp := p.isLt
  have hlow : (p.setWidth 32).toNat = p.toNat % 2 ^ 32 := BitVec.toNat_setWidth ..
  have hhigh : ((p >>> 32).setWidth 32).toNat = p.toNat / 2 ^ 32 := by
    rw [BitVec.toNat_setWidth, BitVec.toNat_ushiftRight, Nat.shiftRight_eq_div_pow]
    exact Nat.mod_eq_of_lt (by omega)
  rw [sshiftRight_last, ← BitVec.toNat_inj, ← BitVec.toNat_inj, BitVec.toNat_signExtend, hhigh,
    BitVec.toNat_setWidth, hlow]
  cases (p.setWidth 32).msb
  · simp only [Bool.false_eq_true, if_false, BitVec.toNat_zero]
    omega
  · simp only [if_true, BitVec.toNat_allOnes]
    omega

/-- An unsigned product is exact where both widths fit together. -/
theorem toNat_mul_setWidth (h : n + m ≤ v) (a : BitVec n) (b : BitVec m) :
    (a.setWidth v * b.setWidth v).toNat = a.toNat * b.toNat := by
  have ha : a.toNat < 2 ^ v := lt_of_lt_of_le a.isLt (Nat.pow_le_pow_right (by decide) (by omega))
  have hb : b.toNat < 2 ^ v := lt_of_lt_of_le b.isLt (Nat.pow_le_pow_right (by decide) (by omega))
  have hp : a.toNat * b.toNat < 2 ^ v := by
    calc a.toNat * b.toNat < 2 ^ n * 2 ^ m := Nat.mul_lt_mul'' a.isLt b.isLt
      _ = 2 ^ (n + m) := (Nat.pow_add _ _ _).symm
      _ ≤ 2 ^ v := Nat.pow_le_pow_right (by decide) h
  rw [BitVec.toNat_mul, BitVec.toNat_setWidth, BitVec.toNat_setWidth, Nat.mod_eq_of_lt ha,
    Nat.mod_eq_of_lt hb, Nat.mod_eq_of_lt hp]

end Products

end Winspire.SignExtend
