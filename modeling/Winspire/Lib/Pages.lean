import Mathlib.Tactic.Ring
import Mathlib.Data.Nat.Bitwise

/-!
# Page numbers and offsets

An address of `w` bits in pages of `2 ^ k` bytes.
-/

namespace Winspire.Pages

set_option autoImplicit false

variable {w k : Nat}

def page (k : Nat) (a : BitVec w) : Nat := a.toNat / 2 ^ k

def offset (k : Nat) (a : BitVec w) : Nat := a.toNat % 2 ^ k

theorem offset_lt (a : BitVec w) : offset k a < 2 ^ k := Nat.mod_lt _ (Nat.two_pow_pos k)

theorem toNat_eq (a : BitVec w) : a.toNat = 2 ^ k * page k a + offset k a :=
  (Nat.div_add_mod _ _).symm

theorem eq_of_page_offset {a b : BitVec w} (hp : page k a = page k b)
    (ho : offset k a = offset k b) : a = b := by
  apply BitVec.eq_of_toNat_eq
  rw [toNat_eq (k := k) a, toNat_eq (k := k) b, hp, ho]

theorem xor_cancel (x a : BitVec w) : x ^^^ a ^^^ a = x := by
  rw [BitVec.xor_assoc, BitVec.xor_self, BitVec.xor_zero]

theorem page_xor (a b : BitVec w) : page k (a ^^^ b) = page k a ^^^ page k b := by
  unfold page
  rw [BitVec.toNat_xor, Nat.xor_div_two_pow]

theorem offset_xor (a b : BitVec w) : offset k (a ^^^ b) = offset k a ^^^ offset k b := by
  unfold offset
  rw [BitVec.toNat_xor, Nat.xor_mod_two_pow]

theorem offset_xor_left {x : BitVec w} (hx : offset k x = 0) (a : BitVec w) :
    offset k (x ^^^ a) = offset k a := by
  rw [offset_xor, hx, Nat.zero_xor]

theorem page_lt (hk : k ≤ w) (a : BitVec w) : page k a < 2 ^ (w - k) := by
  have h : a.toNat < 2 ^ k * 2 ^ (w - k) := by
    rw [← Nat.pow_add, Nat.add_sub_cancel' hk]
    exact a.isLt
  exact Nat.div_lt_of_lt_mul h

theorem toNat_add_of_lt (hk : k ≤ w) {a : BitVec w} {d : Nat} (h : offset k a + d < 2 ^ k) :
    (a + BitVec.ofNat w d).toNat = a.toNat + d := by
  have hp := page_lt hk a
  have ha := toNat_eq (k := k) a
  have hw : 2 ^ k * (page k a + 1) ≤ 2 ^ w := by
    calc 2 ^ k * (page k a + 1) ≤ 2 ^ k * 2 ^ (w - k) := Nat.mul_le_mul_left _ hp
      _ = 2 ^ w := by rw [← Nat.pow_add, Nat.add_sub_cancel' hk]
  have hsum : a.toNat + d < 2 ^ w := by
    calc a.toNat + d = 2 ^ k * page k a + (offset k a + d) := by rw [ha]; ring
      _ < 2 ^ k * page k a + 2 ^ k := Nat.add_lt_add_left h _
      _ = 2 ^ k * (page k a + 1) := by ring
      _ ≤ 2 ^ w := hw
  have hd : d < 2 ^ w := by omega
  rw [BitVec.toNat_add, BitVec.toNat_ofNat, Nat.mod_eq_of_lt hd, Nat.mod_eq_of_lt hsum]

theorem page_add (hk : k ≤ w) {a : BitVec w} {d : Nat} (h : offset k a + d < 2 ^ k) :
    page k (a + BitVec.ofNat w d) = page k a := by
  have ha := toNat_eq (k := k) a
  unfold page at ha ⊢
  rw [toNat_add_of_lt hk h, ha, Nat.add_assoc, Nat.mul_add_div (Nat.two_pow_pos k),
    Nat.mul_add_div (Nat.two_pow_pos k), Nat.div_eq_of_lt h, Nat.div_eq_of_lt (offset_lt a)]

theorem offset_add (hk : k ≤ w) {a : BitVec w} {d : Nat} (h : offset k a + d < 2 ^ k) :
    offset k (a + BitVec.ofNat w d) = offset k a + d := by
  have ha := toNat_eq (k := k) a
  unfold offset at h ha ⊢
  rw [toNat_add_of_lt hk h, ha, Nat.add_assoc, Nat.mul_add_mod, Nat.mul_add_mod,
    Nat.mod_mod, Nat.mod_eq_of_lt h]

/-- Inside a page, exchanging the page number and stepping commute. -/
theorem xor_add (hk : k ≤ w) {x a : BitVec w} (hx : offset k x = 0) {d : Nat}
    (h : offset k a + d < 2 ^ k) :
    x ^^^ (a + BitVec.ofNat w d) = (x ^^^ a) + BitVec.ofNat w d := by
  have hxa : offset k (x ^^^ a) + d < 2 ^ k := by
    rw [offset_xor_left hx]
    exact h
  apply eq_of_page_offset (k := k)
  · rw [page_xor, page_add hk h, page_add hk hxa, page_xor]
  · rw [offset_xor_left hx, offset_add hk h, offset_add hk hxa, offset_xor_left hx]

theorem xor_lt_iff {a b : BitVec w} (hb : offset k b = 0) {n : Nat} (hn : n ≤ 2 ^ k) :
    (a ^^^ b).toNat < n ↔ page k a = page k b ∧ offset k a < n := by
  have hab := toNat_eq (k := k) (a ^^^ b)
  rw [page_xor, offset_xor, hb, Nat.xor_zero] at hab
  constructor
  · intro h
    have hz : page k a ^^^ page k b = 0 := by
      by_contra hne
      have hpos : 1 ≤ page k a ^^^ page k b := Nat.one_le_iff_ne_zero.mpr hne
      have hbig : 2 ^ k * 1 ≤ 2 ^ k * (page k a ^^^ page k b) := Nat.mul_le_mul_left _ hpos
      omega
    rw [hz, Nat.mul_zero, Nat.zero_add] at hab
    exact ⟨Nat.eq_of_xor_eq_zero hz, by omega⟩
  · rintro ⟨hp, ho⟩
    rw [hp, Nat.xor_self, Nat.mul_zero, Nat.zero_add] at hab
    omega

theorem xor_lt_page_iff {a b : BitVec w} :
    (a ^^^ b).toNat < 2 ^ k ↔ page k a = page k b := by
  have h : (a ^^^ b).toNat / 2 ^ k = page k (a ^^^ b) := rfl
  rw [← Nat.div_eq_zero_iff_lt (Nat.two_pow_pos k), h, page_xor]
  constructor
  · exact Nat.eq_of_xor_eq_zero
  · intro hp
    rw [hp, Nat.xor_self]

end Winspire.Pages
