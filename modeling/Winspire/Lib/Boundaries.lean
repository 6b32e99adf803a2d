import Mathlib.Data.Nat.Basic
import Mathlib.Algebra.Order.Group.Nat
import Mathlib.Algebra.Order.Ring.Nat

/-!
# Boundaries on a clock

The multiples of a period between two instants, and instants read from a clock of fixed width.
-/

namespace Winspire.Boundaries

set_option autoImplicit false

/-- A multiple of `n` lies behind `a`, and not behind `b`. -/
def Crossed (n a b : Nat) : Prop := ∃ k, a < k * n ∧ k * n ≤ b

variable {n a b c : Nat}

theorem crossed_iff_div : Crossed n a b ↔ a / n < b / n := by
  obtain rfl | hn := Nat.eq_zero_or_pos n
  · rw [Nat.div_zero, Nat.div_zero]
    constructor
    · intro ⟨k, ha, _⟩
      exact absurd ha (Nat.not_lt_zero a)
    · intro h
      exact absurd h (Nat.lt_irrefl 0)
  constructor
  · intro ⟨k, ha, hb⟩
    have h1 : a / n < k := (Nat.div_lt_iff_lt_mul hn).mpr ha
    have h2 : k ≤ b / n := (Nat.le_div_iff_mul_le hn).mpr hb
    exact Nat.lt_of_lt_of_le h1 h2
  · intro h
    exact ⟨b / n, (Nat.div_lt_iff_lt_mul hn).mp h, Nat.div_mul_le_self b n⟩

instance (n a b : Nat) : Decidable (Crossed n a b) := decidable_of_iff _ crossed_iff_div.symm

theorem Crossed.lt (h : Crossed n a b) : a < b := by
  obtain ⟨k, ha, hb⟩ := h
  exact Nat.lt_of_lt_of_le ha hb

theorem not_crossed_self : ¬ Crossed n a a := fun h => Nat.lt_irrefl a h.lt

theorem crossed_of_period (hn : 0 < n) (h : a + n ≤ b) : Crossed n a b := by
  rw [crossed_iff_div]
  have hadd : (a + n) / n = a / n + 1 := Nat.add_div_right a hn
  have hle : (a + n) / n ≤ b / n := Nat.div_le_div_right h
  omega

/-- What a clock of `w` bits shows at the instant `t`. -/
def reading (w t : Nat) : BitVec w := BitVec.ofNat w t

theorem reading_sub {w s t : Nat} (hst : s ≤ t) (h : t - s < 2 ^ w) :
    (reading w t - reading w s).toNat = t - s := by
  obtain ⟨d, rfl⟩ := Nat.exists_eq_add_of_le hst
  rw [Nat.add_sub_cancel_left] at h ⊢
  unfold reading
  rw [BitVec.ofNat_add, BitVec.add_comm, BitVec.add_sub_cancel, BitVec.toNat_ofNat,
    Nat.mod_eq_of_lt h]

end Winspire.Boundaries
