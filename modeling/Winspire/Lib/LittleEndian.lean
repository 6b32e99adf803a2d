import Mathlib.Data.Nat.ModEq
import Mathlib.Tactic.Ring

/-! Fixed-width little-endian numbers in byte lists. Bytes past the width are dropped. -/

namespace Winspire.LittleEndian

set_option autoImplicit false

def put : Nat → Nat → List UInt8
  | 0, _ => []
  | w + 1, n => UInt8.ofNat n :: put w (n / 256)

def get : List UInt8 → Nat
  | [] => 0
  | b :: bs => b.toNat + 256 * get bs

@[simp] theorem length_put (w n : Nat) : (put w n).length = w := by
  induction w generalizing n with
  | zero => rfl
  | succ w ih => simp [put, ih]

theorem get_put (w n : Nat) : get (put w n) = n % 256 ^ w := by
  induction w generalizing n with
  | zero => simp [put, get, Nat.mod_one]
  | succ w ih =>
    have hb : (UInt8.ofNat n).toNat = n % 256 := by simp
    rw [put, get, ih, hb, Nat.pow_succ, Nat.mul_comm (256 ^ w), Nat.mod_mul]

theorem get_lt (bytes : List UInt8) : get bytes < 256 ^ bytes.length := by
  induction bytes with
  | nil => decide
  | cons b bytes ih =>
    have hb := b.toNat_lt
    rw [get, List.length_cons, Nat.pow_succ]
    omega

theorem put_get (bytes : List UInt8) : put bytes.length (get bytes) = bytes := by
  induction bytes with
  | nil => rfl
  | cons b bytes ih =>
    have hb := b.toNat_lt
    have hdiv : (b.toNat + 256 * get bytes) / 256 = get bytes := by omega
    have hmod : UInt8.ofNat (b.toNat + 256 * get bytes) = b := by
      apply UInt8.toNat_inj.mp
      rw [UInt8.toNat_ofNat']
      omega
    rw [get, List.length_cons, put, hdiv, hmod, ih]

end Winspire.LittleEndian
