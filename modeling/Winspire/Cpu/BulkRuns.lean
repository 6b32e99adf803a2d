import Winspire.Cpu.Bounds
import Winspire.Cpu.StringElems

/-!
# Runs in bulk

`memset`, the fills and `memmove` against the element loops they stand for.
-/

namespace Winspire.Cpu

open Faulting Pages

set_option autoImplicit false

/-- Bytes of RAM in a row, none of them a device's. -/
structure CPUI386.RamSpan (s : CPUI386) (a : Word) (len : Nat) : Prop where
  toNat_add : ∀ k < len, (a + BitVec.ofNat 32 k).toNat = a.toNat + k
  inMem : ∀ k < len, s.inMem (a + BitVec.ofNat 32 k)
  noDevice : ∀ k < len, inIomem (a + BitVec.ofNat 32 k) = false

section RamSpan

variable {s t : CPUI386} {a : Word} {len : Nat}

theorem CPUI386.RamSpan.touched (h : s.RamSpan a len) (ht : Touches s t) : t.RamSpan a len where
  toNat_add := h.toNat_add
  inMem k hk := by
    unfold Touches at ht
    rw [ht]
    exact h.inMem k hk
  noDevice := h.noDevice

theorem CPUI386.RamSpan.take (h : s.RamSpan a len) {n : Nat} (hn : n ≤ len) : s.RamSpan a n where
  toNat_add k hk := h.toNat_add k (Nat.lt_of_lt_of_le hk hn)
  inMem k hk := h.inMem k (Nat.lt_of_lt_of_le hk hn)
  noDevice k hk := h.noDevice k (Nat.lt_of_lt_of_le hk hn)

theorem add_ofNat_add (a : Word) (n k : Nat) :
    a + BitVec.ofNat 32 n + BitVec.ofNat 32 k = a + BitVec.ofNat 32 (n + k) := by
  rw [BitVec.ofNat_add, BitVec.add_assoc]

theorem CPUI386.RamSpan.drop (h : s.RamSpan a len) (n : Nat) :
    s.RamSpan (a + BitVec.ofNat 32 n) (len - n) where
  toNat_add k hk := by
    rw [add_ofNat_add, h.toNat_add (n + k) (by omega), h.toNat_add n (by omega), Nat.add_assoc]
  inMem k hk := by
    rw [add_ofNat_add]
    exact h.inMem (n + k) (by omega)
  noDevice k hk := by
    rw [add_ofNat_add]
    exact h.noDevice (n + k) (by omega)

theorem CPUI386.RamSpan.head (h : s.RamSpan a len) (hl : 0 < len) :
    s.inMem a ∧ inIomem a = false := by
  have h1 := h.inMem 0 hl
  have h2 := h.noDevice 0 hl
  have ha : a + BitVec.ofNat 32 0 = a := BitVec.add_zero a
  rw [ha] at h1 h2
  exact ⟨h1, h2⟩

end RamSpan

theorem storeW_ram {s : CPUI386} {w : Width} {a v : Word} (h : s.RamSpan a (w.bits / 8)) :
    storeW ⟨a, none⟩ v w s = pstoreW a v w s := by
  obtain ⟨hin, hio⟩ := h.head (by cases w <;> decide)
  have hdev : ∀ w', s.iomemWriter w' a = false := by
    intro w'
    unfold CPUI386.iomemWriter
    rw [hio, Bool.false_and]
  cases w with
  | b8 =>
    change store8 ⟨a, none⟩ _ s = pstore8 a _ s
    unfold store8
    simp only [get_bind_run, hdev, Bool.false_eq_true, if_false, hin, not_true]
  | b16 =>
    change store16 ⟨a, none⟩ _ s = pstore16 a _ s
    unfold store16
    simp only [get_bind_run, hdev, Bool.false_eq_true, if_false, hin, not_true]
  | b32 =>
    change store32 ⟨a, none⟩ _ s = pstore32 a _ s
    unfold store32
    simp only [get_bind_run, hdev, Bool.false_eq_true, if_false, hin, not_true]

/-- Memory after `n` bytes at `src` are copied to `dst`. -/
def moveBytes (mem : Nat → Byte) (dst src n : Nat) (a : Nat) : Byte :=
  if dst ≤ a ∧ a < dst + n then mem (src + (a - dst)) else mem a

section Move

variable {mem : Nat → Byte} {dst src : Nat}

end Move

section Copy

variable {s : CPUI386} {a d : Word}

theorem loadW_ram {w : Width} (h : s.RamSpan a (w.bits / 8)) :
    loadW ⟨a, none⟩ w s = .ok (match w with
      | .b8 => (s.byteAt a).setWidth 32
      | .b16 => (s.wordAt a).setWidth 32
      | .b32 => s.dwordAt a) s := by
  obtain ⟨hin, hio⟩ := h.head (by cases w <;> decide)
  have hmap := mapBiosAlias_ram hio
  have hdev : ∀ w', s.iomemReader w' a = none := by
    intro w'
    unfold CPUI386.iomemReader
    rw [hio, if_neg Bool.false_ne_true]
  cases w with
  | b8 =>
    refine bind_run_ok (a := s.byteAt a) ?_
    unfold load8
    simp only [hmap, get_bind_run, hdev, hin, not_true, if_false]
    exact pload8_run_inMem hin
  | b16 =>
    refine bind_run_ok (a := s.wordAt a) ?_
    unfold load16
    simp only [hmap, get_bind_run, hdev, hin, not_true, if_false]
    exact pload16_run_inMem ⟨hin, h.inMem 1 (by decide)⟩
  | b32 =>
    change load32 _ s = _
    unfold load32
    simp only [hmap, get_bind_run, hdev, hin, not_true, if_false]
    unfold pload32
    rw [get_bind_run]
    exact congrFun (if_pos ⟨hin, h.inMem 1 (by decide), h.inMem 2 (by decide),
      h.inMem 3 (by decide)⟩) s

/-- `n` bytes from `a` at `d`. -/
def CPUI386.moved (s : CPUI386) (d a : Word) (n : Nat) : CPUI386 :=
  { s with mem := moveBytes s.mem d.toNat a.toNat n }

end Copy

section Chunk

variable {s : CPUI386} {w : Width} {count : Nat}

end Chunk

end Winspire.Cpu
