import Winspire.Cpu.Mmu
import Winspire.Cpu.LazyFlags

/-!
# Page walks

The two-level walk of the x86 definition, and the marks the emulator leaves in the tables: they
set accessed and dirty bits only, which no walk reads.
-/

namespace Winspire.Cpu

open Faulting

set_option autoImplicit false

structure Page where
  frame : Word
  writable : Bool
  user : Bool
  pteAddr : Word
  deriving DecidableEq, Repr

namespace CPUI386

def pdeAddr (s : CPUI386) (lpgno : Word) : Word := (s.cr3 &&& pageMask) + (lpgno >>> 10) * 4

def pde (s : CPUI386) (lpgno : Word) : Word := s.dwordAt (s.pdeAddr lpgno)

def pteAddr (s : CPUI386) (lpgno : Word) : Word :=
  (s.pde lpgno &&& pageMask) + (lpgno &&& 1023) * 4

def pte (s : CPUI386) (lpgno : Word) : Word := s.dwordAt (s.pteAddr lpgno)

/-- `none` if an entry on the way is not present. -/
def walk (s : CPUI386) (lpgno : Word) : Option Page :=
  if (s.pde lpgno).getLsbD 0 && (s.pte lpgno).getLsbD 0 then
    some {
      frame := s.pte lpgno &&& pageMask
      writable := (s.pde lpgno).getLsbD 1 && (s.pte lpgno).getLsbD 1
      user := (s.pde lpgno).getLsbD 2 && (s.pte lpgno).getLsbD 2
      pteAddr := s.pteAddr lpgno }
  else none

/-- The entries the walk reads are in guest memory. -/
def WalkInMem (s : CPUI386) (lpgno : Word) : Prop :=
  (s.pdeAddr lpgno).toNat + 3 < s.memSize ∧
    ((s.pde lpgno).getLsbD 0 = true → (s.pteAddr lpgno).toNat + 3 < s.memSize)

end CPUI386

/-- Supervisor writes heed the write bit only under CR0.WP. -/
def Page.allows (p : Page) (wp user write : Bool) : Bool :=
  (!user || p.user) && (!write || p.writable || (!user && !wp))

/-- An access as the walk decides it: the physical address, or the error code of the fault. -/
inductive Access where
  | granted (paddr : Word)
  | denied (excerr : Word)
  deriving DecidableEq, Repr

def faultCode (present write user : Bool) : Word :=
  (if present then 1 else 0) ||| (if write then 2 else 0) ||| (if user then 4 else 0)

def CPUI386.accessPage (s : CPUI386) (lpgno laddr : Word) (user write : Bool) : Access :=
  match s.walk lpgno with
  | none => .denied (faultCode false write user)
  | some p =>
    if p.allows (hasBit s.cr0 cr0WP) user write then .granted (p.frame ||| (laddr &&& 0xfff))
    else .denied (faultCode true write user)

def CPUI386.access (s : CPUI386) (laddr : Word) (user write : Bool) : Access :=
  s.accessPage (laddr >>> 12) laddr user write

/-- The bits `s'` has more than `s` at `a`: accessed or dirty bits of an aligned entry. -/
structure MarkAt (s s' : CPUI386) (a : Word) (b : Byte) : Prop where
  byte : s'.byteAt a = s.byteAt a ||| b
  low : b ≠ 0 → a.toNat % 4 = 0
  bits : b &&& ~~~(accessed ||| dirty) = 0

/-- `s'` is `s` with marks in the tables. -/
structure Marks (s s' : CPUI386) : Prop where
  at_ : ∀ a, ∃ b, MarkAt s s' a b
  cr3 : s'.cr3 = s.cr3

theorem Marks.refl (s : CPUI386) : Marks s s where
  at_ a := ⟨0, ⟨by simp, fun h => absurd rfl h, by simp⟩⟩
  cr3 := rfl

theorem mul_four_low (x : Word) : (x * 4).toNat % 4 = 0 := by
  rw [BitVec.toNat_mul]
  have h4 : (4 : Word).toNat = 4 := rfl
  rw [h4, Nat.mod_mod_of_dvd _ (by decide : 4 ∣ 2 ^ 32)]
  exact Nat.mul_mod_left _ _

theorem pageMask_low (x : Word) : (x &&& pageMask).toNat % 4 = 0 := by
  have h : (x &&& pageMask).toNat % 2 ^ 2 = 0 := by
    apply Nat.eq_of_testBit_eq
    intro i
    rw [Nat.testBit_mod_two_pow, Nat.zero_testBit, BitVec.testBit_toNat, BitVec.getLsbD_and]
    by_cases hi : i < 2
    · have hm : pageMask.getLsbD i = false := by
        obtain rfl | rfl : i = 0 ∨ i = 1 := by omega
        · rfl
        · rfl
      rw [hm, Bool.and_false, Bool.and_false]
    · simp [hi]
  exact h

theorem add_low {x y : Word} (hx : x.toNat % 4 = 0) (hy : y.toNat % 4 = 0) :
    (x + y).toNat % 4 = 0 := by
  rw [BitVec.toNat_add, Nat.mod_mod_of_dvd _ (by decide : 4 ∣ 2 ^ 32)]
  omega

theorem CPUI386.pdeAddr_low (s : CPUI386) (lpgno : Word) : (s.pdeAddr lpgno).toNat % 4 = 0 :=
  add_low (pageMask_low _) (mul_four_low _)

theorem CPUI386.pteAddr_low (s : CPUI386) (lpgno : Word) : (s.pteAddr lpgno).toNat % 4 = 0 :=
  add_low (pageMask_low _) (mul_four_low _)

theorem toNat_add_small {a : Word} (h : a.toNat % 4 = 0) {k : Nat} (hk : k < 4) :
    (a + BitVec.ofNat 32 k).toNat = a.toNat + k := by
  have ha := a.isLt
  rw [BitVec.toNat_add, BitVec.toNat_ofNat]
  omega

theorem Marks.byteAt_add {s s' : CPUI386} (h : Marks s s') {a : Word} (ha : a.toNat % 4 = 0)
    {k : Nat} (hk : 0 < k) (hk' : k < 4) :
    s'.byteAt (a + BitVec.ofNat 32 k) = s.byteAt (a + BitVec.ofNat 32 k) := by
  obtain ⟨b, hb⟩ := h.at_ (a + BitVec.ofNat 32 k)
  by_cases h0 : b = 0
  · rw [hb.byte, h0]
    simp
  · have hl := hb.low h0
    rw [toNat_add_small ha hk'] at hl
    omega

theorem Marks.dwordAt {s s' : CPUI386} (h : Marks s s') {a : Word} (ha : a.toNat % 4 = 0) :
    ∃ b : Byte, b &&& ~~~(accessed ||| dirty) = 0 ∧
      s'.dwordAt a = s.dwordAt a ||| b.setWidth 32 := by
  obtain ⟨b, hb⟩ := h.at_ a
  refine ⟨b, hb.bits, ?_⟩
  have h1 : s'.byteAt (a + 1) = s.byteAt (a + 1) :=
    h.byteAt_add ha (k := 1) (by decide) (by decide)
  have h2 : s'.byteAt (a + 2) = s.byteAt (a + 2) :=
    h.byteAt_add ha (k := 2) (by decide) (by decide)
  have h3 : s'.byteAt (a + 3) = s.byteAt (a + 3) :=
    h.byteAt_add ha (k := 3) (by decide) (by decide)
  rw [CPUI386.dwordAt, CPUI386.dwordAt, h1, h2, h3, hb.byte]
  apply BitVec.eq_of_getLsbD_eq
  intro i hi
  simp only [BitVec.getLsbD_append, BitVec.getLsbD_or, BitVec.getLsbD_setWidth]
  by_cases h8 : i < 8
  · simp [h8, hi]
  · have hb8 : b.getLsbD i = false := BitVec.getLsbD_of_ge b i (by omega)
    simp [h8, hb8]

theorem Marks.getLsbD {s s' : CPUI386} (h : Marks s s') {a : Word} (ha : a.toNat % 4 = 0) {i : Nat}
    (hi : i ≠ 5 ∧ i ≠ 6) : (s'.dwordAt a).getLsbD i = (s.dwordAt a).getLsbD i := by
  obtain ⟨b, hb, hd⟩ := h.dwordAt ha
  have hbi : b.getLsbD i = false := by
    by_cases h8 : i < 8
    · have hx := congrArg (fun x : Byte => x.getLsbD i) hb
      have hm : (~~~(accessed ||| dirty)).getLsbD i = true := by
        have : i = 0 ∨ i = 1 ∨ i = 2 ∨ i = 3 ∨ i = 4 ∨ i = 7 := by omega
        rcases this with rfl | rfl | rfl | rfl | rfl | rfl <;> rfl
      simpa [BitVec.getLsbD_and, hm] using hx
    · exact BitVec.getLsbD_of_ge b i (by omega)
  rw [hd, BitVec.getLsbD_or, BitVec.getLsbD_setWidth, hbi, Bool.and_false, Bool.or_false]

theorem Marks.frame {s s' : CPUI386} (h : Marks s s') {a : Word} (ha : a.toNat % 4 = 0) :
    s'.dwordAt a &&& pageMask = s.dwordAt a &&& pageMask := by
  apply BitVec.eq_of_getLsbD_eq
  intro i hi
  rw [BitVec.getLsbD_and, BitVec.getLsbD_and]
  by_cases h12 : i < 12
  · have hm : pageMask.getLsbD i = false := by
      have : ∀ j : Fin 12, pageMask.getLsbD j.val = false := by decide
      exact this ⟨i, h12⟩
    rw [hm, Bool.and_false, Bool.and_false]
  · rw [h.getLsbD ha (by omega)]

theorem Marks.pdeAddr {s s' : CPUI386} (h : Marks s s') (lpgno : Word) :
    s'.pdeAddr lpgno = s.pdeAddr lpgno := by
  rw [CPUI386.pdeAddr, CPUI386.pdeAddr, h.cr3]

theorem Marks.pde_getLsbD {s s' : CPUI386} (h : Marks s s') (lpgno : Word) {i : Nat}
    (hi : i ≠ 5 ∧ i ≠ 6) : (s'.pde lpgno).getLsbD i = (s.pde lpgno).getLsbD i := by
  rw [CPUI386.pde, CPUI386.pde, h.pdeAddr]
  exact h.getLsbD (s.pdeAddr_low lpgno) hi

theorem Marks.pteAddr {s s' : CPUI386} (h : Marks s s') (lpgno : Word) :
    s'.pteAddr lpgno = s.pteAddr lpgno := by
  rw [CPUI386.pteAddr, CPUI386.pteAddr, CPUI386.pde, CPUI386.pde, h.pdeAddr,
    h.frame (s.pdeAddr_low lpgno)]

theorem Marks.pte_getLsbD {s s' : CPUI386} (h : Marks s s') (lpgno : Word) {i : Nat}
    (hi : i ≠ 5 ∧ i ≠ 6) : (s'.pte lpgno).getLsbD i = (s.pte lpgno).getLsbD i := by
  rw [CPUI386.pte, CPUI386.pte, h.pteAddr]
  exact h.getLsbD (s.pteAddr_low lpgno) hi

theorem Marks.walk {s s' : CPUI386} (h : Marks s s') (lpgno : Word) :
    s'.walk lpgno = s.walk lpgno := by
  have hframe : s'.pte lpgno &&& pageMask = s.pte lpgno &&& pageMask := by
    rw [CPUI386.pte, CPUI386.pte, h.pteAddr]
    exact h.frame (s.pteAddr_low lpgno)
  unfold CPUI386.walk
  rw [hframe, h.pteAddr, h.pde_getLsbD lpgno (by decide), h.pde_getLsbD lpgno (by decide),
    h.pde_getLsbD lpgno (by decide), h.pte_getLsbD lpgno (by decide),
    h.pte_getLsbD lpgno (by decide), h.pte_getLsbD lpgno (by decide)]

theorem Marks.trans {s s' s'' : CPUI386} (h : Marks s s') (h' : Marks s' s'') : Marks s s'' where
  at_ a := by
    obtain ⟨b, hb⟩ := h.at_ a
    obtain ⟨b', hb'⟩ := h'.at_ a
    refine ⟨b ||| b', ⟨?_, ?_, ?_⟩⟩
    · rw [hb'.byte, hb.byte, BitVec.or_assoc]
    · intro hne
      by_cases h0 : b = 0
      · by_cases h0' : b' = 0
        · exact absurd (by rw [h0, h0']; rfl) hne
        · exact hb'.low h0'
      · exact hb.low h0
    · apply BitVec.eq_of_getLsbD_eq
      intro i hi
      have e1 := congrArg (fun x : Byte => x.getLsbD i) hb.bits
      have e2 := congrArg (fun x : Byte => x.getLsbD i) hb'.bits
      simp only [BitVec.getLsbD_and, BitVec.getLsbD_or] at e1 e2 ⊢
      rw [Bool.and_or_distrib_right, e1, e2]
      exact Bool.or_self _
  cr3 := h'.cr3.trans h.cr3

theorem Marks.congr {s t t' : CPUI386} (h : Marks s t) (hm : t'.mem = t.mem)
    (hc : t'.cr3 = t.cr3) : Marks s t' where
  at_ a := by
    obtain ⟨b, hb⟩ := h.at_ a
    refine ⟨b, ⟨?_, hb.low, hb.bits⟩⟩
    rw [← hb.byte, CPUI386.byteAt, CPUI386.byteAt, hm]
  cr3 := hc.trans h.cr3

theorem Marks.dirty_mono {s s' : CPUI386} (h : Marks s s') {a : Word}
    (hd : (s.byteAt a).getLsbD 6 = true) : (s'.byteAt a).getLsbD 6 = true := by
  obtain ⟨b, hb⟩ := h.at_ a
  rw [hb.byte, BitVec.getLsbD_or, hd, Bool.true_or]

end Winspire.Cpu
