import Winspire.Lib.Marking
import Winspire.Cpu.Accessed
import Winspire.Cpu.Crossing
import Winspire.Cpu.FetchRuns

/-!
# States seen from an earlier one

A run of fetches, loads and stores that stay away from the page tables leaves the tables of its
first state, up to accessed and dirty bits of the pages it looks at. So the bytes it reads are
those of the first state, or those it has stored since.
-/

namespace Winspire.Cpu

open Faulting Pages Marking

set_option autoImplicit false

namespace CPUI386

/-- The tables let page `l` be read, or written, at the current privilege; `x` leads from its
linear to its physical addresses. -/
def Grants (s : CPUI386) (write : Bool) (l x : Word) : Prop :=
  ∃ p, s.Maps l p ∧
    p.allows (hasBit s.cr0 cr0WP) (decide (0 < s.cpl)) write = true ∧ x = p.frame ^^^ (l <<< 12)

/-- The byte at the linear address `a` may be accessed, and lies at `q`. -/
structure Placed (s : CPUI386) (write : Bool) (a q : Word) : Prop where
  paged : hasBit s.cr0 cr0PG = true → s.Grants write (a >>> 12) (q ^^^ a)
  flat : hasBit s.cr0 cr0PG = false → q = a

/-- The marks of an access to page `l`. -/
structure MarkBit (s : CPUI386) (l : Word) (write : Bool) (a i : Nat) : Prop where
  paging : hasBit s.cr0 cr0PG = true
  linear : l.toNat < linearPages
  present : (s.pde l).getLsbD 0 = true
  bit : (a = (s.pdeAddr l).toNat ∧ i = 5) ∨
    ((s.pte l).getLsbD 0 = true ∧ a = (s.pteAddr l).toNat ∧ (i = 5 ∨ (write = true ∧ i = 6)))

def MarkOf (s : CPUI386) (P : Word → Bool → Prop) (a i : Nat) : Prop :=
  ∃ l write, P l write ∧ s.MarkBit l write a i

/-- Byte `a` belongs to an entry of the tables in use. -/
def InTables (s : CPUI386) (a : Nat) : Prop :=
  hasBit s.cr0 cr0PG = true ∧ ∃ l : Word, l.toNat < linearPages ∧
    ((∃ k, k < 4 ∧ a = (s.pdeAddr l).toNat + k) ∨
      ((s.pde l).getLsbD 0 = true ∧ ∃ k, k < 4 ∧ a = (s.pteAddr l).toNat + k))

/-- An access to page `l` has nothing more to mark. -/
def Has (s : CPUI386) (l : Word) (write : Bool) : Prop :=
  hasBit s.cr0 cr0PG = true → l.toNat < linearPages →
    s.Seen l ∧ (write = true → (s.pde l).getLsbD 0 = true → s.IsDirty (s.pteAddr l))

end CPUI386

/-- `t` has the tables of `s`, up to marks. -/
structure SameTables (s t : CPUI386) : Prop where
  cr3 : t.cr3 = s.cr3
  pde : ∀ l : Word, l.toNat < linearPages → ∀ i, i ≠ 5 ∧ i ≠ 6 →
    (t.pde l).getLsbD i = (s.pde l).getLsbD i
  pte : ∀ l : Word, l.toNat < linearPages → (s.pde l).getLsbD 0 = true → ∀ i, i ≠ 5 ∧ i ≠ 6 →
    (t.dwordAt (s.pteAddr l)).getLsbD i = (s.pte l).getLsbD i

section Tables

variable {s t u : CPUI386} {l : Word}

theorem CPUI386.MarkBit.inTables {write : Bool} {a i : Nat} (h : s.MarkBit l write a i) : s.InTables a := by
  refine ⟨h.paging, l, h.linear, ?_⟩
  rcases h.bit with ⟨ha, -⟩ | ⟨-, ha, -⟩
  · exact Or.inl ⟨0, by decide, ha⟩
  · exact Or.inr ⟨h.present, 0, by decide, ha⟩

theorem SameTables.refl (s : CPUI386) : SameTables s s :=
  ⟨rfl, fun _ _ _ _ => rfl, fun _ _ _ _ _ => rfl⟩

theorem SameTables.pdeAddr (h : SameTables s t) (l : Word) : t.pdeAddr l = s.pdeAddr l := by
  rw [CPUI386.pdeAddr, CPUI386.pdeAddr, h.cr3]

theorem and_pageMask_congr {x y : Word} (h : ∀ i, i ≠ 5 ∧ i ≠ 6 → x.getLsbD i = y.getLsbD i) :
    x &&& pageMask = y &&& pageMask := by
  apply BitVec.eq_of_getLsbD_eq
  intro i _
  rw [BitVec.getLsbD_and, BitVec.getLsbD_and]
  by_cases h56 : i ≠ 5 ∧ i ≠ 6
  · rw [h i h56]
  · have hm : pageMask.getLsbD i = false := by
      obtain rfl | rfl : i = 5 ∨ i = 6 := by omega
      · rfl
      · rfl
    rw [hm, Bool.and_false, Bool.and_false]

theorem SameTables.pteAddr (h : SameTables s t) (hl : l.toNat < linearPages) :
    t.pteAddr l = s.pteAddr l := by
  rw [CPUI386.pteAddr, CPUI386.pteAddr, and_pageMask_congr (h.pde l hl)]

theorem SameTables.pte_getLsbD (h : SameTables s t) (hl : l.toNat < linearPages)
    (hp : (s.pde l).getLsbD 0 = true) {i : Nat} (hi : i ≠ 5 ∧ i ≠ 6) :
    (t.pte l).getLsbD i = (s.pte l).getLsbD i := by
  rw [CPUI386.pte, h.pteAddr hl]
  exact h.pte l hl hp i hi

theorem SameTables.walk (h : SameTables s t) (hl : l.toNat < linearPages) :
    t.walk l = s.walk l := by
  have hpde : ∀ i, i ≠ 5 ∧ i ≠ 6 → (t.pde l).getLsbD i = (s.pde l).getLsbD i := h.pde l hl
  unfold CPUI386.walk
  rw [hpde 0 (by decide)]
  cases hp : (s.pde l).getLsbD 0 with
  | false => rfl
  | true =>
    have hpte : ∀ i, i ≠ 5 ∧ i ≠ 6 → (t.pte l).getLsbD i = (s.pte l).getLsbD i :=
      fun i hi => h.pte_getLsbD hl hp hi
    rw [hpte 0 (by decide), hpte 1 (by decide), hpte 2 (by decide), hpde 1 (by decide),
      hpde 2 (by decide), and_pageMask_congr hpte, h.pteAddr hl]

theorem SameTables.walkInMem (h : SameTables s t) (hsize : t.memSize = s.memSize)
    (hl : l.toNat < linearPages) : t.WalkInMem l ↔ s.WalkInMem l := by
  unfold CPUI386.WalkInMem
  rw [h.pdeAddr, h.pteAddr hl, h.pde l hl 0 (by decide), hsize]

theorem SameTables.maps (h : SameTables s t) (hsize : t.memSize = s.memSize)
    (hl : l.toNat < linearPages) {p : Page} : t.Maps l p ↔ s.Maps l p := by
  unfold CPUI386.Maps
  rw [h.walk hl, h.walkInMem hsize hl]

theorem SameTables.marks (h : SameTables s t) (hm : Marks t u) : SameTables s u where
  cr3 := hm.cr3.trans h.cr3
  pde l hl i hi := (hm.pde_getLsbD l hi).trans (h.pde l hl i hi)
  pte l hl hp i hi := by
    rw [hm.getLsbD (s.pteAddr_low l) hi]
    exact h.pte l hl hp i hi

theorem SameTables.markBit (h : SameTables s t) (hcr0 : t.cr0 = s.cr0) {write : Bool} {a i : Nat} :
    t.MarkBit l write a i ↔ s.MarkBit l write a i := by
  constructor
  · rintro ⟨hpg, hl, hp, hbit⟩
    have hps : (s.pde l).getLsbD 0 = true := (h.pde l hl 0 (by decide)).symm.trans hp
    rw [h.pdeAddr, h.pteAddr hl, h.pte_getLsbD hl hps (by decide)] at hbit
    exact ⟨by rw [← hcr0]; exact hpg, hl, hps, hbit⟩
  · rintro ⟨hpg, hl, hp, hbit⟩
    refine ⟨by rw [hcr0]; exact hpg, hl, (h.pde l hl 0 (by decide)).trans hp, ?_⟩
    rw [h.pdeAddr, h.pteAddr hl, h.pte_getLsbD hl hp (by decide)]
    exact hbit

theorem dwordAt_congr_bytes {a : Word} (ha : a.toNat % 4 = 0)
    (h : ∀ k, k < 4 → t.mem (a.toNat + k) = s.mem (a.toNat + k)) : t.dwordAt a = s.dwordAt a := by
  have hb : ∀ k, k < 4 → t.byteAt (a + BitVec.ofNat 32 k) = s.byteAt (a + BitVec.ofNat 32 k) := by
    intro k hk
    rw [CPUI386.byteAt, CPUI386.byteAt, toNat_add_small ha hk]
    exact h k hk
  have h0 : t.byteAt a = s.byteAt a := h 0 (by decide)
  have h1 : t.byteAt (a + 1) = s.byteAt (a + 1) := hb 1 (by decide)
  have h2 : t.byteAt (a + 2) = s.byteAt (a + 2) := hb 2 (by decide)
  have h3 : t.byteAt (a + 3) = s.byteAt (a + 3) := hb 3 (by decide)
  rw [CPUI386.dwordAt, CPUI386.dwordAt, h0, h1, h2, h3]

structure Outside (t u : CPUI386) : Prop where
  rest : u = { t with mem := u.mem }
  same : ∀ a, t.InTables a → u.mem a = t.mem a

theorem Outside.pde (h : Outside t u) (hpg : hasBit t.cr0 cr0PG = true)
    (hl : l.toNat < linearPages) : u.pde l = t.pde l := by
  have haddr : u.pdeAddr l = t.pdeAddr l := by
    rw [CPUI386.pdeAddr, CPUI386.pdeAddr, h.rest]
  rw [CPUI386.pde, CPUI386.pde, haddr]
  apply dwordAt_congr_bytes (t.pdeAddr_low l)
  intro k hk
  exact h.same _ ⟨hpg, l, hl, Or.inl ⟨k, hk, rfl⟩⟩

theorem Outside.pteAddr (h : Outside t u) (hpg : hasBit t.cr0 cr0PG = true)
    (hl : l.toNat < linearPages) : u.pteAddr l = t.pteAddr l := by
  rw [CPUI386.pteAddr, CPUI386.pteAddr, h.pde hpg hl]

theorem Outside.dwordAt_pte (h : Outside t u) (hpg : hasBit t.cr0 cr0PG = true)
    (hl : l.toNat < linearPages) (hp : (t.pde l).getLsbD 0 = true) :
    u.dwordAt (t.pteAddr l) = t.pte l := by
  rw [CPUI386.pte]
  apply dwordAt_congr_bytes (t.pteAddr_low l)
  intro k hk
  exact h.same _ ⟨hpg, l, hl, Or.inr ⟨hp, k, hk, rfl⟩⟩

theorem Outside.keepsTables (h : Outside t u) (hpg : hasBit t.cr0 cr0PG = true) :
    KeepsTables t u where
  memSize := by rw [h.rest]
  tlb := by rw [h.rest]
  read := by rw [h.rest]
  write := by rw [h.rest]
  cr3 := by rw [h.rest]
  wp := by rw [h.rest]
  pde _ hl := h.pde hpg hl
  pte _ hl hp := h.dwordAt_pte hpg hl hp

theorem Outside.sameTables (h : Outside t u) (hpg : hasBit t.cr0 cr0PG = true)
    (hs : SameTables s t) : SameTables s u where
  cr3 := by
    rw [h.rest]
    exact hs.cr3
  pde l hl i hi := by
    rw [h.pde hpg hl]
    exact hs.pde l hl i hi
  pte l hl hp i hi := by
    have hpt : (t.pde l).getLsbD 0 = true := (hs.pde l hl 0 (by decide)).trans hp
    have hd := h.dwordAt_pte hpg hl hpt
    rw [hs.pteAddr hl] at hd
    rw [hd]
    exact hs.pte_getLsbD hl hp hi

theorem Outside.seen (h : Outside t u) (hpg : hasBit t.cr0 cr0PG = true)
    (hl : l.toNat < linearPages) (hs : t.Seen l) : u.Seen l where
  pde hp := by
    rw [h.pde hpg hl] at hp ⊢
    exact hs.pde hp
  pte hp ht := by
    rw [h.pde hpg hl] at hp
    rw [CPUI386.pte, h.pteAddr hpg hl, h.dwordAt_pte hpg hl hp] at ht ⊢
    exact hs.pte hp ht

end Tables

/-- The caches and the kept page agree with the tables, and their pages have been seen; they are
empty while paging is off. -/
structure CacheInv (s : CPUI386) : Prop where
  fetch : FetchInv s
  cs : ¬ NullSegment s .cs
  seen : SlotsSeen linearPages s
  kept : hasBit s.cr0 cr0PG = true → s.ifetch.laddr ≠ noPage → s.Seen (s.ifetch.laddr >>> 12)
  off : hasBit s.cr0 cr0PG = false → s.Cleared

/-- `t` comes from `s` by looking at the pages of `P` and storing the bytes of `O`, none of them in
the tables; the registers apart. -/
structure View (s : CPUI386) (P : Word → Bool → Prop) (O : Nat → Option Byte) (t : CPUI386) :
    Prop where
  frame : t = { s with
    flags := t.flags, cc := t.cc, gpr := t.gpr, ip := t.ip, nextIp := t.nextIp, mem := t.mem,
    tlb := t.tlb, dtlbRead := t.dtlbRead, dtlbWrite := t.dtlbWrite, ifetch := t.ifetch }
  caches : CacheInv t
  tables : hasBit s.cr0 cr0PG = true → SameTables s t
  mem : Overlaid (s.MarkOf P) O s.mem t.mem
  apart : ∀ a, O a ≠ none → ¬ s.InTables a

/-- One view after another: the registers stay, and EIP moves by `n`. -/
structure Glance (s : CPUI386) (P : Word → Bool → Prop) (O : Nat → Option Byte) (n : Word)
    (t t' : CPUI386) : Prop where
  view : View s P O t'
  flags : t'.toLazyFlags = t.toLazyFlags
  gpr : t'.gpr = t.gpr
  ip : t'.ip = t.ip
  nextIp : t'.nextIp = t.nextIp + n
  later : ∀ l write, t.Has l write → t'.Has l write
  top : t'.ifetch.laddr = noPage → t.ifetch.laddr = noPage

/-- A look at memory leaves the fetch alone. -/
structure Look (s : CPUI386) (P : Word → Bool → Prop) (O : Nat → Option Byte) (t t' : CPUI386) :
    Prop extends Glance s P O 0 t t' where
  ifetch : t'.ifetch = t.ifetch

section Views

variable {s t t' u : CPUI386} {P : Word → Bool → Prop} {O O' : Nat → Option Byte} {l : Word}
  {n m : Word} {write : Bool}

theorem View.refl (hc : CacheInv s) : View s P (fun _ => none) s where
  frame := rfl
  caches := hc
  tables _ := SameTables.refl s
  mem := Overlaid.refl _ _
  apart _ h := absurd rfl h

theorem Glance.refl (hv : View s P O t) : Glance s P O 0 t t :=
  ⟨hv, rfl, rfl, rfl, (BitVec.add_zero _).symm, fun _ _ h => h, fun h => h⟩

theorem Glance.trans (h : Glance s P O' n t t') (h' : Glance s P O m t' u) :
    Glance s P O (n + m) t u where
  view := h'.view
  flags := h'.flags.trans h.flags
  gpr := h'.gpr.trans h.gpr
  ip := h'.ip.trans h.ip
  nextIp := by rw [h'.nextIp, h.nextIp, BitVec.add_assoc]
  later l write hh := h'.later l write (h.later l write hh)
  top hh := h.top (h'.top hh)

theorem Look.refl (hv : View s P O t) : Look s P O t t := ⟨Glance.refl hv, rfl⟩

theorem Glance.same_ip (h : Glance s P O 0 t u) : u.nextIp = t.nextIp :=
  h.nextIp.trans (BitVec.add_zero _)

theorem Look.trans (h : Look s P O' t t') (h' : Look s P O t' u) : Look s P O t u where
  toGlance := by
    have hzero : (0 : Word) + 0 = 0 := rfl
    have hgl := h.toGlance.trans h'.toGlance
    rw [hzero] at hgl
    exact hgl
  ifetch := h'.ifetch.trans h.ifetch

theorem View.cr0 (hv : View s P O t) : t.cr0 = s.cr0 := by rw [hv.frame]

theorem View.cpl (hv : View s P O t) : t.cpl = s.cpl := by rw [hv.frame]

theorem View.seg (hv : View s P O t) : t.seg = s.seg := by rw [hv.frame]

theorem View.memSize (hv : View s P O t) : t.memSize = s.memSize := by rw [hv.frame]

theorem View.cb (hv : View s P O t) : t.cb = s.cb := by rw [hv.frame]

theorem View.paging (hv : View s P O t) : hasBit t.cr0 cr0PG = hasBit s.cr0 cr0PG := by
  rw [hv.cr0]

theorem View.markOf (hv : View s P O t) {a i : Nat} : t.MarkOf P a i ↔ s.MarkOf P a i := by
  constructor
  · rintro ⟨l, write, hP, hb⟩
    have hs := hv.tables (hv.paging.symm.trans hb.paging)
    exact ⟨l, write, hP, (hs.markBit hv.cr0).mp hb⟩
  · rintro ⟨l, write, hP, hb⟩
    exact ⟨l, write, hP, ((hv.tables hb.paging).markBit hv.cr0).mpr hb⟩

theorem CPUI386.MarkOf.inTables {a i : Nat} (h : s.MarkOf P a i) : s.InTables a := by
  obtain ⟨l, write, -, hb⟩ := h
  exact hb.inTables

theorem View.byte (hv : View s P O t) {a : Nat} (ha : ¬ s.InTables a) :
    t.mem a = (O a).getD (s.mem a) :=
  hv.mem.unmarked fun _ hi => ha hi.inTables

theorem View.grants (hv : View s P O t) (hpg : hasBit s.cr0 cr0PG = true)
    (hl : l.toNat < linearPages) {x : Word} :
    t.Grants write l x ↔ s.Grants write l x := by
  unfold CPUI386.Grants
  rw [hv.cr0, hv.cpl]
  simp only [(hv.tables hpg).maps hv.memSize hl]

theorem View.placed (hv : View s P O t) {a q : Word} :
    t.Placed write a q ↔ s.Placed write a q := by
  constructor
  · rintro ⟨hpaged, hflat⟩
    rw [hv.cr0] at hpaged hflat
    exact ⟨fun hpg => (hv.grants hpg (lshr_twelve_lt a)).mp (hpaged hpg), hflat⟩
  · rintro ⟨hpaged, hflat⟩
    constructor
    · intro hpg
      rw [hv.cr0] at hpg
      exact (hv.grants hpg (lshr_twelve_lt a)).mpr (hpaged hpg)
    · rw [hv.cr0]
      exact hflat

/-- An access to a page that has been looked at marks nothing more. -/
theorem CPUI386.Has.marks (h : t.Has l write) (hm : Marks t u)
    (hcr0 : u.cr0 = t.cr0) : u.Has l write := by
  intro hpg hl
  rw [hcr0] at hpg
  obtain ⟨hs, hd⟩ := h hpg hl
  refine ⟨hs.marks hm, fun hw hp => ?_⟩
  rw [hm.pde_getLsbD l (by decide)] at hp
  rw [hm.pteAddr]
  exact hm.dirty_mono (hd hw hp)

theorem CPUI386.Has.bit (h : t.Has l write) {a i : Nat} (hb : t.MarkBit l write a i) :
    (t.mem a).getLsbD i = true := by
  obtain ⟨hs, hd⟩ := h hb.paging hb.linear
  rcases hb.bit with ⟨rfl, rfl⟩ | ⟨hp, rfl, rfl | ⟨hw, rfl⟩⟩
  · have h5 := hs.pde hb.present
    rw [CPUI386.pde, getLsbD_dwordAt_low _ _ (by decide)] at h5
    exact h5
  · have h5 := hs.pte hb.present hp
    rw [CPUI386.pte, getLsbD_dwordAt_low _ _ (by decide)] at h5
    exact h5
  · exact hd hw hb.present

theorem setMem_or_bit (t : CPUI386) (x : Word) (b : Byte) (a i : Nat) :
    ((t.setMem x (t.byteAt x ||| b)).mem a).getLsbD i = true ↔
      (t.mem a).getLsbD i = true ∨ (a = x.toNat ∧ b.getLsbD i = true) := by
  unfold CPUI386.setMem CPUI386.byteAt
  by_cases ha : a = x.toNat
  · subst ha
    simp only [Function.update_self, BitVec.getLsbD_or, Bool.or_eq_true, true_and]
  · simp only [Function.update_of_ne ha, ha, false_and, or_false]

theorem accessed_bit (i : Nat) : accessed.getLsbD i = true ↔ i = 5 := by
  have h : accessed = BitVec.twoPow 8 5 := rfl
  rw [h, BitVec.getLsbD_twoPow, Bool.and_eq_true, decide_eq_true_eq, decide_eq_true_eq]
  exact ⟨fun h => h.2.symm, fun h => ⟨by decide, h.symm⟩⟩

theorem dirty_bit (i : Nat) : dirty.getLsbD i = true ↔ i = 6 := by
  have h : dirty = BitVec.twoPow 8 6 := rfl
  rw [h, BitVec.getLsbD_twoPow, Bool.and_eq_true, decide_eq_true_eq, decide_eq_true_eq]
  exact ⟨fun h => h.2.symm, fun h => ⟨by decide, h.symm⟩⟩

/-- The bits of `m'` are those of `m` and marks of page `l`. -/
structure MarksPage (t : CPUI386) (l : Word) (write : Bool) (m' : Nat → Byte) : Prop where
  keep : ∀ a i, (t.mem a).getLsbD i = true → (m' a).getLsbD i = true
  only : ∀ a i, (m' a).getLsbD i = true → (t.mem a).getLsbD i = true ∨ t.MarkBit l write a i

theorem MarksPage.refl (t : CPUI386) (l : Word) (write : Bool) : MarksPage t l write t.mem :=
  ⟨fun _ _ h => h, fun _ _ h => Or.inl h⟩

theorem marksPage_accessed (hpg : hasBit t.cr0 cr0PG = true) (hl : l.toNat < linearPages)
    (write : Bool) : MarksPage t l write (t.markAccessed l).mem := by
  unfold CPUI386.markAccessed
  by_cases hd : (t.pde l).getLsbD 0 = true
  · rw [if_pos hd]
    by_cases ht : (t.pte l).getLsbD 0 = true
    · simp only [ht, if_true]
      constructor
      · intro a i hi
        rw [setMem_or_bit, setMem_or_bit]
        exact Or.inl (Or.inl hi)
      · intro a i hi
        rw [setMem_or_bit, setMem_or_bit, accessed_bit] at hi
        rcases hi with (hi | ⟨ha, hi⟩) | ⟨ha, hi⟩
        · exact Or.inl hi
        · exact Or.inr ⟨hpg, hl, hd, Or.inl ⟨ha, hi⟩⟩
        · exact Or.inr ⟨hpg, hl, hd, Or.inr ⟨ht, ha, Or.inl hi⟩⟩
    · simp only [ht]
      constructor
      · intro a i hi
        exact (setMem_or_bit _ _ _ _ _).mpr (Or.inl hi)
      · intro a i hi
        rcases (setMem_or_bit _ _ _ _ _).mp hi with hi | ⟨ha, hi⟩
        · exact Or.inl hi
        · exact Or.inr ⟨hpg, hl, hd, Or.inl ⟨ha, (accessed_bit i).mp hi⟩⟩
  · rw [if_neg hd]
    exact MarksPage.refl t l write

theorem marksPage_marked {rwm : Nat} (hpg : hasBit t.cr0 cr0PG = true) (hl : l.toNat < linearPages)
    {p : Page} (hw : t.walk l = some p) :
    MarksPage t l (rwm.testBit 1) (t.marked rwm l).mem := by
  have hacc := marksPage_accessed hpg hl (rwm.testBit 1)
  have hm := markAccessed_marks t l
  unfold CPUI386.marked
  by_cases hb : rwm.testBit 1 = true
  · rw [if_pos hb, CPUI386.markDirty, hm.pteAddr]
    constructor
    · intro a i hi
      exact (setMem_or_bit _ _ _ _ _).mpr (Or.inl (hacc.keep a i hi))
    · intro a i hi
      rcases (setMem_or_bit _ _ _ _ _).mp hi with hi | ⟨ha, hi⟩
      · exact hacc.only a i hi
      · right
        refine ⟨hpg, hl, CPUI386.walk_present hw, Or.inr ⟨?_, ha, Or.inr ⟨hb, (dirty_bit i).mp hi⟩⟩⟩
        unfold CPUI386.walk at hw
        rw [CPUI386.walk_present (p := p) hw, Bool.true_and] at hw
        by_contra hn
        rw [if_neg hn] at hw
        cases hw
  · rw [if_neg hb]
    exact hacc

theorem CacheInv.cached (hi : CacheInv t) (hpg : hasBit t.cr0 cr0PG = true) (hc : Cached t u)
    (hco : Coherent linearPages u) (hs : SlotsSeen linearPages u) : CacheInv u where
  fetch := hi.fetch.fetching hc.fetching hco (by rw [hc.rest]) (by rw [hc.rest])
  cs := by
    rw [nullSegment_congr hc.cr0 (by rw [hc.rest])]
    exact hi.cs
  seen := hs
  kept _ hn := by
    have hl : u.ifetch = t.ifetch := by rw [hc.rest]
    rw [hl] at hn ⊢
    exact (hi.kept hpg hn).marks hc.marks
  off hoff := by
    rw [hc.cr0, hpg] at hoff
    cases hoff

theorem View.cached (hv : View s P O t) (hpg : hasBit s.cr0 cr0PG = true) (hc : Cached t u)
    (hco : Coherent linearPages u) (hs : SlotsSeen linearPages u)
    (hm : MarksPage t l write u.mem) (hP : P l write) : Look s P O t u where
  view :=
    { frame := by
        rw [hc.rest, hv.frame]
      caches := hv.caches.cached (hv.paging.trans hpg) hc hco hs
      tables := fun hpg => (hv.tables hpg).marks hc.marks
      mem := by
        refine hv.mem.mark hm.keep ?_ fun a _ ha hE => hv.apart a ha hE.inTables
        intro a i hi
        rcases hm.only a i hi with hi | hi
        · exact Or.inl hi
        · exact Or.inr (hv.markOf.mp ⟨l, write, hP, hi⟩)
      apart := hv.apart }
  flags := by rw [hc.rest]
  gpr := by rw [hc.rest]
  ip := by rw [hc.rest]
  nextIp := by
    rw [hc.rest]
    exact (BitVec.add_zero _).symm
  later _ _ h := h.marks hc.marks hc.cr0
  top h := by
    rw [hc.rest] at h
    exact h
  ifetch := by rw [hc.rest]

/-- The exception state of `t`. -/
def CPUI386.withException (u t : CPUI386) : CPUI386 :=
  { u with cr2 := t.cr2, excno := t.excno, excerr := t.excerr }

theorem View.withException_eq (hv : View s P O t) (hv' : View s P O t') (u : CPUI386) :
    u.withException t' = u.withException t := by
  have hcr2 : t'.cr2 = t.cr2 := by rw [hv'.frame, hv.frame]
  have hno : t'.excno = t.excno := by rw [hv'.frame, hv.frame]
  have herr : t'.excerr = t.excerr := by rw [hv'.frame, hv.frame]
  unfold CPUI386.withException
  rw [hcr2, hno, herr]

theorem Look.withException (hv : View s P O t) (h : Look s P O t u) :
    Look s P O t (u.withException t) := by
  have hsame : u.withException t = u := hv.withException_eq h.view u ▸ rfl
  rw [hsame]
  exact h

theorem Look.then_fault (hv : View s P O t) (h : Look s P O t t')
    (h' : Look s P O t' (u.withException t')) : Look s P O t (u.withException t) := by
  rw [← hv.withException_eq h.view]
  exact h.trans h'

theorem CachedFault.withException (h : CachedFault t u) : Cached t (u.withException t) where
  marks := h.marks.congr rfl rfl
  rest := by
    rw [h.rest]
    rfl

theorem View.cachedFault (hv : View s P O t) (hpg : hasBit s.cr0 cr0PG = true)
    (hc : CachedFault t u) (hco : Coherent linearPages u) (hs : SlotsSeen linearPages u)
    (hm : MarksPage t l write u.mem) (hP : P l write) :
    Look s P O t (u.withException t) := by
  have hseen : SlotsSeen linearPages (u.withException t) :=
    hs.congr (fun _ _ h => h.marks ((Marks.refl u).congr rfl rfl)) (fun _ => Or.inl rfl)
      (fun _ => Or.inl rfl) (fun _ => Or.inl rfl)
  exact hv.cached hpg hc.withException ⟨hco.tlb, hco.read, hco.write⟩ hseen hm hP

theorem CacheInv.faithful (hi : CacheInv t) : Faithful linearPages t := ⟨hi.fetch.coherent, hi.seen⟩

theorem has_markAccessed (hm : u.mem = (t.markAccessed l).mem) (hc : u.cr3 = t.cr3) :
    u.Seen l := by
  have hcr3 : (t.markAccessed l).cr3 = t.cr3 := by rw [(MarksOnly.markAccessed t l).rest]
  exact (seen_markAccessed t l).marks ((Marks.refl _).congr hm (hc.trans hcr3.symm))

theorem has_marked {rwm : Nat} (hk : IsRwm rwm) (hm : u.mem = (t.marked rwm l).mem)
    (hc : u.cr3 = t.cr3) : u.Has l (decide (1 < rwm)) := by
  intro _ _
  have hmo := MarksOnly.markAccessed t l
  have hcr3 : (t.markAccessed l).cr3 = t.cr3 := by rw [hmo.rest]
  rw [← hk.testBit]
  unfold CPUI386.marked at hm
  by_cases hb : rwm.testBit 1 = true
  · rw [if_pos hb] at hm
    have hd := markDirty_marksOnly (t.markAccessed l) l
    have hmd : Marks (t.markAccessed l) u := hd.marks.congr hm (hc.trans (by rw [hd.rest, hcr3]))
    refine ⟨(seen_markAccessed t l).marks hmd, fun _ _ => ?_⟩
    rw [hmd.pteAddr]
    unfold CPUI386.IsDirty CPUI386.byteAt
    rw [hm]
    exact isDirty_setMem _ _
  · rw [if_neg hb] at hm
    exact ⟨has_markAccessed hm hc, fun h => absurd h hb⟩

theorem Granted.grants {rwm : Nat} {laddr q : Word} (h : Granted t u rwm l laddr t.cpl q) :
    t.Grants (decide (1 < rwm)) l (q ^^^ laddr) := by
  obtain ⟨p, hmaps, hallow, hq, -⟩ := h
  refine ⟨p, hmaps, hallow, ?_⟩
  rw [hq, xor_cancel]

theorem Denied.not_grants {rwm : Nat} {prot : Bool} {x : Word} (h : Denied t rwm l t.cpl prot) :
    ¬ t.Grants (decide (1 < rwm)) l x := by
  rintro ⟨p, hmaps, hallow, -⟩
  obtain ⟨-, h⟩ := h
  rw [hmaps.1] at h
  rw [h.2] at hallow
  cases hallow

theorem View.lookUp {rwm : Nat} {laddr : Word} (hv : View s P O t)
    (hpg : hasBit s.cr0 cr0PG = true) (hk : IsRwm rwm) (hl : l.toNat < linearPages)
    (hlook : P l false ∨ P l (decide (1 < rwm)))
    (hgrant : ∀ x, s.Grants (decide (1 < rwm)) l x → P l (decide (1 < rwm))) :
    wp (translateLpgnoFast rwm l laddr t.cpl)
      (fun q u => Look s P O t u ∧ u.Has l (decide (1 < rwm)) ∧
        s.Grants (decide (1 < rwm)) l (q ^^^ laddr))
      (fun u => Look s P O t (u.withException t) ∧ ∀ x, ¬ s.Grants (decide (1 < rwm)) l x)
      (fun _ => ∀ x, ¬ s.Grants (decide (1 < rwm)) l x) t := by
  have hf := hv.caches.faithful
  have hn : l ≠ noPage := ne_noPage (Nat.le_of_lt hl)
  have hpt := hv.paging.trans hpg
  refine wp_mono (wp_and (translateLpgnoFast_exact hf hn hl)
    (translateLpgnoFast_spec hf.coherent hn hk)) ?_ ?_ ?_
  · rintro q u ⟨⟨hmem, hs⟩, hret⟩
    have hgr := hret.granted hl
    obtain ⟨p, hmaps, -⟩ := hret.granted hl
    have hm : MarksPage t l (decide (1 < rwm)) u.mem := by
      rw [hmem, ← hk.testBit]
      exact marksPage_marked hpt hl hmaps.1
    have hgs := (hv.grants hpg hl).mp hgr.grants
    refine ⟨hv.cached hpg hret.cached hret.coherent hs hm (hgrant _ hgs), ?_, hgs⟩
    exact has_marked hk hmem (by rw [hret.cached.rest])
  · rintro u ⟨⟨hmem, hs⟩, href⟩
    obtain ⟨prot, -, hd⟩ := href.denied
    have hm : ∀ write, MarksPage t l write u.mem := by
      intro write
      rw [hmem]
      exact marksPage_accessed hpt hl _
    have hlost : Look s P O t (u.withException t) := by
      rcases hlook with hP | hP
      · exact hv.cachedFault hpg href.cached href.coherent hs (hm false) hP
      · exact hv.cachedFault hpg href.cached href.coherent hs (hm _) hP
    refine ⟨hlost, ?_⟩
    intro x hx
    exact (hd hl).not_grants ((hv.grants hpg hl).mpr hx)
  · rintro why ⟨-, hlost⟩ x hx
    obtain ⟨p, hmaps, -⟩ := (hv.grants hpg hl).mpr hx
    exact (hlost hl).2 hmaps.2

theorem translate8r_exact {seg : SegReg} {addr laddr : Word} (hf : Faithful linearPages t)
    (hpg : hasBit t.cr0 cr0PG = true) (hl : laddr = (t.seg seg).base + addr) :
    wp (translate8r seg addr)
      (fun res u => res.addr2 = none ∧ u.mem = (t.markAccessed (laddr >>> 12)).mem ∧
        SlotsSeen linearPages u)
      (fun u => ¬ NullSegment t seg → u.mem = (t.markAccessed (laddr >>> 12)).mem ∧
        SlotsSeen linearPages u) (fun _ => True) t := by
  subst hl
  generalize hladdr : (t.seg seg).base + addr = laddr
  unfold translate8r
  rw [wp_bind, wp_get, wp_bind]
  refine wp_segcheck (fun hn hnn => absurd hn hnn) ?_
  intro _
  simp only [hladdr]
  rw [if_pos hpg, wp_bind]
  refine wp_mono (tlbEntry_seen hf (ne_noPage_of_laddr laddr) (lshr_twelve_lt laddr)) ?_ ?_
    (fun _ _ => trivial)
  · rintro e u ⟨hu, he, -⟩
    have hrefits : Refits (laddr >>> 12) (t.markAccessed (laddr >>> 12)) u := by
      rw [hu]
      exact refits_tlbEntry he
    have hmem : u.mem = (t.markAccessed (laddr >>> 12)).mem := by rw [hu]
    rw [wp_bind]
    refine wp_onlyIf ?_ ?_
    · intro _
      rw [wp_bind, wp_modify]
      apply wp_pageFault
      intro t' ht' _ _
      refine ⟨?_, hf.seen.walked ((hrefits.trans (.tlb_update _ (.inr rfl))).trans (.of_fault ht'))⟩
      rw [ht', ← hmem]
      rfl
    · intro _
      rw [wp_pure]
      exact ⟨rfl, hmem, hf.seen.walked hrefits⟩
  · intro u hu _
    exact ⟨by rw [hu], hf.seen.walked (.of_fault hu)⟩

theorem View.nullSegment (hv : View s P O t) {seg : SegReg} :
    NullSegment t seg ↔ NullSegment s seg := nullSegment_congr hv.cr0 hv.seg seg

theorem CPUI386.Has.of_flat (h : hasBit t.cr0 cr0PG = false) : t.Has l write := by
  intro hpg
  rw [h] at hpg
  cases hpg

theorem View.code {seg : SegReg} {addr laddr : Word} (hv : View s P O t)
    (hl : laddr = (s.seg seg).base + addr) (hP : P (laddr >>> 12) false) :
    wp (translate8r seg addr)
      (fun res u => Look s P O t u ∧ u.Has (laddr >>> 12) false ∧ ¬ NullSegment s seg ∧
        s.Placed false laddr res.addr1 ∧ res.addr2 = none)
      (fun u => Look s P O t (u.withException t) ∧
        (NullSegment s seg ∨ ∀ q, ¬ s.Placed false laddr q))
      (fun _ => ∀ q, ¬ s.Placed false laddr q) t := by
  have hlt : laddr = (t.seg seg).base + addr := by rw [hl, hv.seg]
  have hf := hv.caches.faithful
  have hlp := lshr_twelve_lt laddr
  have hspec := @translate8r_spec linearPages t seg addr hf.coherent
  rw [← hlt] at hspec
  cases hpg : hasBit s.cr0 cr0PG with
  | true =>
    have hpt := hv.paging.trans hpg
    have hexact := translate8r_exact hf hpt hlt
    simp only [hpt, if_true] at hspec
    -- the null selector is checked before the page
    have hnull : wp (translate8r seg addr) (fun _ _ => ¬ NullSegment t seg)
        (fun u => NullSegment t seg → u = { t with excno := exGP, excerr := 0 }) (fun _ => True)
        t := by
      unfold translate8r
      rw [wp_bind, wp_get, wp_bind]
      refine wp_segcheck (fun _ _ => rfl) ?_
      intro hn
      exact wp_mono (wp_true _ _) (fun _ _ _ => hn) (fun _ _ h => absurd h hn) (fun _ h => h)
    refine wp_mono (wp_and hspec (wp_and hexact hnull)) ?_ ?_ ?_
    · rintro res u ⟨hret, ⟨h2, hmem, hs⟩, hn⟩
      have hgr := hret.granted hlp
      have hm : MarksPage t (laddr >>> 12) false u.mem := by
        rw [hmem]
        exact marksPage_accessed hpt hlp _
      refine ⟨hv.cached hpg hret.cached hret.coherent hs hm hP, ?_, ?_, ?_, h2⟩
      · intro _ _
        exact ⟨has_markAccessed hmem (by rw [hret.cached.rest]), fun h => nomatch h⟩
      · rw [← hv.nullSegment]
        exact hn
      · refine ⟨fun _ => (hv.grants hpg hlp).mp hgr.grants, fun h => ?_⟩
        rw [hpg] at h
        cases h
    · rintro u ⟨href, hex, hn⟩
      by_cases hseg : NullSegment t seg
      · rw [hn hseg]
        exact ⟨Look.refl hv, Or.inl (hv.nullSegment.mp hseg)⟩
      · rcases href with ⟨h, -⟩ | href
        · exact absurd h hseg
        · obtain ⟨hmem, hs⟩ := hex hseg
          obtain ⟨prot, -, hd⟩ := href.denied
          have hm : MarksPage t (laddr >>> 12) false u.mem := by
            rw [hmem]
            exact marksPage_accessed hpt hlp _
          refine ⟨hv.cachedFault hpg href.cached href.coherent hs hm hP, Or.inr ?_⟩
          intro q hq
          exact (hd hlp).not_grants ((hv.grants hpg hlp).mpr (hq.paged hpg))
    · rintro why ⟨hlost, -⟩ q hq
      obtain ⟨p, hmaps, -⟩ := (hv.grants hpg hlp).mpr (hq.paged hpg)
      exact (hlost hlp).2 hmaps.2
  | false =>
    have hpt := hv.paging.trans hpg
    unfold translate8r
    rw [wp_bind, wp_get, wp_bind]
    refine wp_segcheck ?_ ?_
    · intro hn
      exact ⟨Look.refl hv, Or.inl (hv.nullSegment.mp hn)⟩
    · intro hn
      simp only [← hlt]
      rw [if_neg (by rw [hpt]; decide), wp_pure]
      refine ⟨Look.refl hv, CPUI386.Has.of_flat hpt, ?_, ⟨?_, fun _ => rfl⟩, rfl⟩
      · rw [← hv.nullSegment]
        exact hn
      · intro h
        rw [hpg] at h
        cases h

theorem CPUI386.Grants.offset {x : Word} (h : t.Grants write l x) : offset 12 x = 0 := by
  obtain ⟨p, hmaps, -, rfl⟩ := h
  have hlow : ∀ i, i < 12 → (p.frame ^^^ (l <<< 12)).getLsbD i = false := by
    intro i hi
    rw [BitVec.getLsbD_xor, CPUI386.walk_frame_low hmaps.1 hi, BitVec.getLsbD_shiftLeft]
    simp [hi]
  rw [offset_and, and_fff_eq_zero hlow]
  rfl

theorem CPUI386.Placed.of_grants {x a : Word} (hpg : hasBit s.cr0 cr0PG = true)
    (h : s.Grants write l x) (ha : a >>> 12 = l) : s.Placed write a (x ^^^ a) where
  paged _ := by
    rw [ha, xor_cancel]
    exact h
  flat hn := by
    rw [hpg] at hn
    cases hn

/-- The bytes of an operand, where they lie. -/
structure PlacedAt (s : CPUI386) (write : Bool) (laddr : Word) (w : Width) (res : OptAddr) :
    Prop where
  fits : res.Fits w
  bytes : ∀ k, k < w.bytes → s.Placed write (linear laddr k) (res.byte k)

theorem placedAt_one {w : Width} {x laddr : Word} (hpg : hasBit s.cr0 cr0PG = true)
    (h : s.Grants write (laddr >>> 12) x) (hst : ¬ room laddr < w.bytes) :
    PlacedAt s write laddr w ⟨x ^^^ laddr, none⟩ where
  fits h2 := nomatch h2
  bytes k hk := by
    have hroom : k < room laddr := by omega
    rw [byte_one h.offset hroom]
    exact .of_grants hpg h (lshr_linear hroom)

theorem placedAt_two {w : Width} {x y laddr : Word} (hpg : hasBit s.cr0 cr0PG = true)
    (h : s.Grants write (laddr >>> 12) x) (h2 : s.Grants write (nextStart laddr >>> 12) y)
    (hst : room laddr < w.bytes) :
    PlacedAt s write laddr w ⟨x ^^^ laddr, some (y ^^^ nextStart laddr)⟩ where
  fits _ := by
    have ho := offset_lt_page laddr
    have hx : ((x ^^^ laddr) &&& 0xfff).toNat = offset 12 laddr := by
      rw [← offset_and, offset_xor_left h.offset]
    rw [hx]
    unfold room at hst
    omega
  bytes k hk := by
    rw [byte_two h.offset h2.offset hk]
    by_cases hroom : k < room laddr
    · rw [if_pos hroom]
      exact .of_grants hpg h (lshr_linear hroom)
    · rw [if_neg hroom]
      have hw := w.bytes_le
      exact .of_grants hpg h2 (lshr_next (by omega) (by omega))

theorem placedAt_flat {w : Width} {laddr : Word} (hpg : hasBit s.cr0 cr0PG = false) :
    PlacedAt s write laddr w ⟨laddr, none⟩ where
  fits h2 := nomatch h2
  bytes k _ := by
    refine ⟨fun h => ?_, fun _ => rfl⟩
    rw [hpg] at h
    cases h

def Spans (P : Word → Bool → Prop) (write : Bool) (laddr : Word) (w : Width) : Prop :=
  ∀ k, k < w.bytes → P (linear laddr k >>> 12) write

/-- The pages an access to an operand may mark. One that is denied is marked accessed and no more,
and the second is not looked up when the first is denied. -/
structure Covers (s : CPUI386) (P : Word → Bool → Prop) (write : Bool) (laddr : Word) (w : Width) :
    Prop where
  looked : ∀ k, k < w.bytes → (∀ j, j < k → ∃ q, s.Placed write (linear laddr j) q) →
    P (linear laddr k >>> 12) false ∨ P (linear laddr k >>> 12) write
  granted : ∀ k, k < w.bytes → (∀ j, j ≤ k → ∃ q, s.Placed write (linear laddr j) q) →
    P (linear laddr k >>> 12) write

theorem Spans.covers {laddr : Word} {w : Width} (h : Spans P write laddr w) :
    Covers s P write laddr w :=
  ⟨fun k hk _ => Or.inr (h k hk), fun k hk _ => h k hk⟩

/-- The look-up of a page of an operand, when the bytes before it are placed. -/
theorem View.lookByte {rwm k : Nat} {laddr a l : Word} {w : Width} (hv : View s P O t)
    (hpg : hasBit s.cr0 cr0PG = true) (hk : IsRwm rwm) (hP : Covers s P (decide (1 < rwm)) laddr w)
    (hkw : k < w.bytes) (hl : linear laddr k >>> 12 = l)
    (hbefore : ∀ j, j < k → ∃ q, s.Placed (decide (1 < rwm)) (linear laddr j) q) :
    wp (translateLpgnoFast rwm l a t.cpl)
      (fun q u => Look s P O t u ∧ u.Has l (decide (1 < rwm)) ∧
        s.Grants (decide (1 < rwm)) l (q ^^^ a))
      (fun u => Look s P O t (u.withException t) ∧
        ∃ k, k < w.bytes ∧ ∀ q, ¬ s.Placed (decide (1 < rwm)) (linear laddr k) q)
      (fun _ => ∃ k, k < w.bytes ∧ ∀ q, ¬ s.Placed (decide (1 < rwm)) (linear laddr k) q) t := by
  subst hl
  have hdenied : (∀ x, ¬ s.Grants (decide (1 < rwm)) (linear laddr k >>> 12) x) →
      ∃ k, k < w.bytes ∧ ∀ q, ¬ s.Placed (decide (1 < rwm)) (linear laddr k) q := by
    intro hno
    exact ⟨k, hkw, fun q hq => hno (q ^^^ linear laddr k) (hq.paged hpg)⟩
  have hgrant : ∀ x, s.Grants (decide (1 < rwm)) (linear laddr k >>> 12) x →
      P (linear laddr k >>> 12) (decide (1 < rwm)) := by
    intro x hx
    refine hP.granted k hkw fun j hj => ?_
    rcases Nat.lt_or_eq_of_le hj with hj | rfl
    · exact hbefore j hj
    · exact ⟨_, .of_grants hpg hx rfl⟩
  exact wp_mono (hv.lookUp hpg hk (lshr_twelve_lt _) (hP.looked k hkw hbefore) hgrant)
    (fun _ _ h => h) (fun _ h => ⟨h.1, hdenied h.2⟩) (fun _ h => hdenied h)

theorem has_two {laddr : Word} {w : Width} (hwrap : laddr.toNat + w.bytes ≤ 2 ^ 32)
    (hroom : room laddr < w.bytes) (h : t.Has (laddr >>> 12) write)
    (h2 : t.Has (nextPage laddr) write) (k : Nat) (hk : k < w.bytes) :
    t.Has (linear laddr k >>> 12) write := by
  by_cases hkr : k < room laddr
  · rw [lshr_linear hkr]
    exact h
  · have hw := w.bytes_le
    rw [lshr_next (by omega) (by omega), nextStart_lshr (next_of_no_wrap hwrap hroom)]
    exact h2

theorem View.operand {rwm : Nat} {laddr : Word} {w : Width} (hv : View s P O t) (hk : IsRwm rwm)
    (hwrap : hasBit s.cr0 cr0PG = true → laddr.toNat + w.bytes ≤ 2 ^ 32)
    (hP : Covers s P (decide (1 < rwm)) laddr w) :
    wp (translateLaddr rwm laddr w.bytes t.cpl)
      (fun res u => Look s P O t u ∧ PlacedAt s (decide (1 < rwm)) laddr w res ∧
        ∀ k, k < w.bytes → u.Has (linear laddr k >>> 12) (decide (1 < rwm)))
      (fun u => Look s P O t (u.withException t) ∧
        ∃ k, k < w.bytes ∧ ∀ q, ¬ s.Placed (decide (1 < rwm)) (linear laddr k) q)
      (fun _ => ∃ k, k < w.bytes ∧ ∀ q, ¬ s.Placed (decide (1 < rwm)) (linear laddr k) q) t := by
  unfold translateLaddr
  rw [wp_bind, wp_get]
  refine wp_ite ?_ ?_
  · intro hpt
    have hpg : hasBit s.cr0 cr0PG = true := hv.paging.symm.trans hpt
    have hwrap := hwrap hpg
    have hstart : linear laddr 0 >>> 12 = laddr >>> 12 := by rw [linear_zero]
    rw [wp_bind]
    refine wp_mono (hv.lookByte hpg hk hP w.bytes_pos hstart fun j hj =>
      absurd hj (Nat.not_lt_zero j)) ?_ (fun _ h => h) (fun _ h => h)
    rintro q u ⟨hgl, hhas, hgr⟩
    refine wp_ite ?_ ?_
    · intro hst
      have hroom : room laddr < w.bytes := (straddles_room w).mp hst
      have hnext : nextStart laddr >>> 12 = nextPage laddr :=
        nextStart_lshr (next_of_no_wrap hwrap hroom)
      have hcpl : t.cpl = u.cpl := by rw [hgl.view.cpl, hv.cpl]
      rw [wp_bind, hcpl]
      change wp (translateLpgnoFast rwm (nextPage laddr) (nextPage laddr <<< 12) u.cpl) _ _ _ u
      rw [nextPage_shl]
      refine wp_mono (hgl.view.lookByte hpg hk hP hroom hnext fun j hj =>
        ⟨_, .of_grants hpg hgr (lshr_linear hj)⟩) ?_ ?_ (fun _ h => h)
      · rintro q2 u2 ⟨hgl2, hhas2, hgr2⟩
        rw [wp_pure]
        refine ⟨hgl.trans hgl2, ?_, has_two hwrap hroom (hgl2.later _ _ hhas) hhas2⟩
        rw [← xor_cancel q laddr, ← xor_cancel q2 (nextStart laddr)]
        rw [← hnext] at hgr2
        exact placedAt_two hpg hgr hgr2 hroom
      · rintro u2 ⟨hgl2, hno⟩
        exact ⟨hgl.then_fault hv hgl2, hno⟩
    · intro hst
      have hroom : ¬ room laddr < w.bytes := fun h => hst ((straddles_room w).mpr h)
      rw [wp_pure]
      refine ⟨hgl, ?_, ?_⟩
      · rw [← xor_cancel q laddr]
        exact placedAt_one hpg hgr hroom
      · intro k hkw
        rw [lshr_linear (by omega)]
        exact hhas
  · intro hpt
    have hpf : hasBit t.cr0 cr0PG = false := Bool.eq_false_of_not_eq_true hpt
    rw [wp_pure]
    refine ⟨Look.refl hv, placedAt_flat ?_, fun _ _ => CPUI386.Has.of_flat hpf⟩
    rw [← hv.paging]
    exact hpf

theorem View.translate {rwm : Nat} {seg : SegReg} {addr laddr : Word} {w : Width}
    (hv : View s P O t) (hk : IsRwm rwm) (hl : laddr = (s.seg seg).base + addr)
    (hwrap : ¬ NullSegment s seg → hasBit s.cr0 cr0PG = true → laddr.toNat + w.bytes ≤ 2 ^ 32)
    (hP : ¬ NullSegment s seg → Covers s P (decide (1 < rwm)) laddr w) :
    wp (translate rwm seg addr w.bytes t.cpl)
      (fun res u => Look s P O t u ∧ ¬ NullSegment s seg ∧
        PlacedAt s (decide (1 < rwm)) laddr w res ∧
        ∀ k, k < w.bytes → u.Has (linear laddr k >>> 12) (decide (1 < rwm)))
      (fun u => Look s P O t (u.withException t) ∧ (NullSegment s seg ∨
        ∃ k, k < w.bytes ∧ ∀ q, ¬ s.Placed (decide (1 < rwm)) (linear laddr k) q))
      (fun _ => ∃ k, k < w.bytes ∧ ∀ q, ¬ s.Placed (decide (1 < rwm)) (linear laddr k) q) t := by
  have hlt : (t.seg seg).base + addr = laddr := by rw [hl, hv.seg]
  unfold Cpu.translate
  rw [wp_bind, wp_get, wp_bind]
  refine wp_segcheck ?_ ?_
  · intro hn
    exact ⟨Look.refl hv, Or.inl (hv.nullSegment.mp hn)⟩
  · intro hn
    rw [hlt]
    have hns : ¬ NullSegment s seg := by
      rw [← hv.nullSegment]
      exact hn
    refine wp_mono (hv.operand hk (hwrap hns) (hP hns)) ?_ ?_ (fun _ h => h)
    · rintro res u ⟨hgl, hpl, hhas⟩
      exact ⟨hgl, hns, hpl, hhas⟩
    · rintro u ⟨hgl, hno⟩
      exact ⟨hgl, Or.inr hno⟩

theorem CPUI386.Placed.unique {a q q' : Word} (h : s.Placed write a q) (h' : s.Placed write a q') :
    q = q' := by
  cases hpg : hasBit s.cr0 cr0PG with
  | true =>
    obtain ⟨p, hmaps, -, hx⟩ := h.paged hpg
    obtain ⟨p', hmaps', -, hx'⟩ := h'.paged hpg
    have hp : p = p' := Option.some.inj (hmaps.1.symm.trans hmaps'.1)
    rw [hp, ← hx'] at hx
    exact (BitVec.xor_left_inj a).mp hx
  | false => rw [h.flat hpg, h'.flat hpg]

theorem CPUI386.Placed.offset {a q : Word} (h : s.Placed write a q) :
    offset 12 q = offset 12 a := by
  cases hpg : hasBit s.cr0 cr0PG with
  | true =>
    have ho := (h.paged hpg).offset
    rw [offset_xor] at ho
    exact Nat.eq_of_xor_eq_zero ho
  | false => rw [h.flat hpg]

theorem PlacedAt.spread {laddr : Word} {w : Width} {res : OptAddr}
    (h : PlacedAt s write laddr w res) : Spread w res.byte := by
  intro j k hj hk heq
  apply linear_inj hj hk
  rw [← (h.bytes j hj).offset, ← (h.bytes k hk).offset, heq]

/-- The byte at the linear address `a` lies at `q`, in memory outside the tables. -/
structure CPUI386.Lies (s : CPUI386) (write : Bool) (a q : Word) : Prop where
  placed : s.Placed write a q
  ram : s.Ram q
  apart : ¬ s.InTables q.toNat

/-- What a view shows at a physical address. -/
def CPUI386.shows (s : CPUI386) (O : Nat → Option Byte) (q : Word) : Byte :=
  (O q.toNat).getD (s.mem q.toNat)

theorem View.ram (hv : View s P O t) {q : Word} (h : s.Ram q) : t.Ram q := by
  refine ⟨h.1, ?_⟩
  rw [CPUI386.inMem, hv.memSize]
  exact h.2

theorem PlacedAt.byte_eq {laddr : Word} {w : Width} {res : OptAddr}
    (h : PlacedAt s write laddr w res) {q : Nat → Word}
    (hq : ∀ k, k < w.bytes → s.Lies write (linear laddr k) (q k)) {k : Nat} (hk : k < w.bytes) :
    res.byte k = q k :=
  (h.bytes k hk).unique (hq k hk).placed

theorem View.load {laddr : Word} {w : Width} {res : OptAddr} (hv : View s P O t)
    (h : PlacedAt s write laddr w res) {q : Nat → Word}
    (hq : ∀ k, k < w.bytes → s.Lies write (linear laddr k) (q k)) :
    loadW res w t = .ok (leWord (fun k => s.shows O (q k)) w) t := by
  have hram : ∀ k, k < w.bytes → t.Ram (res.byte k) := by
    intro k hk
    rw [h.byte_eq hq hk]
    exact hv.ram (hq k hk).ram
  have hto : MemOp.ToMem res t (.load w) := toMem_load (hram 0 w.bytes_pos) t.mem
  have hin : res.mapped.InMem w t := by
    rw [mapped_ram h.fits hram]
    exact fun k hk => (hram k hk).2
  rw [loadW_toMem h.fits hto hin, mapped_ram h.fits hram]
  refine congrArg (fun v => Result.ok v t) (leWord_congr ?_)
  intro k hk
  rw [h.byte_eq hq hk, CPUI386.byteAt]
  exact hv.byte (hq k hk).apart

/-- The bytes of `v` over `O`. -/
def put (O : Nat → Option Byte) (q : Nat → Word) (v : Word) (w : Width) (a : Nat) : Option Byte :=
  match (List.range w.bytes).find? fun k => (q k).toNat = a with
  | some k => some (byteOf v k)
  | none => O a

theorem put_other {q : Nat → Word} {v : Word} {w : Width} {a : Nat}
    (h : ∀ k, k < w.bytes → a ≠ (q k).toNat) : put O q v w a = O a := by
  have hnone : (List.range w.bytes).find? (fun k => (q k).toNat = a) = none := by
    rw [List.find?_eq_none]
    intro k hk heq
    exact h k (List.mem_range.mp hk) (of_decide_eq_true heq).symm
  rw [put, hnone]

theorem put_at {q : Nat → Word} {v : Word} {w : Width} (hs : Spread w q) {k : Nat}
    (hk : k < w.bytes) : put O q v w (q k).toNat = some (byteOf v k) := by
  unfold put
  cases hf : (List.range w.bytes).find? (fun j => (q j).toNat = (q k).toNat) with
  | none =>
    rw [List.find?_eq_none] at hf
    exact absurd (decide_eq_true rfl) (hf k (List.mem_range.mpr hk))
  | some j =>
    have hj := List.mem_range.mp (List.mem_of_find?_eq_some hf)
    have hdec := List.find?_some hf
    have heq := of_decide_eq_true hdec
    simp only [hs j k hj hk (BitVec.eq_of_toNat_eq heq)]

theorem put_put (q : Nat → Word) (v v' : Word) (w : Width) :
    put (put O q v w) q v' w = put O q v' w := by
  funext a
  unfold put
  cases (List.range w.bytes).find? (fun k => (q k).toNat = a) with
  | none => rfl
  | some k => rfl

theorem Outside.mapsCode (h : Outside t u) (a : Word) : u.mapsCode a = t.mapsCode a := by
  cases hpg : hasBit t.cr0 cr0PG with
  | true => exact mapsCode_congr (h.keepsTables hpg).samePages (by rw [h.rest]) a
  | false =>
    have hpu : hasBit u.cr0 cr0PG = false := by
      rw [h.rest]
      exact hpg
    unfold CPUI386.mapsCode
    rw [hpg, hpu, if_neg (by decide), if_neg (by decide)]

theorem Outside.cleared (h : Outside t u) (hc : t.Cleared) : u.Cleared := by
  rw [h.rest]
  exact ⟨hc.tlb, hc.read, hc.write⟩

theorem Outside.faithful (h : Outside t u) (hi : CacheInv t) : Faithful linearPages u := by
  cases hpg : hasBit t.cr0 cr0PG with
  | true =>
    refine ⟨(h.keepsTables hpg).coherent hi.fetch.coherent, ?_⟩
    exact hi.seen.congr (fun l hl hs => h.seen hpg hl hs) (fun i => Or.inl (by rw [h.rest]))
      (fun i => Or.inl (by rw [h.rest])) (fun i => Or.inl (by rw [h.rest]))
  | false => exact (h.cleared (hi.off hpg)).faithful

theorem CacheInv.outside (hi : CacheInv t) (h : Outside t u) : CacheInv u := by
  have hifetch : u.ifetch = t.ifetch := by rw [h.rest]
  have hcr0 : u.cr0 = t.cr0 := by rw [h.rest]
  have hf := h.faithful hi
  refine ⟨⟨hf.coherent, ?_, ?_⟩, ?_, hf.seen, ?_, ?_⟩
  · exact hi.fetch.fitted.congr (by rw [h.rest]) (by rw [h.rest])
  · intro hn
    rw [hifetch] at hn
    exact (hi.fetch.kept hn).congr (by rw [hifetch]) (by rw [hifetch]) (by rw [h.rest])
      (by rw [h.rest]) fun a _ => h.mapsCode a
  · rw [nullSegment_congr hcr0 (by rw [h.rest])]
    exact hi.cs
  · intro hpg hn
    rw [hcr0] at hpg
    rw [hifetch] at hn ⊢
    exact h.seen hpg (lshr_twelve_lt _) (hi.kept hpg hn)
  · intro hoff
    rw [hcr0] at hoff
    exact h.cleared (hi.off hoff)

theorem CPUI386.Has.outside (h : t.Has l write) (ho : Outside t u) : u.Has l write := by
  have hcr0 : u.cr0 = t.cr0 := by rw [ho.rest]
  intro hpg hl
  rw [hcr0] at hpg
  obtain ⟨hs, hd⟩ := h hpg hl
  refine ⟨ho.seen hpg hl hs, fun hw hp => ?_⟩
  rw [ho.pde hpg hl] at hp
  have hbyte := hd hw hp
  rw [ho.pteAddr hpg hl]
  unfold CPUI386.IsDirty CPUI386.byteAt at hbyte ⊢
  have hsame : u.mem (t.pteAddr l).toNat = t.mem (t.pteAddr l).toNat :=
    ho.same _ ⟨hpg, l, hl, Or.inr ⟨hp, 0, by decide, rfl⟩⟩
  rw [hsame]
  exact hbyte

theorem SameTables.inTables (h : SameTables s t) (hcr0 : t.cr0 = s.cr0) {a : Nat} :
    t.InTables a ↔ s.InTables a := by
  unfold CPUI386.InTables
  rw [hcr0]
  refine and_congr_right fun _ => exists_congr fun l => and_congr_right fun hl => ?_
  rw [h.pdeAddr, h.pteAddr hl, h.pde l hl 0 (by decide)]

theorem View.inTables (hv : View s P O t) {a : Nat} : t.InTables a ↔ s.InTables a := by
  constructor
  · intro h
    exact ((hv.tables (hv.paging.symm.trans h.1)).inTables hv.cr0).mp h
  · intro h
    exact ((hv.tables h.1).inTables hv.cr0).mpr h

theorem View.store {laddr v : Word} {w : Width} {res : OptAddr} (hv : View s P O t)
    (h : PlacedAt s true laddr w res) {q : Nat → Word}
    (hq : ∀ k, k < w.bytes → s.Lies true (linear laddr k) (q k)) :
    ∃ u, storeW res v w t = .ok () u ∧ Look s P (put O q v w) t u := by
  have hbyte : ∀ k, k < w.bytes → res.byte k = q k := fun k hk => h.byte_eq hq hk
  have hspread : Spread w q := by
    intro j k hj hk heq
    apply h.spread j k hj hk
    rw [hbyte j hj, hbyte k hk, heq]
  have hram : ∀ k, k < w.bytes → t.Ram (res.byte k) := by
    intro k hk
    rw [hbyte k hk]
    exact hv.ram (hq k hk).ram
  have hto : MemOp.ToMem res t (.store w v) := toMem_store (hram 0 w.bytes_pos) t.mem v
  have hrun := storeW_toMem h.fits hto (fun k hk => (hram k hk).2)
  have hother : ∀ a, (∀ k, k < w.bytes → a ≠ (q k).toNat) →
      (t.setBytes res.byte (byteOf v) w.bytes).mem a = t.mem a := by
    intro a ha
    refine setBytes_other t _ _ fun k hk => ?_
    rw [hbyte k hk]
    exact ha k hk
  have hat : ∀ k, k < w.bytes →
      (t.setBytes res.byte (byteOf v) w.bytes).mem (q k).toNat = byteOf v k := by
    intro k hk
    rw [← hbyte k hk]
    apply setBytes_at t _ hk
    intro j hj hjk heq
    exact hjk (h.spread j k hj hk heq)
  have hout : Outside t (t.setBytes res.byte (byteOf v) w.bytes) := by
    refine ⟨setBytes_frame t _ _ _, fun a ha => hother a ?_⟩
    intro k hk heq
    rw [heq] at ha
    exact (hq k hk).apart (hv.inTables.mp ha)
  generalize t.setBytes res.byte (byteOf v) w.bytes = u at hrun hother hat hout
  refine ⟨u, hrun, ⟨?_, ?_, ?_, ?_, ?_, fun _ _ h => h.outside hout, ?_⟩, ?_⟩
  · refine ⟨?_, hv.caches.outside hout, ?_, ?_, ?_⟩
    · rw [hout.rest, hv.frame]
    · intro hpg
      exact hout.sameTables (hv.paging.trans hpg) (hv.tables hpg)
    · refine hv.mem.store ?_ ?_
      · intro a b hb
        by_cases ha : ∃ k, k < w.bytes ∧ a = (q k).toNat
        · obtain ⟨k, hk, rfl⟩ := ha
          rw [put_at hspread hk] at hb
          rw [hat k hk]
          exact Option.some.inj hb
        · have hne : ∀ k, k < w.bytes → a ≠ (q k).toNat := fun k hk heq => ha ⟨k, hk, heq⟩
          rw [put_other hne] at hb
          rw [hother a hne]
          exact hv.mem.laid a b hb
      · intro a ha
        have hne : ∀ k, k < w.bytes → a ≠ (q k).toNat := by
          intro k hk heq
          rw [heq, put_at hspread hk] at ha
          cases ha
        rw [put_other hne] at ha
        exact ⟨ha, hother a hne⟩
    · intro a ha
      by_cases hk : ∃ k, k < w.bytes ∧ a = (q k).toNat
      · obtain ⟨k, hk, rfl⟩ := hk
        exact (hq k hk).apart
      · rw [put_other fun k hkw heq => hk ⟨k, hkw, heq⟩] at ha
        exact hv.apart a ha
  · rw [hout.rest]
  · rw [hout.rest]
  · rw [hout.rest]
  · rw [hout.rest]
    exact (BitVec.add_zero _).symm
  · intro h
    rw [hout.rest] at h
    exact h
  · rw [hout.rest]

end Views

end Winspire.Cpu
