import Winspire.Cpu.PageWalk

/-!
# The translation caches

What each operation of the MMU does to the caches, the tables and the exception state, in terms
of the page walk.
-/

namespace Winspire.Cpu

open Faulting

set_option autoImplicit false

section Cells

variable {s : CPUI386} {a : Word} {flt : CPUI386 → Prop} {stp : Stop → Prop}

theorem wp_pload8 {post : Byte → CPUI386 → Prop} (h : s.inMem a → post (s.byteAt a) s)
    (hw : ¬ s.inMem a → stp .wild) : wp (pload8 a) post flt stp s := by
  unfold pload8
  rw [wp_bind, wp_get]
  exact wp_ite h hw

theorem wp_pload32 {post : Word → CPUI386 → Prop}
    (h : s.inMem a ∧ s.inMem (a + 1) ∧ s.inMem (a + 2) ∧ s.inMem (a + 3) → post (s.dwordAt a) s)
    (hw : ¬ (s.inMem a ∧ s.inMem (a + 1) ∧ s.inMem (a + 2) ∧ s.inMem (a + 3)) → stp .wild) :
    wp (pload32 a) post flt stp s := by
  unfold pload32
  rw [wp_bind, wp_get]
  exact wp_ite h hw

theorem wp_pstore8 {v : Byte} {post : Unit → CPUI386 → Prop}
    (h : s.inMem a → post () (s.setMem a v)) (hw : ¬ s.inMem a → stp .wild) :
    wp (pstore8 a v) post flt stp s := by
  unfold pstore8
  rw [wp_bind, wp_get]
  exact wp_ite h hw

theorem wp_orMem {b : Byte} {post : Unit → CPUI386 → Prop}
    (h : s.inMem a → post () (s.setMem a (s.byteAt a ||| b))) (hw : ¬ s.inMem a → stp .wild) :
    wp (orMem a b) post flt stp s := by
  unfold orMem
  rw [wp_bind]
  refine wp_pload8 ?_ hw
  intro hin
  exact wp_pstore8 (fun _ => h hin) (fun hn => absurd hin hn)

theorem inMem4_iff (ha : a.toNat % 4 = 0) :
    (s.inMem a ∧ s.inMem (a + 1) ∧ s.inMem (a + 2) ∧ s.inMem (a + 3)) ↔
      a.toNat + 3 < s.memSize := by
  have h1 : (a + 1).toNat = a.toNat + 1 := toNat_add_small ha (k := 1) (by decide)
  have h2 : (a + 2).toNat = a.toNat + 2 := toNat_add_small ha (k := 2) (by decide)
  have h3 : (a + 3).toNat = a.toNat + 3 := toNat_add_small ha (k := 3) (by decide)
  unfold CPUI386.inMem
  rw [h1, h2, h3]
  omega

theorem wp_pload32_entry {post : Word → CPUI386 → Prop} (ha : a.toNat % 4 = 0)
    (h : a.toNat + 3 < s.memSize → post (s.dwordAt a) s)
    (hw : ¬ a.toNat + 3 < s.memSize → stp .wild) : wp (pload32 a) post flt stp s :=
  wp_pload32 (fun hin => h ((inMem4_iff ha).mp hin)) fun hout =>
    hw fun hlt => hout ((inMem4_iff ha).mpr hlt)

theorem wp_orMem_entry {b : Byte} {post : Unit → CPUI386 → Prop} (ha : a.toNat % 4 = 0)
    (hin : a.toNat + 3 < s.memSize) (h : post () (s.setMem a (s.byteAt a ||| b))) :
    wp (orMem a b) post flt stp s := by
  have hfirst : s.inMem a := ((inMem4_iff ha).mpr hin).1
  exact wp_orMem (fun _ => h) fun hout => absurd hfirst hout

end Cells

theorem byteAt_setMem_self (s : CPUI386) (a : Word) (v : Byte) :
    (s.setMem a v).byteAt a = v := Function.update_self ..

theorem byteAt_setMem_of_ne (s : CPUI386) {a b : Word} (v : Byte) (h : b ≠ a) :
    (s.setMem a v).byteAt b = s.byteAt b := by
  have hne : b.toNat ≠ a.toNat := fun he => h (BitVec.eq_of_toNat_eq he)
  exact Function.update_of_ne hne v s.mem

theorem marks_setMem {s : CPUI386} {a : Word} {b : Byte} (he : a.toNat % 4 = 0)
    (hb : b &&& ~~~(accessed ||| dirty) = 0) : Marks s (s.setMem a (s.byteAt a ||| b)) where
  at_ c := by
    by_cases hc : c = a
    · subst hc
      exact ⟨b, ⟨byteAt_setMem_self .., fun _ => he, hb⟩⟩
    · refine ⟨0, ⟨?_, fun h => absurd rfl h, by simp⟩⟩
      rw [byteAt_setMem_of_ne s _ hc]
      simp
  cr3 := rfl

structure MarksOnly (s s' : CPUI386) : Prop where
  marks : Marks s s'
  rest : s' = { s with mem := s'.mem }

theorem MarksOnly.refl (s : CPUI386) : MarksOnly s s := ⟨Marks.refl s, rfl⟩

theorem MarksOnly.setMem {s s' : CPUI386} (h : MarksOnly s s') {a : Word} {b : Byte}
    (he : a.toNat % 4 = 0) (hb : b &&& ~~~(accessed ||| dirty) = 0) :
    MarksOnly s (s'.setMem a (s'.byteAt a ||| b)) where
  marks := h.marks.trans (marks_setMem he hb)
  rest := by
    rw [CPUI386.setMem, h.rest]

def Page.classBits (p : Page) : BitVec 2 := BitVec.ofBool p.user ++ BitVec.ofBool p.writable

def Page.entry (p : Page) (wp : Bool) (lpgno : Word) : TlbEntry where
  lpgno := lpgno
  xaddr := p.frame ^^^ (lpgno <<< 12)
  pteLookup := ⟨wp, p.classBits⟩
  ppte := p.pteAddr

theorem Page.denies_eq (p : Page) (wp user write : Bool) :
    (PteClass.mk wp p.classBits).denies user write = !p.allows wp user write := by
  have h : ∀ wp u w pw pu : Bool,
      (PteClass.mk wp (BitVec.ofBool pu ++ BitVec.ofBool pw)).denies u w =
        !((!u || pu) && (!w || pw || (!u && !wp))) := by decide
  exact h wp user write p.writable p.user

theorem classBits_eq (pde pte : Word) :
    ((pte &&& ((pde &&& 7) ||| 0xfffffff8)) >>> 1).setWidth 2 =
      BitVec.ofBool (pde.getLsbD 2 && pte.getLsbD 2) ++
        BitVec.ofBool (pde.getLsbD 1 && pte.getLsbD 1) := by
  apply BitVec.eq_of_getLsbD_eq
  intro i hi
  have hlow : ∀ j, j = 1 ∨ j = 2 →
      (pte &&& ((pde &&& 7) ||| 0xfffffff8)).getLsbD j = (pde.getLsbD j && pte.getLsbD j) := by
    rintro j (rfl | rfl)
    · rw [BitVec.getLsbD_and, BitVec.getLsbD_or, BitVec.getLsbD_and]
      have h7 : (7 : Word).getLsbD 1 = true := rfl
      have h8 : (0xfffffff8 : Word).getLsbD 1 = false := rfl
      rw [h7, h8, Bool.and_true, Bool.or_false, Bool.and_comm]
    · rw [BitVec.getLsbD_and, BitVec.getLsbD_or, BitVec.getLsbD_and]
      have h7 : (7 : Word).getLsbD 2 = true := rfl
      have h8 : (0xfffffff8 : Word).getLsbD 2 = false := rfl
      rw [h7, h8, Bool.and_true, Bool.or_false, Bool.and_comm]
  rw [BitVec.getLsbD_setWidth, BitVec.getLsbD_ushiftRight, BitVec.getLsbD_append]
  obtain rfl | rfl : i = 0 ∨ i = 1 := by omega
  · rw [hlow 1 (Or.inl rfl)]
    cases pde.getLsbD 1 <;> cases pte.getLsbD 1 <;> rfl
  · rw [hlow 2 (Or.inr rfl)]
    cases pde.getLsbD 2 <;> cases pte.getLsbD 2 <;> rfl

theorem CPUI386.walk_eq_some {s : CPUI386} {lpgno : Word} (hd : (s.pde lpgno).getLsbD 0 = true)
    (ht : (s.pte lpgno).getLsbD 0 = true) :
    s.walk lpgno = some {
      frame := s.pte lpgno &&& pageMask
      writable := (s.pde lpgno).getLsbD 1 && (s.pte lpgno).getLsbD 1
      user := (s.pde lpgno).getLsbD 2 && (s.pte lpgno).getLsbD 2
      pteAddr := s.pteAddr lpgno } := by
  rw [CPUI386.walk, hd, ht]
  rfl

theorem CPUI386.walk_eq_none {s : CPUI386} {lpgno : Word}
    (h : (s.pde lpgno).getLsbD 0 = false ∨ (s.pte lpgno).getLsbD 0 = false) :
    s.walk lpgno = none := by
  unfold CPUI386.walk
  rcases h with hd | ht
  · rw [hd]
    rfl
  · rw [ht, Bool.and_false]
    rfl

theorem CPUI386.walk_pteAddr {s : CPUI386} {lpgno : Word} {p : Page}
    (h : s.walk lpgno = some p) : p.pteAddr = s.pteAddr lpgno := by
  unfold CPUI386.walk at h
  split at h
  · rw [← Option.some.inj h]
  · cases h

theorem CPUI386.walk_low {s : CPUI386} {lpgno : Word} {p : Page} (h : s.walk lpgno = some p) :
    p.pteAddr.toNat % 4 = 0 := by
  rw [CPUI386.walk_pteAddr h]
  exact s.pteAddr_low lpgno

/-- The accessed bits of the entries that a walk reads. -/
def CPUI386.markAccessed (s : CPUI386) (lpgno : Word) : CPUI386 :=
  if (s.pde lpgno).getLsbD 0 then
    let s1 := s.setMem (s.pdeAddr lpgno) (s.byteAt (s.pdeAddr lpgno) ||| accessed)
    if (s.pte lpgno).getLsbD 0 then
      s1.setMem (s.pteAddr lpgno) (s1.byteAt (s.pteAddr lpgno) ||| accessed)
    else s1
  else s

theorem MarksOnly.markAccessed (s : CPUI386) (lpgno : Word) : MarksOnly s (s.markAccessed lpgno) := by
  unfold CPUI386.markAccessed
  split
  · have h1 : MarksOnly s (s.setMem (s.pdeAddr lpgno) (s.byteAt (s.pdeAddr lpgno) ||| accessed)) :=
      (MarksOnly.refl s).setMem (s.pdeAddr_low lpgno) (by decide)
    simp only []
    split
    · exact h1.setMem (s.pteAddr_low lpgno) (by decide)
    · exact h1
  · exact MarksOnly.refl s

section Refill

variable {s s1 s2 : CPUI386} {lpgno : Word}

theorem CPUI386.markAccessed_absent (hd : (s.pde lpgno).getLsbD 0 = false) :
    s.markAccessed lpgno = s := by
  rw [CPUI386.markAccessed, hd]
  rfl

theorem CPUI386.markAccessed_present (hd : (s.pde lpgno).getLsbD 0 = true) :
    s.markAccessed lpgno =
      if (s.pte lpgno).getLsbD 0 then
        (s.setMem (s.pdeAddr lpgno) (s.byteAt (s.pdeAddr lpgno) ||| accessed)).setMem
          (s.pteAddr lpgno) ((s.setMem (s.pdeAddr lpgno)
            (s.byteAt (s.pdeAddr lpgno) ||| accessed)).byteAt (s.pteAddr lpgno) ||| accessed)
      else s.setMem (s.pdeAddr lpgno) (s.byteAt (s.pdeAddr lpgno) ||| accessed) :=
  if_pos hd

theorem MarksOnly.dwordAt_pteAddr (h : MarksOnly s s1) (lpgno : Word) :
    s1.dwordAt (s.pteAddr lpgno) = s1.pte lpgno := by
  rw [CPUI386.pte, h.marks.pteAddr]

theorem MarksOnly.table_present (h : MarksOnly s s1) (lpgno : Word) :
    hasBit (s1.dwordAt (s.pteAddr lpgno)) 1 = (s.pte lpgno).getLsbD 0 := by
  rw [h.dwordAt_pteAddr, hasBit_one, h.marks.pte_getLsbD lpgno (by decide)]

/-- An entry made of a table entry that has been marked meanwhile is the entry of the walk. -/
theorem MarksOnly.entry (h1 : MarksOnly s s1) (h2 : MarksOnly s s2) {p : Page}
    (hd : (s.pde lpgno).getLsbD 0 = true) (ht : (s.pte lpgno).getLsbD 0 = true)
    (hp : s.walk lpgno = some p) :
    TlbEntry.mk lpgno ((s1.dwordAt (s.pteAddr lpgno) &&& pageMask) ^^^ (lpgno <<< 12))
      ⟨hasBit s2.cr0 cr0WP, ((s1.dwordAt (s.pteAddr lpgno) &&&
        ((s.pde lpgno &&& 7) ||| 0xfffffff8)) >>> 1).setWidth 2⟩ (s.pteAddr lpgno) =
      p.entry (hasBit s.cr0 cr0WP) lpgno := by
  have hcr0 : hasBit s2.cr0 cr0WP = hasBit s.cr0 cr0WP := by rw [h2.rest]
  have hframe : s1.dwordAt (s.pteAddr lpgno) &&& pageMask = s.pte lpgno &&& pageMask :=
    h1.marks.frame (s.pteAddr_low lpgno)
  have hbits := classBits_eq (s.pde lpgno) (s1.pte lpgno)
  rw [h1.marks.pte_getLsbD lpgno (by decide), h1.marks.pte_getLsbD lpgno (by decide),
    ← h1.dwordAt_pteAddr] at hbits
  rw [CPUI386.walk_eq_some hd ht] at hp
  rw [hcr0, hframe, hbits, ← Option.some.inj hp]
  rfl

end Refill

/-- The slot of the page holds what the walk gives, or the page is not present. -/
theorem tlbRefill_exact (s : CPUI386) (lpgno : Word) :
    wp (tlbRefill lpgno)
      (fun b s' => s.WalkInMem lpgno ∧
        if b then ∃ p, s.walk lpgno = some p ∧ s' = { s.markAccessed lpgno with
          tlb := Function.update s.tlb (lpgno.toNat % tlbSize)
            (p.entry (hasBit s.cr0 cr0WP) lpgno) }
        else s.walk lpgno = none ∧ s' = s.markAccessed lpgno)
      (fun _ => False) (fun why => why = .wild ∧ ¬ s.WalkInMem lpgno) s := by
  unfold tlbRefill
  rw [wp_bind, wp_get, wp_bind]
  refine wp_pload32_entry (s.pdeAddr_low lpgno) ?_ fun hout => ⟨rfl, fun hin => hout hin.1⟩
  intro hdir
  refine wp_ite ?_ ?_
  · -- the directory entry is not present
    intro habsent
    have hd : (s.pde lpgno).getLsbD 0 = false := by
      rw [← hasBit_one]
      exact Bool.eq_false_iff.mpr habsent
    refine ⟨⟨hdir, fun hp => ?_⟩, ?_⟩
    · rw [hd] at hp
      cases hp
    · rw [if_neg (by decide), CPUI386.markAccessed_absent hd]
      exact ⟨CPUI386.walk_eq_none (.inl hd), rfl⟩
  · intro hpresent
    have hd : (s.pde lpgno).getLsbD 0 = true := by
      rw [← hasBit_one]
      exact Decidable.not_not.mp hpresent
    rw [wp_bind]
    refine wp_orMem_entry (s.pdeAddr_low lpgno) hdir ?_
    have h1 : MarksOnly s (s.setMem (s.pdeAddr lpgno) (s.byteAt (s.pdeAddr lpgno) ||| accessed)) :=
      (MarksOnly.refl s).setMem (s.pdeAddr_low lpgno) (by decide)
    have hmark := CPUI386.markAccessed_present hd
    change wp _ _ _ _ (s.setMem (s.pdeAddr lpgno) (s.byteAt (s.pdeAddr lpgno) ||| accessed))
    generalize s.setMem (s.pdeAddr lpgno) (s.byteAt (s.pdeAddr lpgno) ||| accessed) = s1
      at h1 hmark ⊢
    have hsize : s1.memSize = s.memSize := by rw [h1.rest]
    rw [wp_bind]
    refine wp_pload32_entry (s.pteAddr_low lpgno) ?_ fun hout => ⟨rfl, fun hin => ?_⟩
    swap
    · rw [hsize] at hout
      exact hout (hin.2 hd)
    intro htable
    have hwalk : s.WalkInMem lpgno := ⟨hdir, fun _ => hsize ▸ htable⟩
    refine wp_ite ?_ ?_
    · -- the table entry is not present
      intro habsent
      have ht : (s.pte lpgno).getLsbD 0 = false := by
        rw [← h1.table_present]
        exact Bool.eq_false_iff.mpr habsent
      refine ⟨hwalk, ?_⟩
      rw [if_neg (by decide), hmark, ht]
      exact ⟨CPUI386.walk_eq_none (.inr ht), rfl⟩
    · intro hpresent'
      have ht : (s.pte lpgno).getLsbD 0 = true := by
        rw [← h1.table_present]
        exact Decidable.not_not.mp hpresent'
      rw [if_pos ht] at hmark
      rw [wp_bind]
      refine wp_orMem_entry (s.pteAddr_low lpgno) htable ?_
      have h2 : MarksOnly s (s1.setMem (s.pteAddr lpgno)
          (s1.byteAt (s.pteAddr lpgno) ||| accessed)) :=
        h1.setMem (s.pteAddr_low lpgno) (by decide)
      change wp _ _ _ _ (s1.setMem (s.pteAddr lpgno) (s1.byteAt (s.pteAddr lpgno) ||| accessed))
      rw [← hmark] at h2 ⊢
      rw [wp_bind, wp_modify, wp_pure]
      refine ⟨hwalk, ?_⟩
      rw [if_pos rfl]
      have hp := CPUI386.walk_eq_some hd ht
      refine ⟨_, hp, ?_⟩
      have htlb : (s.markAccessed lpgno).tlb = s.tlb := by rw [h2.rest]
      rw [← h1.entry h2 hd ht hp, ← htlb]
      rfl

theorem tlbRefill_spec (s : CPUI386) (lpgno : Word) :
    wp (tlbRefill lpgno)
      (fun b s' => s.WalkInMem lpgno ∧ ∃ t, MarksOnly s t ∧
        if b then ∃ p, s.walk lpgno = some p ∧ s' = { t with
          tlb := Function.update s.tlb (lpgno.toNat % tlbSize)
            (p.entry (hasBit s.cr0 cr0WP) lpgno) }
        else s.walk lpgno = none ∧ s' = t)
      (fun _ => False) (fun why => why = .wild ∧ ¬ s.WalkInMem lpgno) s := by
  refine wp_mono (tlbRefill_exact s lpgno) ?_ (fun _ h => h) (fun _ h => h)
  rintro b s' ⟨hin, h⟩
  exact ⟨hin, s.markAccessed lpgno, MarksOnly.markAccessed s lpgno, h⟩

/-- The page is present, and its walk stays in guest memory. -/
def CPUI386.Maps (s : CPUI386) (lpgno : Word) (p : Page) : Prop :=
  s.walk lpgno = some p ∧ s.WalkInMem lpgno

def TlbEntry.Valid (n : Nat) (e : TlbEntry) (s : CPUI386) : Prop :=
  e.lpgno ≠ noPage → e.ppte.toNat % 4 = 0 ∧ (e.lpgno.toNat < n →
    ∃ p, s.Maps e.lpgno p ∧ e = p.entry (hasBit s.cr0 cr0WP) e.lpgno)

def DtlbRead.Valid (n : Nat) (r : DtlbRead) (s : CPUI386) : Prop :=
  r.lpgno ≠ noPage → r.lpgno.toNat < n → ∃ p, s.Maps r.lpgno p ∧
    r.xaddr = p.frame ^^^ (r.lpgno <<< 12) ∧ p.allows (hasBit s.cr0 cr0WP) r.cpl false = true

/-- The dirty bit of the entry at `a` is set. -/
def CPUI386.IsDirty (s : CPUI386) (a : Word) : Prop := (s.byteAt a).getLsbD 6 = true

def DtlbWrite.Valid (n : Nat) (w : DtlbWrite) (s : CPUI386) : Prop :=
  w.lpgno ≠ noPage → (∀ a, w.ppte = some a → a.toNat % 4 = 0) ∧
    (w.lpgno.toNat < n → ∃ p, s.Maps w.lpgno p ∧
      w.xaddr = p.frame ^^^ (w.lpgno <<< 12) ∧
      p.allows (hasBit s.cr0 cr0WP) w.cpl true = true ∧ w.ppte = some p.pteAddr ∧
      (w.dirty = true → s.IsDirty p.pteAddr))

/-- Every entry in use for one of the first `n` pages is what a walk would give now. -/
structure Coherent (n : Nat) (s : CPUI386) : Prop where
  tlb : ∀ slot, (s.tlb slot).Valid n s
  read : ∀ slot, (s.dtlbRead slot).Valid n s
  write : ∀ slot, (s.dtlbWrite slot).Valid n s

/-- `s'` has page `l` as `s` has it. -/
structure SamePage (l : Word) (s s' : CPUI386) : Prop where
  walk : s'.walk l = s.walk l
  inMem : s.WalkInMem l → s'.WalkInMem l
  wp : hasBit s'.cr0 cr0WP = hasBit s.cr0 cr0WP
  dirty : ∀ p, s.walk l = some p → s.IsDirty p.pteAddr → s'.IsDirty p.pteAddr

/-- `s'` has the first `n` pages of `s`. -/
structure SamePages (n : Nat) (s s' : CPUI386) : Prop where
  walk : ∀ l, l.toNat < n → s'.walk l = s.walk l
  inMem : ∀ l, l.toNat < n → (s'.WalkInMem l ↔ s.WalkInMem l)
  wp : hasBit s'.cr0 cr0WP = hasBit s.cr0 cr0WP
  dirty : ∀ l p, l.toNat < n → s.walk l = some p → s.IsDirty p.pteAddr →
    s'.IsDirty p.pteAddr

section Valid

variable {n : Nat} {s s' : CPUI386}

theorem SamePages.maps (h : SamePages n s s') {l : Word} (hl : l.toNat < n) {p : Page} :
    s'.Maps l p ↔ s.Maps l p := by
  rw [CPUI386.Maps, CPUI386.Maps, h.walk l hl, h.inMem l hl]

theorem SamePages.page (h : SamePages n s s') {l : Word} (hl : l.toNat < n) : SamePage l s s' :=
  ⟨h.walk l hl, (h.inMem l hl).mpr, h.wp, fun p => h.dirty l p hl⟩

theorem SamePage.maps {l : Word} (h : SamePage l s s') {p : Page} (hp : s.Maps l p) :
    s'.Maps l p := ⟨h.walk.trans hp.1, h.inMem hp.2⟩

theorem TlbEntry.Valid.congr {e : TlbEntry} (h : e.Valid n s)
    (hs : e.lpgno.toNat < n → SamePage e.lpgno s s') : e.Valid n s' := by
  intro hn
  obtain ⟨hlow, hp⟩ := h hn
  refine ⟨hlow, ?_⟩
  intro hl
  obtain ⟨p, hw, he⟩ := hp hl
  refine ⟨p, (hs hl).maps hw, ?_⟩
  rw [(hs hl).wp]
  exact he

theorem DtlbRead.Valid.congr {r : DtlbRead} (h : r.Valid n s)
    (hs : r.lpgno.toNat < n → SamePage r.lpgno s s') : r.Valid n s' := by
  intro hn hl
  obtain ⟨p, hw, hx, ha⟩ := h hn hl
  refine ⟨p, (hs hl).maps hw, hx, ?_⟩
  rw [(hs hl).wp]
  exact ha

theorem DtlbWrite.Valid.congr {w : DtlbWrite} (h : w.Valid n s)
    (hs : w.lpgno.toNat < n → SamePage w.lpgno s s') : w.Valid n s' := by
  intro hn
  obtain ⟨hlow, hp⟩ := h hn
  refine ⟨hlow, ?_⟩
  intro hl
  obtain ⟨p, hw, hx, ha, hpp, hd⟩ := hp hl
  refine ⟨p, (hs hl).maps hw, hx, ?_, hpp, ?_⟩
  · rw [(hs hl).wp, ha]
  · intro hdirty
    exact (hs hl).dirty p hw.1 (hd hdirty)

/-- Caches that stay, or gain entries that are valid, stay coherent. -/
theorem Coherent.congr (h : Coherent n s) (hs : SamePages n s s')
    (ht : ∀ i, s'.tlb i = s.tlb i ∨ (s'.tlb i).Valid n s')
    (hr : ∀ i, s'.dtlbRead i = s.dtlbRead i ∨ (s'.dtlbRead i).Valid n s')
    (hw : ∀ i, s'.dtlbWrite i = s.dtlbWrite i ∨ (s'.dtlbWrite i).Valid n s') :
    Coherent n s' where
  tlb i := by
    rcases ht i with he | hv
    · rw [he]
      exact (h.tlb i).congr hs.page
    · exact hv
  read i := by
    rcases hr i with he | hv
    · rw [he]
      exact (h.read i).congr hs.page
    · exact hv
  write i := by
    rcases hw i with he | hv
    · rw [he]
      exact (h.write i).congr hs.page
    · exact hv

theorem TlbEntry.valid_of_noPage {e : TlbEntry} (h : e.lpgno = noPage) : e.Valid n s :=
  fun hn => absurd h hn

theorem DtlbRead.valid_of_noPage {r : DtlbRead} (h : r.lpgno = noPage) : r.Valid n s :=
  fun hn => absurd h hn

theorem DtlbWrite.valid_of_noPage {w : DtlbWrite} (h : w.lpgno = noPage) : w.Valid n s :=
  fun hn => absurd h hn

theorem Marks.walkInMem (h : Marks s s') (hsize : s'.memSize = s.memSize) (l : Word) :
    s'.WalkInMem l ↔ s.WalkInMem l := by
  unfold CPUI386.WalkInMem
  rw [h.pdeAddr, h.pteAddr, h.pde_getLsbD l (by decide), hsize]

theorem Marks.samePages (h : Marks s s') (hwp : s'.cr0 = s.cr0)
    (hsize : s'.memSize = s.memSize) : SamePages n s s' where
  walk l _ := h.walk l
  inMem l _ := h.walkInMem hsize l
  wp := by rw [hwp]
  dirty _ _ _ _ hd := h.dirty_mono hd

end Valid

/-- `s'` is `s` with marks in the tables and other entries in the caches. -/
structure Cached (s s' : CPUI386) : Prop where
  marks : Marks s s'
  rest : s' = { s with
    mem := s'.mem, tlb := s'.tlb, dtlbRead := s'.dtlbRead, dtlbWrite := s'.dtlbWrite }

structure CachedFault (s s' : CPUI386) : Prop where
  marks : Marks s s'
  rest : s' = { s with
    mem := s'.mem, tlb := s'.tlb, dtlbRead := s'.dtlbRead, dtlbWrite := s'.dtlbWrite,
    cr2 := s'.cr2, excno := s'.excno, excerr := s'.excerr }

theorem Cached.refl (s : CPUI386) : Cached s s := ⟨Marks.refl s, rfl⟩

theorem Cached.trans {s s' s'' : CPUI386} (h : Cached s s') (h' : Cached s' s'') :
    Cached s s'' where
  marks := h.marks.trans h'.marks
  rest := by
    rw [h'.rest, h.rest]

theorem Cached.cr0 {s s' : CPUI386} (h : Cached s s') : s'.cr0 = s.cr0 := by rw [h.rest]

theorem Cached.memSize {s s' : CPUI386} (h : Cached s s') : s'.memSize = s.memSize := by
  rw [h.rest]

theorem Cached.samePages {n : Nat} {s s' : CPUI386} (h : Cached s s') : SamePages n s s' :=
  h.marks.samePages h.cr0 h.memSize

theorem MarksOnly.cached {s s' : CPUI386} (h : MarksOnly s s') : Cached s s' where
  marks := h.marks
  rest := by
    rw [h.rest]

section Translate

variable {n : Nat} {s : CPUI386} {rwm : Nat} {lpgno laddr : Word} {cpl : Nat}

/-- The walk grants the access, and a write has set the dirty bit. -/
def Granted (s s' : CPUI386) (rwm : Nat) (lpgno laddr : Word) (cpl : Nat) (paddr : Word) : Prop :=
  ∃ p, s.Maps lpgno p ∧
    p.allows (hasBit s.cr0 cr0WP) (decide (0 < cpl)) (decide (1 < rwm)) = true ∧
    paddr = p.frame ^^^ (lpgno <<< 12) ^^^ laddr ∧
    (rwm.testBit 1 = true → s'.IsDirty p.pteAddr)

/-- The walk denies the access, for a page that is not present or does not allow it. -/
def Denied (s : CPUI386) (rwm : Nat) (lpgno : Word) (cpl : Nat) (prot : Bool) : Prop :=
  s.WalkInMem lpgno ∧ match s.walk lpgno with
  | none => prot = false
  | some p => prot = true ∧
    p.allows (hasBit s.cr0 cr0WP) (decide (0 < cpl)) (decide (1 < rwm)) = false

structure IsPageFault (s' : CPUI386) (rwm : Nat) (laddr : Word) (cpl : Nat) (prot : Bool) :
    Prop where
  cr2 : s'.cr2 = laddr
  excno : s'.excno = exPF
  excerr : s'.excerr = faultCode prot (rwm.testBit 1) (decide (cpl ≠ 0))

/-- What holds after a translation returns. -/
structure Returned (n : Nat) (s : CPUI386) (rwm : Nat) (lpgno laddr : Word) (cpl : Nat) (paddr : Word)
    (s' : CPUI386) : Prop where
  cached : Cached s s'
  coherent : Coherent n s'
  granted : lpgno.toNat < n → Granted s s' rwm lpgno laddr cpl paddr

/-- What holds after a translation faults. -/
structure Refused (n : Nat) (s : CPUI386) (rwm : Nat) (lpgno laddr : Word) (cpl : Nat)
    (s' : CPUI386) : Prop where
  cached : CachedFault s s'
  coherent : Coherent n s'
  denied : ∃ prot, IsPageFault s' rwm laddr cpl prot ∧
    (lpgno.toNat < n → Denied s rwm lpgno cpl prot)

/-- A translation stops only where the walk leaves guest memory. -/
def Lost (n : Nat) (s : CPUI386) (lpgno : Word) (why : Stop) : Prop :=
  lpgno.toNat < n → why = .wild ∧ ¬ s.WalkInMem lpgno

theorem wp_pageFault {post : Unit → CPUI386 → Prop} {stp : Stop → Prop} {t : CPUI386}
    {prot : Bool} {flt : CPUI386 → Prop}
    (h : ∀ t', t' = { t with cr2 := t'.cr2, excno := t'.excno, excerr := t'.excerr } →
      IsPageFault t' rwm laddr cpl prot → flt t') :
    wp (pageFault rwm laddr cpl prot) post flt stp t := by
  unfold pageFault
  rw [wp_bind, wp_modify, wp_fault]
  apply h
  · rfl
  · refine ⟨rfl, rfl, ?_⟩
    unfold faultCode
    simp only [decide_eq_true_iff]

theorem Cached.fault {s t t' : CPUI386} (h : Cached s t)
    (ht : t' = { t with cr2 := t'.cr2, excno := t'.excno, excerr := t'.excerr }) :
    CachedFault s t' where
  marks := h.marks.congr (by rw [ht]) (by rw [ht])
  rest := by
    rw [ht, h.rest]

theorem Coherent.fault {t t' : CPUI386} (h : Coherent n t)
    (ht : t' = { t with cr2 := t'.cr2, excno := t'.excno, excerr := t'.excerr }) :
    Coherent n t' := by
  rw [ht]
  exact ⟨h.tlb, h.read, h.write⟩

theorem Coherent.marks {s t : CPUI386} (h : Coherent n s) (hm : MarksOnly s t) : Coherent n t := by
  refine h.congr hm.cached.samePages ?_ ?_ ?_ <;> intro i <;> left <;> rw [hm.rest]

/-- The entry handed out is the one in the slot, and it is for the page asked for. -/
theorem tlbEntry_spec (hc : Coherent n s) :
    wp (tlbEntry rwm lpgno laddr cpl)
      (fun e s' => Cached s s' ∧ Coherent n s' ∧ e = s'.tlb (lpgno.toNat % tlbSize) ∧
        e.lpgno = lpgno)
      (fun s' => Refused n s rwm lpgno laddr cpl s') (Lost n s lpgno) s := by
  unfold tlbEntry
  rw [wp_bind, wp_get, wp_bind]
  refine wp_onlyIf ?_ ?_
  · intro _
    rw [wp_bind]
    refine wp_mono (tlbRefill_spec s lpgno) ?_ (fun _ h => h.elim) (fun _ h _ => h)
    rintro b s' ⟨hin, t, ht, hb⟩
    cases b with
    | false =>
      obtain ⟨hw, rfl⟩ : s.walk lpgno = none ∧ s' = t := by simpa using hb
      refine wp_onlyIf (fun _ => ?_) (fun hn => absurd (by decide) hn)
      apply wp_pageFault
      intro t' ht' hf
      refine ⟨ht.cached.fault ht', (hc.marks ht).fault ht', false, hf, ?_⟩
      intro _
      rw [Denied, hw]
      exact ⟨hin, rfl⟩
    | true =>
      obtain ⟨p, hw, hs'⟩ : ∃ p, s.walk lpgno = some p ∧ s' = { t with
          tlb := Function.update s.tlb (lpgno.toNat % tlbSize)
            (p.entry (hasBit s.cr0 cr0WP) lpgno) } := by simpa using hb
      refine wp_onlyIf (fun hn => absurd rfl hn) (fun _ => ?_)
      rw [wp_gets]
      have hcached : Cached s s' := by
        refine ⟨?_, ?_⟩
        · exact ht.marks.congr (by rw [hs']) (by rw [hs'])
        · rw [hs', ht.rest]
      have hslot : s'.tlb (lpgno.toNat % tlbSize) = p.entry (hasBit s.cr0 cr0WP) lpgno := by
        rw [hs']
        exact Function.update_self ..
      have hvalid : (p.entry (hasBit s.cr0 cr0WP) lpgno).Valid n s' := by
        intro _
        refine ⟨CPUI386.walk_low hw, ?_⟩
        intro hl
        refine ⟨p, (hcached.samePages.maps hl).mpr ⟨hw, hin⟩, ?_⟩
        rw [hcached.cr0]
        rfl
      refine ⟨hcached, ?_, rfl, ?_⟩
      · refine hc.congr hcached.samePages ?_ ?_ ?_
        · intro i
          by_cases hi : i = lpgno.toNat % tlbSize
          · right
            rw [hi, hslot]
            exact hvalid
          · left
            rw [hs']
            exact Function.update_of_ne hi _ _
        · intro i
          left
          rw [hs', ht.rest]
        · intro i
          left
          rw [hs', ht.rest]
      · rw [hslot]
        rfl
  · intro heq
    rw [wp_gets]
    exact ⟨Cached.refl s, hc, rfl, Decidable.not_not.mp heq⟩

theorem isDirty_setMem (s : CPUI386) (a : Word) :
    (s.setMem a (s.byteAt a ||| dirty)).IsDirty a := by
  unfold CPUI386.IsDirty
  rw [byteAt_setMem_self, BitVec.getLsbD_or]
  have hd : dirty.getLsbD 6 = true := rfl
  rw [hd, Bool.or_true]

theorem isDirty_of_and {s : CPUI386} {a : Word} (h : ¬ s.byteAt a &&& dirty = 0) :
    s.IsDirty a := by
  unfold CPUI386.IsDirty
  by_contra hn
  apply h
  rw [Bool.not_eq_true] at hn
  have hd : dirty = BitVec.twoPow 8 6 := rfl
  rw [hd, BitVec.and_twoPow, hn]
  rfl

theorem markPteDirty_spec {a : Word} (ha : a.toNat % 4 = 0) :
    wp (markPteDirty (some a)) (fun _ s' => MarksOnly s s' ∧ s'.IsDirty a) (fun _ => False)
      (fun why => why = .wild ∧ ¬ s.inMem a) s := by
  unfold markPteDirty
  rw [wp_bind]
  refine wp_pload8 ?_ (fun hn => ⟨rfl, hn⟩)
  intro hin
  refine wp_ite ?_ ?_
  · intro _
    refine wp_pstore8 ?_ (fun hn => absurd hin hn)
    intro _
    exact ⟨(MarksOnly.refl s).setMem ha (by decide), isDirty_setMem s a⟩
  · intro hd
    exact ⟨MarksOnly.refl s, isDirty_of_and hd⟩

theorem CPUI386.not_walkInMem {s : CPUI386} {p : Page} (hw : s.walk lpgno = some p)
    (hn : ¬ s.inMem p.pteAddr) : ¬ s.WalkInMem lpgno := by
  rintro ⟨-, h⟩
  apply hn
  have hpres : (s.pde lpgno).getLsbD 0 = true := by
    unfold CPUI386.walk at hw
    split at hw
    · rename_i hb
      rw [Bool.and_eq_true] at hb
      exact hb.1
    · cases hw
  have hlt := h hpres
  unfold CPUI386.inMem
  rw [CPUI386.walk_pteAddr hw]
  omega

theorem Coherent.freeTlb {t : CPUI386} (h : Coherent n t) (lpgno : Word) :
    Coherent n (t.freeTlb lpgno) := by
  refine h.congr ⟨fun _ _ => rfl, fun _ _ => Iff.rfl, rfl, fun _ _ _ _ hd => hd⟩ ?_ (fun _ => Or.inl rfl)
    (fun _ => Or.inl rfl)
  intro i
  by_cases hi : i = lpgno.toNat % tlbSize
  · right
    apply TlbEntry.valid_of_noPage
    simp only [CPUI386.freeTlb, hi, Function.update_self]
  · left
    exact Function.update_of_ne hi _ _

theorem Coherent.freeDtlb {t : CPUI386} (h : Coherent n t) (lpgno : Word) :
    Coherent n (t.freeDtlb lpgno) := by
  refine h.congr ⟨fun _ _ => rfl, fun _ _ => Iff.rfl, rfl, fun _ _ _ _ hd => hd⟩ (fun _ => Or.inl rfl) ?_ ?_
  · intro i
    by_cases hl : (t.dtlbRead (lpgno.toNat % dtlbFastSlots)).lpgno = lpgno
    · by_cases hi : i = lpgno.toNat % dtlbFastSlots
      · right
        apply DtlbRead.valid_of_noPage
        simp only [CPUI386.freeDtlb, if_pos hl, hi, Function.update_self]
      · left
        simp only [CPUI386.freeDtlb, if_pos hl, Function.update_of_ne hi]
    · left
      simp only [CPUI386.freeDtlb, if_neg hl]
  · intro i
    by_cases hl : (t.dtlbWrite (lpgno.toNat % dtlbFastSlots)).lpgno = lpgno
    · by_cases hi : i = lpgno.toNat % dtlbFastSlots
      · right
        apply DtlbWrite.valid_of_noPage
        simp only [CPUI386.freeDtlb, if_pos hl, hi, Function.update_self]
      · left
        simp only [CPUI386.freeDtlb, if_pos hl, Function.update_of_ne hi]
    · left
      simp only [CPUI386.freeDtlb, if_neg hl]

theorem Cached.freeTlb {s t : CPUI386} (h : Cached s t) (lpgno : Word) :
    Cached s (t.freeTlb lpgno) where
  marks := h.marks.congr rfl rfl
  rest := by
    rw [CPUI386.freeTlb, h.rest]

theorem Cached.freeDtlb {s t : CPUI386} (h : Cached s t) (lpgno : Word) :
    Cached s (t.freeDtlb lpgno) where
  marks := h.marks.congr rfl rfl
  rest := by
    rw [CPUI386.freeDtlb, h.rest]

/-- The entry of a page, as the walk before the translation gives it. -/
theorem entry_of_slot {t : CPUI386} (hct : Cached s t) (hco : Coherent n t)
    (he : (t.tlb (lpgno.toNat % tlbSize)).lpgno = lpgno) (hn : lpgno ≠ noPage)
    (hl : lpgno.toNat < n) :
    ∃ p, s.Maps lpgno p ∧
      t.tlb (lpgno.toNat % tlbSize) = p.entry (hasBit s.cr0 cr0WP) lpgno := by
  rw [← he] at hn
  obtain ⟨-, hp⟩ := hco.tlb (lpgno.toNat % tlbSize) hn
  rw [he, hct.cr0] at hp
  obtain ⟨p, hw, hpe⟩ := hp hl
  exact ⟨p, (hct.samePages.maps hl).mp hw, hpe⟩

theorem refused_of_denies {t t' : CPUI386} (hct : Cached s t) (hco : Coherent n t)
    (he : (t.tlb (lpgno.toNat % tlbSize)).lpgno = lpgno) (hn : lpgno ≠ noPage)
    (hd : (t.tlb (lpgno.toNat % tlbSize)).pteLookup.denies (0 < cpl) (1 < rwm) = true)
    {u : CPUI386} (hu : Cached s u) (huc : Coherent n u)
    (ht' : t' = { u with cr2 := t'.cr2, excno := t'.excno, excerr := t'.excerr })
    (hf : IsPageFault t' rwm laddr cpl true) : Refused n s rwm lpgno laddr cpl t' := by
  refine ⟨hu.fault ht', huc.fault ht', true, hf, ?_⟩
  intro hl
  obtain ⟨p, hw, hp⟩ := entry_of_slot hct hco he hn hl
  rw [hp] at hd
  rw [Denied, hw.1]
  refine ⟨hw.2, rfl, ?_⟩
  have hd' := p.denies_eq (hasBit s.cr0 cr0WP) (decide (0 < cpl)) (decide (1 < rwm))
  rw [Page.entry] at hd
  rw [hd] at hd'
  rw [← Bool.not_eq_true']
  exact hd'.symm

theorem allows_of_not_denies {t : CPUI386} {p : Page}
    (hp : t.tlb (lpgno.toNat % tlbSize) = p.entry (hasBit s.cr0 cr0WP) lpgno)
    (hd : ¬ (t.tlb (lpgno.toNat % tlbSize)).pteLookup.denies (0 < cpl) (1 < rwm) = true) :
    p.allows (hasBit s.cr0 cr0WP) (decide (0 < cpl)) (decide (1 < rwm)) = true := by
  rw [hp, Page.entry, p.denies_eq, Bool.not_eq_true'] at hd
  exact Bool.eq_true_of_not_eq_false hd

theorem markEntry_spec {t : CPUI386} (hct : Cached s t) (hco : Coherent n t)
    (he : (t.tlb (lpgno.toNat % tlbSize)).lpgno = lpgno) (hn : lpgno ≠ noPage) :
    wp (markPteDirty (some (t.tlb (lpgno.toNat % tlbSize)).ppte))
      (fun _ u => MarksOnly t u ∧ u.IsDirty (t.tlb (lpgno.toNat % tlbSize)).ppte)
      (fun _ => False) (Lost n s lpgno) t := by
  have hlow := (hco.tlb (lpgno.toNat % tlbSize) (by rw [he]; exact hn)).1
  refine wp_mono (markPteDirty_spec hlow) (fun _ _ h => h) (fun _ h => h) ?_
  rintro why ⟨rfl, hin⟩ hl
  refine ⟨rfl, ?_⟩
  obtain ⟨p, hw, hp⟩ := entry_of_slot hct hco he hn hl
  refine CPUI386.not_walkInMem hw.1 ?_
  have hsize : t.memSize = s.memSize := by rw [hct.rest]
  rw [hp] at hin
  unfold CPUI386.inMem at hin ⊢
  rw [hsize] at hin
  exact hin

theorem granted_of_entry {t u : CPUI386} (hct : Cached s t) (hco : Coherent n t)
    (he : (t.tlb (lpgno.toNat % tlbSize)).lpgno = lpgno) (hn : lpgno ≠ noPage)
    (hd : ¬ (t.tlb (lpgno.toNat % tlbSize)).pteLookup.denies (0 < cpl) (1 < rwm) = true)
    (hu : rwm.testBit 1 = true → u.IsDirty (t.tlb (lpgno.toNat % tlbSize)).ppte)
    (hl : lpgno.toNat < n) :
    Granted s u rwm lpgno laddr cpl ((t.tlb (lpgno.toNat % tlbSize)).xaddr ^^^ laddr) := by
  obtain ⟨p, hw, hp⟩ := entry_of_slot hct hco he hn hl
  refine ⟨p, hw, allows_of_not_denies hp hd, ?_, ?_⟩
  · rw [hp]
    rfl
  · intro hb
    have h := hu hb
    rw [hp] at h
    exact h

theorem translateLpgno_spec (hc : Coherent n s) (hn : lpgno ≠ noPage) :
    wp (translateLpgno rwm lpgno laddr cpl) (Returned n s rwm lpgno laddr cpl)
      (Refused n s rwm lpgno laddr cpl) (Lost n s lpgno) s := by
  unfold translateLpgno
  refine wp_bind_mono (tlbEntry_spec hc) ?_
  rintro e t ⟨hct, hco, rfl, he⟩
  rw [wp_bind]
  refine wp_onlyIf ?_ ?_
  · intro hd
    rw [wp_bind, wp_modify]
    apply wp_pageFault
    intro t' ht' hf
    exact refused_of_denies hct hco he hn hd (hct.freeTlb lpgno) (hco.freeTlb lpgno) ht' hf
  · intro hd
    rw [wp_bind]
    refine wp_onlyIf ?_ ?_
    · intro hb
      refine wp_mono (markEntry_spec hct hco he hn) ?_ (fun _ h => h.elim) (fun _ h => h)
      rintro _ u ⟨hm, hdirty⟩
      rw [wp_pure]
      exact ⟨hct.trans hm.cached, hco.marks hm,
        granted_of_entry hct hco he hn hd (fun _ => hdirty)⟩
    · intro hb
      rw [wp_pure]
      exact ⟨hct, hco, granted_of_entry hct hco he hn hd (fun h => absurd h hb)⟩

theorem Cached.fillDtlbWrite {s t : CPUI386} (h : Cached s t) (lpgno xaddr ppte : Word)
    (cplKey : Bool) : Cached s (t.fillDtlbWrite lpgno xaddr ppte cplKey) where
  marks := h.marks.congr rfl rfl
  rest := by
    rw [CPUI386.fillDtlbWrite, h.rest]

theorem Cached.fillDtlbRead {s t : CPUI386} (h : Cached s t) (lpgno xaddr : Word)
    (cplKey : Bool) : Cached s (t.fillDtlbRead lpgno xaddr cplKey) where
  marks := h.marks.congr rfl rfl
  rest := by
    rw [CPUI386.fillDtlbRead, h.rest]

/-- A fast slot filled from a TLB entry that allows the access. -/
theorem Coherent.fillDtlbRead {t : CPUI386} (h : Coherent n t) {xaddr : Word} {cplKey : Bool}
    (hv : (DtlbRead.mk lpgno xaddr cplKey).Valid n t) :
    Coherent n (t.fillDtlbRead lpgno xaddr cplKey) := by
  refine h.congr ⟨fun _ _ => rfl, fun _ _ => Iff.rfl, rfl, fun _ _ _ _ hd => hd⟩ (fun _ => Or.inl rfl) ?_
    (fun _ => Or.inl rfl)
  intro i
  by_cases hi : i = lpgno.toNat % dtlbFastSlots
  · right
    rw [CPUI386.fillDtlbRead, hi]
    simp only [Function.update_self]
    exact hv
  · left
    exact Function.update_of_ne hi _ _

theorem Coherent.fillDtlbWrite {t : CPUI386} (h : Coherent n t) {xaddr ppte : Word} {cplKey : Bool}
    (hv : (DtlbWrite.mk lpgno xaddr (some ppte) true cplKey).Valid n t) :
    Coherent n (t.fillDtlbWrite lpgno xaddr ppte cplKey) := by
  refine h.congr ⟨fun _ _ => rfl, fun _ _ => Iff.rfl, rfl, fun _ _ _ _ hd => hd⟩ (fun _ => Or.inl rfl)
    (fun _ => Or.inl rfl) ?_
  intro i
  by_cases hi : i = lpgno.toNat % dtlbFastSlots
  · right
    rw [CPUI386.fillDtlbWrite, hi]
    simp only [Function.update_self]
    exact hv
  · left
    exact Function.update_of_ne hi _ _

/-- The kinds of accesses: reads, writes, and reads that write back. -/
def IsRwm (rwm : Nat) : Prop := rwm = 1 ∨ rwm = 2 ∨ rwm = 3

theorem IsRwm.testBit (h : IsRwm rwm) : rwm.testBit 1 = decide (1 < rwm) := by
  rcases h with rfl | rfl | rfl <;> rfl

theorem translateLpgnoFill_spec (hc : Coherent n s) (hn : lpgno ≠ noPage) (hk : IsRwm rwm) :
    wp (translateLpgnoFill rwm lpgno laddr cpl) (Returned n s rwm lpgno laddr cpl)
      (Refused n s rwm lpgno laddr cpl) (Lost n s lpgno) s := by
  unfold translateLpgnoFill
  refine wp_bind_mono (tlbEntry_spec hc) ?_
  rintro e t ⟨hct, hco, rfl, he⟩
  rw [wp_bind]
  refine wp_onlyIf ?_ ?_
  · intro hd
    rw [wp_bind, wp_modify]
    apply wp_pageFault
    intro t' ht' hf
    exact refused_of_denies hct hco he hn hd ((hct.freeTlb lpgno).freeDtlb lpgno)
      ((hco.freeTlb lpgno).freeDtlb lpgno) ht' hf
  · intro hd
    refine wp_ite ?_ ?_
    · intro hb
      rw [wp_bind]
      refine wp_mono (markEntry_spec hct hco he hn) ?_ (fun _ h => h.elim) (fun _ h => h)
      rintro _ u ⟨hm, hdirty⟩
      rw [wp_bind, wp_modify, wp_pure]
      have hcu := hco.marks hm
      have hctu := hct.trans hm.cached
      refine ⟨hctu.fillDtlbWrite .., hcu.fillDtlbWrite ?_,
        granted_of_entry hct hco he hn hd (fun _ => hdirty)⟩
      intro _
      refine ⟨?_, ?_⟩
      · intro a ha
        rw [← Option.some.inj ha]
        exact (hco.tlb (lpgno.toNat % tlbSize) (by rw [he]; exact hn)).1
      · intro hl
        obtain ⟨p, hw, hp⟩ := entry_of_slot hct hco he hn hl
        have hallow := allows_of_not_denies hp hd
        rw [hk.testBit] at hb
        rw [hb] at hallow
        rw [hp] at hdirty
        refine ⟨p, (hctu.samePages.maps hl).mpr hw, ?_, ?_, ?_, fun _ => hdirty⟩
        · rw [hp]
          rfl
        · rw [hctu.cr0]
          exact hallow
        · rw [hp]
          rfl
    · intro hb
      rw [wp_bind, wp_modify, wp_pure]
      refine ⟨hct.fillDtlbRead .., hco.fillDtlbRead ?_,
        granted_of_entry hct hco he hn hd (fun h => absurd h hb)⟩
      intro _ hl
      obtain ⟨p, hw, hp⟩ := entry_of_slot hct hco he hn hl
      have hallow := allows_of_not_denies hp hd
      rw [hk.testBit, Bool.not_eq_true] at hb
      rw [hb] at hallow
      refine ⟨p, (hct.samePages.maps hl).mpr hw, ?_, ?_⟩
      · rw [hp]
        rfl
      · rw [hct.cr0]
        exact hallow

theorem Page.allows_read {p : Page} {wp user : Bool} (h : p.allows wp user true = true) :
    p.allows wp user false = true := by
  unfold Page.allows at h ⊢
  rw [Bool.and_eq_true] at h
  rw [h.1]
  rfl

theorem read_hit (hc : Coherent n s) (hn : lpgno ≠ noPage)
    (hr : (s.dtlbRead (lpgno.toNat % dtlbFastSlots)).lpgno = lpgno ∧
      (s.dtlbRead (lpgno.toNat % dtlbFastSlots)).cpl = decide (0 < cpl)) :
    Returned n s 1 lpgno laddr cpl
      ((s.dtlbRead (lpgno.toNat % dtlbFastSlots)).xaddr ^^^ laddr) s := by
  refine ⟨Cached.refl s, hc, ?_⟩
  intro hl
  have hv := hc.read (lpgno.toNat % dtlbFastSlots)
  unfold DtlbRead.Valid at hv
  rw [hr.1, hr.2] at hv
  obtain ⟨p, hw, hx, ha⟩ := hv hn hl
  refine ⟨p, hw, ha, ?_, ?_⟩
  · rw [hx]
  · intro hb
    exact absurd hb (by decide)

theorem write_slot (hc : Coherent n s) (hn : lpgno ≠ noPage) (hl : lpgno.toNat < n)
    (hr : (s.dtlbWrite (lpgno.toNat % dtlbFastSlots)).lpgno = lpgno ∧
      (s.dtlbWrite (lpgno.toNat % dtlbFastSlots)).cpl = decide (0 < cpl)) :
    ∃ p, s.Maps lpgno p ∧
      (s.dtlbWrite (lpgno.toNat % dtlbFastSlots)).xaddr = p.frame ^^^ (lpgno <<< 12) ∧
      p.allows (hasBit s.cr0 cr0WP) (decide (0 < cpl)) true = true ∧
      (s.dtlbWrite (lpgno.toNat % dtlbFastSlots)).ppte = some p.pteAddr ∧
      ((s.dtlbWrite (lpgno.toNat % dtlbFastSlots)).dirty = true → s.IsDirty p.pteAddr) := by
  rw [← hr.1] at hn
  obtain ⟨-, hv⟩ := hc.write (lpgno.toNat % dtlbFastSlots) hn
  rw [hr.1, hr.2] at hv
  exact hv hl

theorem write_hit_read (hc : Coherent n s) (hn : lpgno ≠ noPage)
    (hr : (s.dtlbWrite (lpgno.toNat % dtlbFastSlots)).lpgno = lpgno ∧
      (s.dtlbWrite (lpgno.toNat % dtlbFastSlots)).cpl = decide (0 < cpl)) :
    Returned n s 1 lpgno laddr cpl
      ((s.dtlbWrite (lpgno.toNat % dtlbFastSlots)).xaddr ^^^ laddr) s := by
  refine ⟨Cached.refl s, hc, ?_⟩
  intro hl
  obtain ⟨p, hw, hx, ha, -, -⟩ := write_slot hc hn hl hr
  refine ⟨p, hw, Page.allows_read ha, ?_, ?_⟩
  · rw [hx]
  · intro hb
    exact absurd hb (by decide)

/-- The write table's own mark that the page is dirty. -/
def CPUI386.setDirty (s : CPUI386) (slot : Nat) : CPUI386 :=
  { s with dtlbWrite := Function.update s.dtlbWrite slot { s.dtlbWrite slot with dirty := true } }

theorem Cached.setDirty {s t : CPUI386} (h : Cached s t) (slot : Nat) :
    Cached s (t.setDirty slot) where
  marks := h.marks.congr rfl rfl
  rest := by
    rw [CPUI386.setDirty, h.rest]

theorem Coherent.setDirty {t : CPUI386} (h : Coherent n t) {slot : Nat}
    (hd : ∀ a, (t.dtlbWrite slot).ppte = some a → t.IsDirty a) : Coherent n (t.setDirty slot) := by
  refine h.congr ⟨fun _ _ => rfl, fun _ _ => Iff.rfl, rfl, fun _ _ _ _ hd => hd⟩ (fun _ => Or.inl rfl)
    (fun _ => Or.inl rfl) ?_
  intro i
  by_cases hi : i = slot
  · right
    subst hi
    intro hn
    simp only [CPUI386.setDirty, Function.update_self] at hn ⊢
    obtain ⟨hlow, hv⟩ := h.write i hn
    refine ⟨hlow, ?_⟩
    intro hl
    obtain ⟨p, hw, hx, ha, hpp, -⟩ := hv hl
    exact ⟨p, hw, hx, ha, hpp, fun _ => hd _ hpp⟩
  · left
    exact Function.update_of_ne hi _ _

theorem translateLpgnoFast_spec (hc : Coherent n s) (hn : lpgno ≠ noPage) (hk : IsRwm rwm) :
    wp (translateLpgnoFast rwm lpgno laddr cpl) (Returned n s rwm lpgno laddr cpl)
      (Refused n s rwm lpgno laddr cpl) (Lost n s lpgno) s := by
  unfold translateLpgnoFast
  rw [wp_bind, wp_get]
  refine wp_ite ?_ ?_
  · rintro ⟨rfl, hr⟩
    exact read_hit hc hn hr
  · intro _
    refine wp_ite ?_ ?_
    · rintro ⟨rfl, hr⟩
      exact write_hit_read hc hn hr
    · intro _
      refine wp_ite ?_ (fun _ => translateLpgnoFill_spec hc hn hk)
      rintro ⟨rfl, hr⟩
      rw [wp_bind]
      have hslot : (s.dtlbWrite (lpgno.toNat % dtlbFastSlots)).lpgno ≠ noPage := by
        rw [hr.1]
        exact hn
      refine wp_onlyIf ?_ ?_
      · intro hclean
        cases hpp : (s.dtlbWrite (lpgno.toNat % dtlbFastSlots)).ppte with
        | none =>
          -- a null pointer: only a slot for no linear page has one
          rw [wp_bind]
          change wp (pure ()) _ _ _ s
          rw [wp_pure, wp_modify, wp_pure]
          refine ⟨(Cached.refl s).setDirty _, hc.setDirty ?_, ?_⟩
          · intro a ha
            rw [hpp] at ha
            cases ha
          · intro hl
            obtain ⟨p, -, -, -, hp', -⟩ := write_slot hc hn hl hr
            rw [hpp] at hp'
            cases hp'
        | some a =>
          have hlow := (hc.write (lpgno.toNat % dtlbFastSlots) hslot).1 a hpp
          rw [wp_bind]
          refine wp_mono (markPteDirty_spec hlow) ?_ (fun _ h => h.elim) ?_
          · rintro _ u ⟨hm, hdirty⟩
            rw [wp_modify, wp_pure]
            have hwr : u.dtlbWrite = s.dtlbWrite := by rw [hm.rest]
            refine ⟨hm.cached.setDirty _, (hc.marks hm).setDirty ?_, ?_⟩
            · intro a' ha'
              rw [hwr, hpp] at ha'
              rw [← Option.some.inj ha']
              exact hdirty
            · intro hl
              obtain ⟨p, hw, hx, ha, hp', -⟩ := write_slot hc hn hl hr
              rw [hpp] at hp'
              obtain rfl := Option.some.inj hp'
              refine ⟨p, hw, ha, ?_, fun _ => hdirty⟩
              rw [hx]
          · rintro why ⟨rfl, hin⟩ hl
            obtain ⟨p, hw, -, -, hp', -⟩ := write_slot hc hn hl hr
            rw [hpp] at hp'
            obtain rfl := Option.some.inj hp'
            exact ⟨rfl, CPUI386.not_walkInMem hw.1 hin⟩
      · intro hdirty
        rw [wp_pure]
        refine ⟨Cached.refl s, hc, ?_⟩
        intro hl
        obtain ⟨p, hw, hx, ha, hp', hd⟩ := write_slot hc hn hl hr
        refine ⟨p, hw, ha, ?_, fun _ => hd (Decidable.not_not.mp hdirty)⟩
        rw [hx]

end Translate

end Winspire.Cpu
