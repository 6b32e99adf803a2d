import Winspire.Lib.Pages
import Winspire.Cpu.TlbRuns

/-!
# Translations without a run

What a translation gives in a state, read off the caches and, where they miss, the tables. The
caches need not agree with the tables here: a guest may change an entry and not tell.
-/

namespace Winspire.Cpu

open Faulting Pages

set_option autoImplicit false

/-- `ppte` points to an entry of a table, and `xaddr` changes page numbers only. -/
def TlbEntry.Aligned (e : TlbEntry) : Prop :=
  e.lpgno ≠ noPage → e.ppte.toNat % 4 = 0 ∧ e.xaddr &&& 0xfff = 0

def DtlbRead.Aligned (r : DtlbRead) : Prop := r.lpgno ≠ noPage → r.xaddr &&& 0xfff = 0

def DtlbWrite.Aligned (w : DtlbWrite) : Prop :=
  w.lpgno ≠ noPage → (∀ a, w.ppte = some a → a.toNat % 4 = 0) ∧ w.xaddr &&& 0xfff = 0

structure CPUI386.Aligned (s : CPUI386) : Prop where
  tlb : ∀ i, (s.tlb i).Aligned
  read : ∀ i, (s.dtlbRead i).Aligned
  write : ∀ i, (s.dtlbWrite i).Aligned

section Aligned

variable {s t : CPUI386}

theorem CPUI386.Cleared.aligned (h : s.Cleared) : s.Aligned where
  tlb i hn := absurd (h.tlb i) hn
  read i hn := absurd (h.read i) hn
  write i hn := absurd (h.write i) hn

theorem CPUI386.Aligned.congr (h : s.Aligned)
    (ht : ∀ i, t.tlb i = s.tlb i ∨ (t.tlb i).Aligned)
    (hr : ∀ i, t.dtlbRead i = s.dtlbRead i ∨ (t.dtlbRead i).Aligned)
    (hw : ∀ i, t.dtlbWrite i = s.dtlbWrite i ∨ (t.dtlbWrite i).Aligned) : t.Aligned where
  tlb i := by
    rcases ht i with he | ha
    · rw [he]
      exact h.tlb i
    · exact ha
  read i := by
    rcases hr i with he | ha
    · rw [he]
      exact h.read i
    · exact ha
  write i := by
    rcases hw i with he | ha
    · rw [he]
      exact h.write i
    · exact ha

theorem CPUI386.Aligned.of_caches (h : s.Aligned) (ht : t.tlb = s.tlb)
    (hr : t.dtlbRead = s.dtlbRead) (hw : t.dtlbWrite = s.dtlbWrite) : t.Aligned := by
  refine h.congr ?_ ?_ ?_ <;> intro i <;> left
  · rw [ht]
  · rw [hr]
  · rw [hw]

theorem CPUI386.Aligned.marks (h : s.Aligned) (hm : MarksOnly s t) : t.Aligned := by
  apply h.of_caches
  · rw [hm.rest]
  · rw [hm.rest]
  · rw [hm.rest]

theorem CPUI386.Aligned.setTlb (h : s.Aligned) {slot : Nat} {e : TlbEntry} (he : e.Aligned) :
    CPUI386.Aligned { s with tlb := Function.update s.tlb slot e } := by
  refine h.congr ?_ (fun _ => Or.inl rfl) (fun _ => Or.inl rfl)
  intro i
  by_cases hi : i = slot
  · right
    rw [hi]
    simp only [Function.update_self]
    exact he
  · left
    exact Function.update_of_ne hi _ _

theorem CPUI386.Aligned.setRead (h : s.Aligned) {slot : Nat} {r : DtlbRead} (hr : r.Aligned) :
    CPUI386.Aligned { s with dtlbRead := Function.update s.dtlbRead slot r } := by
  refine h.congr (fun _ => Or.inl rfl) ?_ (fun _ => Or.inl rfl)
  intro i
  by_cases hi : i = slot
  · right
    rw [hi]
    simp only [Function.update_self]
    exact hr
  · left
    exact Function.update_of_ne hi _ _

theorem CPUI386.Aligned.setWrite (h : s.Aligned) {slot : Nat} {w : DtlbWrite} (hw : w.Aligned) :
    CPUI386.Aligned { s with dtlbWrite := Function.update s.dtlbWrite slot w } := by
  refine h.congr (fun _ => Or.inl rfl) (fun _ => Or.inl rfl) ?_
  intro i
  by_cases hi : i = slot
  · right
    rw [hi]
    simp only [Function.update_self]
    exact hw
  · left
    exact Function.update_of_ne hi _ _

theorem CPUI386.Aligned.freeTlb (h : s.Aligned) (lpgno : Word) : (s.freeTlb lpgno).Aligned :=
  h.setTlb fun hn => absurd rfl hn

theorem CPUI386.Aligned.freeDtlb (h : s.Aligned) (lpgno : Word) : (s.freeDtlb lpgno).Aligned := by
  refine h.congr (fun _ => Or.inl rfl) ?_ ?_
  · intro i
    unfold CPUI386.freeDtlb
    by_cases hl : (s.dtlbRead (lpgno.toNat % dtlbFastSlots)).lpgno = lpgno
    · simp only [hl, if_true]
      exact Or.inr ((h.setRead fun hn => absurd rfl hn).read i)
    · left
      simp only [hl, if_false]
  · intro i
    unfold CPUI386.freeDtlb
    by_cases hl : (s.dtlbWrite (lpgno.toNat % dtlbFastSlots)).lpgno = lpgno
    · simp only [hl, if_true]
      exact Or.inr ((h.setWrite fun hn => absurd rfl hn).write i)
    · left
      simp only [hl, if_false]

theorem CPUI386.Aligned.fault (h : s.Aligned)
    (ht : t = { s with cr2 := t.cr2, excno := t.excno, excerr := t.excerr }) : t.Aligned := by
  rw [ht]
  exact ⟨h.tlb, h.read, h.write⟩

theorem and_fff_eq_zero {x : Word} (h : ∀ i, i < 12 → x.getLsbD i = false) : x &&& 0xfff = 0 := by
  apply BitVec.eq_of_getLsbD_eq
  intro i hi
  rw [BitVec.getLsbD_and]
  by_cases h12 : i < 12
  · rw [h i h12, Bool.false_and]
    exact BitVec.getLsbD_zero.symm
  · have hoff : ∀ j : Fin 32, (0xfff : Word).getLsbD j.val = decide (j.val < 12) := by decide
    rw [hoff ⟨i, hi⟩, decide_eq_false h12, Bool.and_false]
    exact BitVec.getLsbD_zero.symm

theorem CPUI386.walk_aligned {lpgno : Word} {p : Page} (h : s.walk lpgno = some p) (wp : Bool) :
    (p.entry wp lpgno).Aligned := by
  intro _
  refine ⟨CPUI386.walk_low h, ?_⟩
  apply and_fff_eq_zero
  intro i hi
  unfold Page.entry
  rw [BitVec.getLsbD_xor, CPUI386.walk_frame_low h hi, BitVec.getLsbD_shiftLeft]
  simp [hi]

end Aligned

/-- A translation that would succeed, with the entry it would mark dirty. -/
structure Found where
  xaddr : Word
  mark : Option Word
  deriving DecidableEq, Repr

namespace CPUI386

def TlbHit (s : CPUI386) (lpgno : Word) : Prop := (s.tlb (lpgno.toNat % tlbSize)).lpgno = lpgno

def ReadHit (s : CPUI386) (lpgno : Word) (cpl : Nat) : Prop :=
  (s.dtlbRead (lpgno.toNat % dtlbFastSlots)).lpgno = lpgno ∧
    (s.dtlbRead (lpgno.toNat % dtlbFastSlots)).cpl = decide (0 < cpl)

def WriteHit (s : CPUI386) (lpgno : Word) (cpl : Nat) : Prop :=
  (s.dtlbWrite (lpgno.toNat % dtlbFastSlots)).lpgno = lpgno ∧
    (s.dtlbWrite (lpgno.toNat % dtlbFastSlots)).cpl = decide (0 < cpl)

instance (s : CPUI386) (lpgno : Word) : Decidable (s.TlbHit lpgno) :=
  inferInstanceAs (Decidable (_ = _))

instance (s : CPUI386) (lpgno : Word) (cpl : Nat) : Decidable (s.ReadHit lpgno cpl) :=
  inferInstanceAs (Decidable (_ ∧ _))

instance (s : CPUI386) (lpgno : Word) (cpl : Nat) : Decidable (s.WriteHit lpgno cpl) :=
  inferInstanceAs (Decidable (_ ∧ _))

/-- The entry of the TLB, or the one the tables would give. -/
def entryFor (s : CPUI386) (lpgno : Word) : Option TlbEntry :=
  if s.TlbHit lpgno then some (s.tlb (lpgno.toNat % tlbSize))
  else (s.walk lpgno).map fun p => p.entry (hasBit s.cr0 cr0WP) lpgno

def lookupTlb (s : CPUI386) (rwm : Nat) (lpgno : Word) (cpl : Nat) : Option Found :=
  match s.entryFor lpgno with
  | none => none
  | some e =>
    if e.pteLookup.denies (0 < cpl) (1 < rwm) then none
    else some ⟨e.xaddr, if rwm.testBit 1 then some e.ppte else none⟩

/-- `none` where the translation faults. -/
def lookup (s : CPUI386) (rwm : Nat) (lpgno : Word) (cpl : Nat) : Option Found :=
  let r := s.dtlbRead (lpgno.toNat % dtlbFastSlots)
  let w := s.dtlbWrite (lpgno.toNat % dtlbFastSlots)
  if rwm = 1 ∧ s.ReadHit lpgno cpl then some ⟨r.xaddr, none⟩
  else if rwm = 1 ∧ s.WriteHit lpgno cpl then some ⟨w.xaddr, none⟩
  else if rwm = 2 ∧ s.WriteHit lpgno cpl then some ⟨w.xaddr, if w.dirty then none else w.ppte⟩
  else s.lookupTlb rwm lpgno cpl

def FastHit (s : CPUI386) (rwm : Nat) (lpgno : Word) (cpl : Nat) : Prop :=
  rwm = 1 ∧ s.ReadHit lpgno cpl ∨ rwm = 1 ∧ s.WriteHit lpgno cpl ∨ rwm = 2 ∧ s.WriteHit lpgno cpl

/-- The entries that are read and marked on the way are in guest memory. -/
structure TablesInMem (s : CPUI386) (rwm : Nat) (lpgno : Word) (cpl : Nat) : Prop where
  walk : ¬ s.FastHit rwm lpgno cpl → ¬ s.TlbHit lpgno → s.WalkInMem lpgno
  mark : ∀ f a, s.lookup rwm lpgno cpl = some f → f.mark = some a → s.inMem a

structure SameSlots (s s' : CPUI386) (lpgno : Word) : Prop where
  tlb : s'.tlb (lpgno.toNat % tlbSize) = s.tlb (lpgno.toNat % tlbSize)
  read : s'.dtlbRead (lpgno.toNat % dtlbFastSlots) = s.dtlbRead (lpgno.toNat % dtlbFastSlots)
  write : s'.dtlbWrite (lpgno.toNat % dtlbFastSlots) = s.dtlbWrite (lpgno.toNat % dtlbFastSlots)

end CPUI386

section LookupSpec

variable {s s' : CPUI386} {rwm cpl : Nat} {lpgno laddr : Word}

theorem CPUI386.lookup_of_miss (h : ¬ s.FastHit rwm lpgno cpl) :
    s.lookup rwm lpgno cpl = s.lookupTlb rwm lpgno cpl := by
  unfold CPUI386.lookup
  rw [if_neg fun h' => h (Or.inl h'), if_neg fun h' => h (Or.inr (Or.inl h')),
    if_neg fun h' => h (Or.inr (Or.inr h'))]

/-- What a translation may change: caches and marks, and of the slots only those of its page. -/
structure Translated (s : CPUI386) (lpgno : Word) (s' : CPUI386) : Prop where
  cached : Cached s s'
  aligned : s'.Aligned
  other : ∀ l : Word, l.toNat % tlbSize ≠ lpgno.toNat % tlbSize → s.SameSlots s' l

/-- `tlbEntry` hands out the entry of the page and leaves it in its slot. -/
theorem tlbEntry_entryFor (s : CPUI386) :
    wp (tlbEntry rwm lpgno laddr cpl)
      (fun e s' => (¬ s.TlbHit lpgno → s.WalkInMem lpgno) ∧ s.entryFor lpgno = some e ∧
        ∃ t, MarksOnly s t ∧
          s' = { t with tlb := Function.update s.tlb (lpgno.toNat % tlbSize) e })
      (fun s' => (¬ s.TlbHit lpgno → s.WalkInMem lpgno) ∧ s.entryFor lpgno = none ∧
        ∃ t, MarksOnly s t ∧
          s' = { t with cr2 := s'.cr2, excno := s'.excno, excerr := s'.excerr } ∧
          IsPageFault s' rwm laddr cpl false)
      (fun why => why = .wild ∧ ¬ s.TlbHit lpgno ∧ ¬ s.WalkInMem lpgno) s := by
  unfold tlbEntry
  rw [wp_bind, wp_get, wp_bind]
  refine wp_onlyIf ?_ ?_
  · intro hmiss
    have hn : ¬ s.TlbHit lpgno := hmiss
    rw [wp_bind]
    refine wp_mono (tlbRefill_spec s lpgno) ?_ (fun _ h => h.elim) ?_
    · rintro filled t ⟨hin, t', hm, ht⟩
      cases filled with
      | true =>
        rw [if_pos rfl] at ht
        obtain ⟨p, hw, rfl⟩ := ht
        refine wp_onlyIf (fun h => absurd rfl h) ?_
        intro _
        rw [wp_gets]
        have he : s.entryFor lpgno = some (p.entry (hasBit s.cr0 cr0WP) lpgno) := by
          rw [CPUI386.entryFor, if_neg hn, hw, Option.map_some]
        simp only [Function.update_self]
        exact ⟨fun _ => hin, he, t', hm, rfl⟩
      | false =>
        rw [if_neg (by decide)] at ht
        obtain ⟨hw, rfl⟩ := ht
        refine wp_onlyIf ?_ (fun h => absurd Bool.false_ne_true h)
        intro _
        apply wp_pageFault
        intro u hu hf
        have he : s.entryFor lpgno = none := by
          rw [CPUI386.entryFor, if_neg hn, hw, Option.map_none]
        exact ⟨fun _ => hin, he, t, hm, hu, hf⟩
    · rintro why ⟨rfl, hin⟩
      exact ⟨rfl, hn, hin⟩
  · intro hhit
    have hit : s.TlbHit lpgno := Decidable.not_not.mp hhit
    rw [wp_gets]
    have he : s.entryFor lpgno = some (s.tlb (lpgno.toNat % tlbSize)) := by
      rw [CPUI386.entryFor, if_pos hit]
    refine ⟨fun hn => absurd hit hn, he, s, MarksOnly.refl s, ?_⟩
    rw [Function.update_eq_self]

theorem entryFor_aligned (ha : s.Aligned) (hn : lpgno ≠ noPage) {e : TlbEntry}
    (he : s.entryFor lpgno = some e) :
    e.lpgno = lpgno ∧ e.ppte.toNat % 4 = 0 ∧ e.xaddr &&& 0xfff = 0 := by
  unfold CPUI386.entryFor at he
  by_cases hit : s.TlbHit lpgno
  · rw [if_pos hit] at he
    rw [← Option.some.inj he]
    refine ⟨hit, ha.tlb _ ?_⟩
    rw [hit]
    exact hn
  · rw [if_neg hit, Option.map_eq_some_iff] at he
    obtain ⟨p, hw, rfl⟩ := he
    exact ⟨rfl, CPUI386.walk_aligned hw _ hn⟩

theorem markPteDirty_inMem {a : Word} :
    wp (markPteDirty (some a)) (fun _ _ => s.inMem a) (fun _ => True) (fun _ => True) s := by
  unfold markPteDirty
  rw [wp_bind]
  refine wp_pload8 ?_ (fun _ => trivial)
  intro hin
  refine wp_ite (fun _ => ?_) (fun _ => hin)
  exact wp_pstore8 (fun _ => hin) (fun _ => trivial)

theorem wp_markPteDirty {a : Word} (ha : a.toNat % 4 = 0) :
    wp (markPteDirty (some a)) (fun _ s' => MarksOnly s s' ∧ s'.IsDirty a ∧ s.inMem a)
      (fun _ => False) (fun why => why = .wild ∧ ¬ s.inMem a) s := by
  refine wp_mono (wp_and (markPteDirty_spec ha) markPteDirty_inMem) ?_ ?_ ?_
  · rintro _ s' ⟨⟨hm, hd⟩, hin⟩
    exact ⟨hm, hd, hin⟩
  · rintro s' ⟨h, -⟩
    exact h
  · rintro why ⟨h, -⟩
    exact h

/-- How a translation ends, by the lookup. -/
structure Hits (s : CPUI386) (rwm : Nat) (lpgno laddr : Word) (cpl : Nat) (paddr : Word)
    (s' : CPUI386) : Prop where
  translated : Translated s lpgno s'
  inMem : s.TablesInMem rwm lpgno cpl
  found : ∃ f, s.lookup rwm lpgno cpl = some f ∧ paddr = f.xaddr ^^^ laddr

structure Misses (s : CPUI386) (rwm : Nat) (lpgno laddr : Word) (cpl : Nat) (s' : CPUI386) :
    Prop where
  cached : CachedFault s s'
  aligned : s'.Aligned
  inMem : s.TablesInMem rwm lpgno cpl
  none : s.lookup rwm lpgno cpl = none
  pageFault : IsPageFault s' rwm laddr cpl (s.entryFor lpgno).isSome

def Strays (s : CPUI386) (rwm : Nat) (lpgno : Word) (cpl : Nat) (why : Stop) : Prop :=
  why = .wild ∧ ¬ s.TablesInMem rwm lpgno cpl

theorem Translated.setTlb (ha : s.Aligned) (hm : MarksOnly s s') {e : TlbEntry} (he : e.Aligned) :
    Translated s lpgno
      { s' with tlb := Function.update s.tlb (lpgno.toNat % tlbSize) e } where
  cached := by
    refine ⟨hm.marks.congr rfl rfl, ?_⟩
    rw [hm.rest]
  aligned := by
    have h : CPUI386.Aligned { s with tlb := Function.update s.tlb (lpgno.toNat % tlbSize) e } :=
      ha.setTlb he
    refine h.of_caches rfl ?_ ?_
    · rw [hm.rest]
    · rw [hm.rest]
  other l hl := by
    refine ⟨Function.update_of_ne hl _ _, ?_, ?_⟩
    · rw [hm.rest]
    · rw [hm.rest]

theorem Translated.marks (h : Translated s lpgno s') {t : CPUI386} (hm : MarksOnly s' t) :
    Translated s lpgno t where
  cached := h.cached.trans hm.cached
  aligned := h.aligned.marks hm
  other l hl := by
    obtain ⟨ht, hr, hw⟩ := h.other l hl
    rw [hm.rest]
    exact ⟨ht, hr, hw⟩

theorem Translated.fillDtlbRead (h : Translated s lpgno s') {xaddr : Word} {cplKey : Bool}
    (hx : xaddr &&& 0xfff = 0) : Translated s lpgno (s'.fillDtlbRead lpgno xaddr cplKey) where
  cached := h.cached.fillDtlbRead ..
  aligned := h.aligned.setRead fun _ => hx
  other l hl := by
    obtain ⟨ht, hr, hw⟩ := h.other l hl
    exact ⟨ht, (Function.update_of_ne hl _ _).trans hr, hw⟩

theorem Translated.fillDtlbWrite (h : Translated s lpgno s') {xaddr ppte : Word} {cplKey : Bool}
    (hx : xaddr &&& 0xfff = 0) (hp : ppte.toNat % 4 = 0) :
    Translated s lpgno (s'.fillDtlbWrite lpgno xaddr ppte cplKey) where
  cached := h.cached.fillDtlbWrite ..
  aligned := by
    apply h.aligned.setWrite
    intro _
    refine ⟨?_, hx⟩
    intro a ha
    rw [← Option.some.inj ha]
    exact hp
  other l hl := by
    obtain ⟨ht, hr, hw⟩ := h.other l hl
    exact ⟨ht, hr, (Function.update_of_ne hl _ _).trans hw⟩

theorem translateLpgnoFill_lookup (ha : s.Aligned) (hn : lpgno ≠ noPage)
    (hmiss : ¬ s.FastHit rwm lpgno cpl) :
    wp (translateLpgnoFill rwm lpgno laddr cpl) (Hits s rwm lpgno laddr cpl)
      (Misses s rwm lpgno laddr cpl) (Strays s rwm lpgno cpl) s := by
  have hlook := CPUI386.lookup_of_miss hmiss
  unfold translateLpgnoFill
  rw [wp_bind]
  refine wp_mono (tlbEntry_entryFor s) ?_ ?_ ?_
  · rintro e u ⟨hwalk, he, t, hm, rfl⟩
    obtain ⟨hlp, hpp, hx⟩ := entryFor_aligned ha hn he
    have htr : Translated s lpgno { t with
        tlb := Function.update s.tlb (lpgno.toNat % tlbSize) e } :=
      Translated.setTlb ha hm fun _ => ⟨hpp, hx⟩
    generalize ({ t with tlb := Function.update s.tlb (lpgno.toNat % tlbSize) e } : CPUI386) = u
      at htr ⊢
    rw [wp_bind]
    refine wp_onlyIf ?_ ?_
    · intro hd
      have hnone : s.lookup rwm lpgno cpl = none := by
        rw [hlook, CPUI386.lookupTlb, he]
        exact if_pos hd
      rw [wp_bind, wp_modify]
      apply wp_pageFault
      intro t' ht' hf
      refine ⟨((htr.cached.freeTlb lpgno).freeDtlb lpgno).fault ht',
        ((htr.aligned.freeTlb lpgno).freeDtlb lpgno).fault ht', ⟨fun _ => hwalk, ?_⟩, hnone, ?_⟩
      · intro f a hf'
        rw [hnone] at hf'
        cases hf'
      · rw [he]
        exact hf
    · intro hd
      have hsome : s.lookup rwm lpgno cpl =
          some ⟨e.xaddr, if rwm.testBit 1 then some e.ppte else none⟩ := by
        rw [hlook, CPUI386.lookupTlb, he]
        exact if_neg hd
      refine wp_ite ?_ ?_
      · intro hb
        rw [if_pos hb] at hsome
        rw [wp_bind]
        refine wp_mono (wp_markPteDirty hpp) ?_ (fun _ h => h.elim) ?_
        · rintro _ v ⟨hmv, -, hin⟩
          rw [wp_bind, wp_modify, wp_pure]
          refine ⟨(htr.marks hmv).fillDtlbWrite hx hpp, ⟨fun _ => hwalk, ?_⟩, _, hsome, rfl⟩
          intro f a hf hmark
          rw [hsome] at hf
          rw [← Option.some.inj hf] at hmark
          rw [← Option.some.inj hmark]
          rw [CPUI386.inMem, htr.cached.memSize] at hin
          exact hin
        · rintro why ⟨rfl, hout⟩
          refine ⟨rfl, ?_⟩
          intro h
          apply hout
          rw [CPUI386.inMem, htr.cached.memSize]
          exact h.mark _ _ hsome rfl
      · intro hb
        rw [if_neg hb] at hsome
        rw [wp_bind, wp_modify, wp_pure]
        refine ⟨htr.fillDtlbRead hx, ⟨fun _ => hwalk, ?_⟩, _, hsome, rfl⟩
        intro f a hf hmark
        rw [hsome] at hf
        rw [← Option.some.inj hf] at hmark
        cases hmark
  · rintro u ⟨hwalk, he, t, hm, hu, hf⟩
    have hnone : s.lookup rwm lpgno cpl = none := by rw [hlook, CPUI386.lookupTlb, he]
    refine ⟨hm.cached.fault hu, (ha.marks hm).fault hu, ⟨fun _ => hwalk, ?_⟩, hnone, ?_⟩
    · intro f a hf'
      rw [hnone] at hf'
      cases hf'
    · rw [he]
      exact hf
  · rintro why ⟨rfl, hit, hin⟩
    exact ⟨rfl, fun h => hin (h.walk hmiss hit)⟩

theorem Translated.refl (ha : s.Aligned) : Translated s lpgno s :=
  ⟨Cached.refl s, ha, fun _ _ => ⟨rfl, rfl, rfl⟩⟩

theorem Translated.setDirty (h : Translated s lpgno s') :
    Translated s lpgno (s'.setDirty (lpgno.toNat % dtlbFastSlots)) where
  cached := h.cached.setDirty _
  aligned := by
    apply h.aligned.setWrite
    intro hn
    exact h.aligned.write _ hn
  other l hl := by
    obtain ⟨ht, hr, hw⟩ := h.other l hl
    exact ⟨ht, hr, (Function.update_of_ne hl _ _).trans hw⟩

theorem tablesInMem_of_hit (hit : s.FastHit rwm lpgno cpl) {f : Found}
    (hf : s.lookup rwm lpgno cpl = some f) (hmark : ∀ a, f.mark = some a → s.inMem a) :
    s.TablesInMem rwm lpgno cpl := by
  refine ⟨fun hn => absurd hit hn, ?_⟩
  intro f' a hf' ha
  rw [hf] at hf'
  rw [← Option.some.inj hf'] at ha
  exact hmark a ha

theorem translateLpgnoFast_lookup (ha : s.Aligned) (hn : lpgno ≠ noPage) :
    wp (translateLpgnoFast rwm lpgno laddr cpl) (Hits s rwm lpgno laddr cpl)
      (Misses s rwm lpgno laddr cpl) (Strays s rwm lpgno cpl) s := by
  unfold translateLpgnoFast
  rw [wp_bind, wp_get]
  refine wp_ite ?_ ?_
  · intro hit
    have hf : s.lookup rwm lpgno cpl =
        some ⟨(s.dtlbRead (lpgno.toNat % dtlbFastSlots)).xaddr, none⟩ := if_pos hit
    rw [wp_pure]
    refine ⟨Translated.refl ha, tablesInMem_of_hit (Or.inl hit) hf ?_, _, hf, rfl⟩
    intro a hmark
    cases hmark
  · intro hmiss1
    refine wp_ite ?_ ?_
    · intro hit
      have hf : s.lookup rwm lpgno cpl =
          some ⟨(s.dtlbWrite (lpgno.toNat % dtlbFastSlots)).xaddr, none⟩ :=
        (if_neg hmiss1).trans (if_pos hit)
      rw [wp_pure]
      refine ⟨Translated.refl ha, tablesInMem_of_hit (Or.inr (Or.inl hit)) hf ?_, _, hf, rfl⟩
      intro a hmark
      cases hmark
    · intro hmiss2
      refine wp_ite ?_ ?_
      · intro hit
        have hfast : s.FastHit rwm lpgno cpl := Or.inr (Or.inr hit)
        have hf : s.lookup rwm lpgno cpl =
            some ⟨(s.dtlbWrite (lpgno.toNat % dtlbFastSlots)).xaddr,
              if (s.dtlbWrite (lpgno.toNat % dtlbFastSlots)).dirty then none
              else (s.dtlbWrite (lpgno.toNat % dtlbFastSlots)).ppte⟩ :=
          (if_neg hmiss1).trans ((if_neg hmiss2).trans (if_pos hit))
        rw [wp_bind]
        refine wp_onlyIf ?_ ?_
        · intro hclean
          rw [if_neg hclean] at hf
          cases hpp : (s.dtlbWrite (lpgno.toNat % dtlbFastSlots)).ppte with
          | none =>
            rw [hpp] at hf
            rw [wp_bind]
            change wp (pure ()) _ _ _ s
            rw [wp_pure, wp_modify, wp_pure]
            refine ⟨(Translated.refl ha).setDirty, tablesInMem_of_hit hfast hf ?_, _, hf, rfl⟩
            intro a hmark
            cases hmark
          | some a =>
            rw [hpp] at hf
            have hslot : (s.dtlbWrite (lpgno.toNat % dtlbFastSlots)).lpgno ≠ noPage := by
              rw [hit.2.1]
              exact hn
            have hlow := (ha.write _ hslot).1 a hpp
            rw [wp_bind]
            refine wp_mono (wp_markPteDirty hlow) ?_ (fun _ h => h.elim) ?_
            · rintro _ u ⟨hm, -, hin⟩
              rw [wp_modify, wp_pure]
              refine ⟨((Translated.refl ha).marks hm).setDirty, tablesInMem_of_hit hfast hf ?_,
                _, hf, rfl⟩
              intro a' hmark
              rw [← Option.some.inj hmark]
              exact hin
            · rintro why ⟨rfl, hout⟩
              exact ⟨rfl, fun h => hout (h.mark _ a hf rfl)⟩
        · intro hdirty
          have hd : (s.dtlbWrite (lpgno.toNat % dtlbFastSlots)).dirty = true :=
            Decidable.not_not.mp hdirty
          rw [if_pos hd] at hf
          rw [wp_pure]
          refine ⟨Translated.refl ha, tablesInMem_of_hit hfast hf ?_, _, hf, rfl⟩
          intro a hmark
          cases hmark
      · intro hmiss3
        refine translateLpgnoFill_lookup ha hn ?_
        rintro (h | h | h)
        · exact hmiss1 h
        · exact hmiss2 h
        · exact hmiss3 h

/-- A page found has its offset in the low bits of the address. -/
theorem lookup_aligned (ha : s.Aligned) (hn : lpgno ≠ noPage) {f : Found}
    (hf : s.lookup rwm lpgno cpl = some f) : f.xaddr &&& 0xfff = 0 := by
  have hread : s.ReadHit lpgno cpl →
      (s.dtlbRead (lpgno.toNat % dtlbFastSlots)).xaddr &&& 0xfff = 0 := by
    intro hit
    apply ha.read
    rw [hit.1]
    exact hn
  have hwrite : s.WriteHit lpgno cpl →
      (s.dtlbWrite (lpgno.toNat % dtlbFastSlots)).xaddr &&& 0xfff = 0 := by
    intro hit
    refine (ha.write _ ?_).2
    rw [hit.1]
    exact hn
  unfold CPUI386.lookup at hf
  split at hf
  · rename_i hit
    rw [← Option.some.inj hf]
    exact hread hit.2
  · split at hf
    · rename_i hit
      rw [← Option.some.inj hf]
      exact hwrite hit.2
    · split at hf
      · rename_i hit
        rw [← Option.some.inj hf]
        exact hwrite hit.2
      · unfold CPUI386.lookupTlb at hf
        cases he : s.entryFor lpgno with
        | none =>
          rw [he] at hf
          cases hf
        | some e =>
          rw [he] at hf
          simp only [] at hf
          split at hf
          · cases hf
          · rw [← Option.some.inj hf]
            exact (entryFor_aligned ha hn he).2.2

theorem tlbHit_congr (hs : s.SameSlots s' lpgno) : s'.TlbHit lpgno ↔ s.TlbHit lpgno := by
  unfold CPUI386.TlbHit
  rw [hs.tlb]

theorem readHit_congr (hs : s.SameSlots s' lpgno) :
    s'.ReadHit lpgno cpl ↔ s.ReadHit lpgno cpl := by
  unfold CPUI386.ReadHit
  rw [hs.read]

theorem writeHit_congr (hs : s.SameSlots s' lpgno) :
    s'.WriteHit lpgno cpl ↔ s.WriteHit lpgno cpl := by
  unfold CPUI386.WriteHit
  rw [hs.write]

theorem entryFor_congr (hc : Cached s s') (hs : s.SameSlots s' lpgno) :
    s'.entryFor lpgno = s.entryFor lpgno := by
  simp only [CPUI386.entryFor, tlbHit_congr hs, hs.tlb, hc.marks.walk, hc.cr0]

/-- Lookups see the slots of the page, and the tables but not their marks. -/
theorem lookup_congr (hc : Cached s s') (hs : s.SameSlots s' lpgno) :
    s'.lookup rwm lpgno cpl = s.lookup rwm lpgno cpl := by
  simp only [CPUI386.lookup, CPUI386.lookupTlb, readHit_congr hs, writeHit_congr hs, hs.read,
    hs.write, entryFor_congr hc hs]

theorem tablesInMem_congr (hc : Cached s s') (hs : s.SameSlots s' lpgno) :
    s'.TablesInMem rwm lpgno cpl ↔ s.TablesInMem rwm lpgno cpl := by
  have hfast : s'.FastHit rwm lpgno cpl ↔ s.FastHit rwm lpgno cpl := by
    unfold CPUI386.FastHit
    rw [readHit_congr hs, writeHit_congr hs]
  have htlb := tlbHit_congr hs
  have hwalk := hc.marks.walkInMem hc.memSize lpgno
  have hin : ∀ a, s'.inMem a ↔ s.inMem a := by
    intro a
    rw [CPUI386.inMem, CPUI386.inMem, hc.memSize]
  constructor
  · rintro ⟨hw, hm⟩
    refine ⟨fun hn ht => hwalk.mp (hw (hfast.not.mpr hn) (htlb.not.mpr ht)), ?_⟩
    intro f a hf hmark
    exact (hin a).mp (hm f a ((lookup_congr hc hs).trans hf) hmark)
  · rintro ⟨hw, hm⟩
    refine ⟨fun hn ht => hwalk.mpr (hw (hfast.not.mp hn) (htlb.not.mp ht)), ?_⟩
    intro f a hf hmark
    exact (hin a).mpr (hm f a ((lookup_congr hc hs).symm.trans hf) hmark)

end LookupSpec

/-- The operand reaches into the next page. -/
def Straddles (laddr : Word) (size : Nat) : Prop := 0x1000 - size < (laddr &&& 0xfff).toNat

instance (laddr : Word) (size : Nat) : Decidable (Straddles laddr size) :=
  inferInstanceAs (Decidable (_ < _))

/-- The page after the last one has the number `2 ^ 20`, and address 0. -/
def nextPage (laddr : Word) : Word := laddr >>> 12 + 1

namespace CPUI386

/-- Where an operand lies, `none` if its translation faults. -/
def operand (s : CPUI386) (rwm : Nat) (laddr : Word) (size cpl : Nat) : Option OptAddr :=
  if hasBit s.cr0 cr0PG then
    match s.lookup rwm (laddr >>> 12) cpl with
    | none => none
    | some f =>
      if Straddles laddr size then
        match s.lookup rwm (nextPage laddr) cpl with
        | none => none
        | some f2 => some ⟨f.xaddr ^^^ laddr, some (f2.xaddr ^^^ (nextPage laddr <<< 12))⟩
      else some ⟨f.xaddr ^^^ laddr, none⟩
  else some ⟨laddr, none⟩

/-- The tables of the pages an operand needs are in guest memory. -/
def OperandTablesInMem (s : CPUI386) (rwm : Nat) (laddr : Word) (size cpl : Nat) : Prop :=
  hasBit s.cr0 cr0PG = true → s.TablesInMem rwm (laddr >>> 12) cpl ∧
    (s.lookup rwm (laddr >>> 12) cpl ≠ none → Straddles laddr size →
      s.TablesInMem rwm (nextPage laddr) cpl)

end CPUI386

section OperandSpec

variable {s s' : CPUI386} {rwm size cpl : Nat} {laddr : Word}

theorem page_lshr (a : Word) : page 12 a = (a >>> 12).toNat := by
  rw [BitVec.toNat_ushiftRight, Nat.shiftRight_eq_div_pow]
  rfl

theorem offset_and (a : Word) : offset 12 a = (a &&& 0xfff).toNat := by
  rw [BitVec.toNat_and]
  exact (Nat.and_two_pow_sub_one_eq_mod a.toNat 12).symm

theorem lshr_eq_of_page {a b : Word} (h : page 12 a = page 12 b) : a >>> 12 = b >>> 12 := by
  apply BitVec.eq_of_toNat_eq
  rw [← page_lshr, ← page_lshr]
  exact h

theorem straddles_iff (laddr : Word) {n : Nat} (hn : n ≤ 4096) :
    Straddles laddr n ↔ 4096 < offset 12 laddr + n := by
  unfold Straddles
  rw [offset_and]
  omega

theorem nextPage_toNat (laddr : Word) : (nextPage laddr).toNat = (laddr >>> 12).toNat + 1 := by
  have h := lshr_twelve_lt laddr
  unfold linearPages at h
  have h1 : (1 : Word).toNat = 1 := rfl
  unfold nextPage
  rw [BitVec.toNat_add, h1]
  omega

theorem nextPage_ne_noPage (laddr : Word) : nextPage laddr ≠ noPage := by
  apply ne_noPage
  have h := lshr_twelve_lt laddr
  rw [nextPage_toNat]
  omega

theorem nextPage_slot (laddr : Word) :
    (nextPage laddr).toNat % tlbSize ≠ (laddr >>> 12).toNat % tlbSize := by
  rw [nextPage_toNat]
  unfold tlbSize
  omega

theorem Cached.trans_fault {t : CPUI386} (h : Cached s t) (h' : CachedFault t s') :
    CachedFault s s' where
  marks := h.marks.trans h'.marks
  rest := by
    rw [h'.rest, h.rest]

theorem translateLaddr_operand (ha : s.Aligned) :
    wp (translateLaddr rwm laddr size cpl)
      (fun res s' => Cached s s' ∧ s'.Aligned ∧ s.OperandTablesInMem rwm laddr size cpl ∧
        s.operand rwm laddr size cpl = some res)
      (fun s' => CachedFault s s' ∧ s.OperandTablesInMem rwm laddr size cpl ∧
        s.operand rwm laddr size cpl = none)
      (fun why => why = .wild ∧ ¬ s.OperandTablesInMem rwm laddr size cpl) s := by
  unfold translateLaddr
  rw [wp_bind, wp_get]
  refine wp_ite ?_ ?_
  · intro hpg
    rw [wp_bind]
    refine wp_mono (translateLpgnoFast_lookup ha (ne_noPage_of_laddr laddr)) ?_ ?_ ?_
    · rintro addr1 t ⟨htr, hin, f, hf, rfl⟩
      have hslots := htr.other _ (nextPage_slot laddr)
      refine wp_ite ?_ ?_
      · intro hst
        have hst' : Straddles laddr size := hst
        rw [wp_bind]
        refine wp_mono (translateLpgnoFast_lookup htr.aligned (nextPage_ne_noPage laddr)) ?_ ?_ ?_
        · rintro addr2 u ⟨htr2, hin2, f2, hf2, rfl⟩
          have hin2 := (tablesInMem_congr htr.cached hslots).mp hin2
          have hf2 := (lookup_congr htr.cached hslots).symm.trans hf2
          rw [wp_pure]
          refine ⟨htr.cached.trans htr2.cached, htr2.aligned,
            fun _ => ⟨hin, fun _ _ => hin2⟩, ?_⟩
          rw [CPUI386.operand, if_pos hpg, hf]
          simp only [hst', if_true]
          rw [hf2]
          rfl
        · rintro u ⟨hcf, -, hin2, hnone, -⟩
          have hin2 := (tablesInMem_congr htr.cached hslots).mp hin2
          have hnone := (lookup_congr htr.cached hslots).symm.trans hnone
          refine ⟨htr.cached.trans_fault hcf, fun _ => ⟨hin, fun _ _ => hin2⟩, ?_⟩
          rw [CPUI386.operand, if_pos hpg, hf]
          simp only [hst', if_true]
          rw [hnone]
        · rintro why ⟨rfl, hout⟩
          refine ⟨rfl, ?_⟩
          intro h
          apply hout
          refine (tablesInMem_congr htr.cached hslots).mpr ((h hpg).2 ?_ hst')
          rw [hf]
          exact Option.some_ne_none f
      · intro hst
        have hst' : ¬ Straddles laddr size := hst
        rw [wp_pure]
        refine ⟨htr.cached, htr.aligned, fun _ => ⟨hin, fun _ h => absurd h hst'⟩, ?_⟩
        rw [CPUI386.operand, if_pos hpg, hf]
        simp only [hst', if_false]
    · rintro u ⟨hcf, -, hin, hnone, -⟩
      refine ⟨hcf, fun _ => ⟨hin, fun h => absurd hnone h⟩, ?_⟩
      rw [CPUI386.operand, if_pos hpg, hnone]
    · rintro why ⟨rfl, hout⟩
      exact ⟨rfl, fun h => hout (h hpg).1⟩
  · intro hpg
    rw [wp_pure]
    refine ⟨Cached.refl s, ha, fun h => absurd h hpg, ?_⟩
    rw [CPUI386.operand, if_neg hpg]

end OperandSpec

/-- As `MmuStep`, with no promise about the tables: everything outside the MMU may write them. -/
inductive CacheStep (s : CPUI386) : CPUI386 → Prop where
  | fast {s' : CPUI386} (rwm : Nat) (lpgno laddr : Word) (cpl : Nat)
      (hl : lpgno.toNat ≤ linearPages) (h : EndsIn (translateLpgnoFast rwm lpgno laddr cpl) s s') :
      CacheStep s s'
  | plain {s' : CPUI386} (rwm : Nat) (lpgno laddr : Word) (cpl : Nat)
      (hl : lpgno.toNat ≤ linearPages) (h : EndsIn (translateLpgno rwm lpgno laddr cpl) s s') :
      CacheStep s s'
  | fetch {s' : CPUI386} (seg : SegReg) (addr : Word) (h : EndsIn (translate8r seg addr) s s') :
      CacheStep s s'
  | movCr0 (v : Word) : CacheStep s (s.movCr0 v)
  | clear (t : CPUI386) : CacheStep s t.tlbClear
  | other {s' : CPUI386} (ht : s'.tlb = s.tlb) (hr : s'.dtlbRead = s.dtlbRead)
      (hw : s'.dtlbWrite = s.dtlbWrite) : CacheStep s s'

inductive CacheRun : CPUI386 → Prop where
  | reset {s : CPUI386} (h : s.Cleared) : CacheRun s
  | step {s s' : CPUI386} (hr : CacheRun s) (h : CacheStep s s') : CacheRun s'

section Runs

variable {s s' : CPUI386} {rwm cpl : Nat} {lpgno laddr : Word}

theorem tlbEntry_aligned (ha : s.Aligned) (hn : lpgno ≠ noPage) :
    wp (tlbEntry rwm lpgno laddr cpl)
      (fun e s' => s'.Aligned ∧ e.ppte.toNat % 4 = 0) (fun s' => s'.Aligned)
      (fun _ => True) s := by
  refine wp_mono (tlbEntry_entryFor s) ?_ ?_ (fun _ _ => trivial)
  · rintro e u ⟨-, he, t, hm, rfl⟩
    obtain ⟨-, hpp, hx⟩ := entryFor_aligned ha hn he
    exact ⟨(Translated.setTlb ha hm fun _ => ⟨hpp, hx⟩ : Translated s lpgno _).aligned, hpp⟩
  · rintro u ⟨-, -, t, hm, hu, -⟩
    exact (ha.marks hm).fault hu

theorem translateLpgno_aligned (ha : s.Aligned) (hn : lpgno ≠ noPage) :
    wp (translateLpgno rwm lpgno laddr cpl) (fun _ s' => s'.Aligned) (fun s' => s'.Aligned)
      (fun _ => True) s := by
  unfold translateLpgno
  refine wp_bind_mono (tlbEntry_aligned ha hn) ?_
  rintro e t ⟨hat, hpp⟩
  rw [wp_bind]
  refine wp_onlyIf ?_ ?_
  · intro _
    rw [wp_bind, wp_modify]
    apply wp_pageFault
    intro t' ht' _
    exact (hat.freeTlb lpgno).fault ht'
  · intro _
    rw [wp_bind]
    refine wp_onlyIf ?_ (fun _ => hat)
    intro _
    refine wp_mono (markPteDirty_spec hpp) ?_ (fun _ h => h.elim) (fun _ _ => trivial)
    rintro _ u ⟨hm, -⟩
    exact hat.marks hm

theorem translate8r_aligned (ha : s.Aligned) (seg : SegReg) (addr : Word) :
    wp (translate8r seg addr) (fun _ s' => s'.Aligned) (fun s' => s'.Aligned)
      (fun _ => True) s := by
  unfold translate8r
  rw [wp_bind, wp_get, wp_bind]
  refine wp_segcheck (fun _ => ⟨ha.tlb, ha.read, ha.write⟩) ?_
  intro _
  refine wp_ite ?_ (fun _ => ha)
  intro _
  refine wp_bind_mono (tlbEntry_aligned ha (ne_noPage_of_laddr _)) ?_
  rintro e t ⟨hat, -⟩
  rw [wp_bind]
  refine wp_onlyIf ?_ (fun _ => hat)
  intro _
  rw [wp_bind, wp_modify]
  apply wp_pageFault
  intro t' ht' _
  exact (hat.freeTlb _).fault ht'

theorem movCr0_aligned (ha : s.Aligned) (v : Word) : (s.movCr0 v).Aligned := by
  unfold CPUI386.movCr0
  by_cases hb : hasBit (v ^^^ s.cr0) (cr0PG ||| cr0WP ||| 1) = true
  · simp only [hb, if_true]
    exact CPUI386.Cleared.aligned ⟨fun _ => rfl, fun _ => rfl, fun _ => rfl⟩
  · simp only [hb, Bool.false_eq_true, if_false]
    exact ⟨ha.tlb, ha.read, ha.write⟩

theorem cacheStep_aligned (ha : s.Aligned) (h : CacheStep s s') : s'.Aligned := by
  cases h with
  | fast rwm lpgno laddr cpl hl h =>
    exact wp_endsIn (translateLpgnoFast_lookup ha (ne_noPage hl)) h
      (fun _ _ h => h.translated.aligned) (fun _ h => h.aligned)
  | plain rwm lpgno laddr cpl hl h =>
    exact wp_endsIn (translateLpgno_aligned ha (ne_noPage hl)) h (fun _ _ h => h) (fun _ h => h)
  | fetch seg addr h =>
    exact wp_endsIn (translate8r_aligned ha seg addr) h (fun _ _ h => h) (fun _ h => h)
  | movCr0 v => exact movCr0_aligned ha v
  | clear t => exact (t.tlbClear_cleared).aligned
  | other ht hr hw => exact ha.of_caches ht hr hw

theorem cacheRun_aligned (h : CacheRun s) : s.Aligned := by
  induction h with
  | reset h => exact h.aligned
  | step _ h ih => exact cacheStep_aligned ih h

end Runs

end Winspire.Cpu
