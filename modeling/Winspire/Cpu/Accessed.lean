import Winspire.Cpu.Lookup

/-!
# Translations up to the caches

When every page in the caches has its accessed bits set, a translation changes the same bytes
whether it hits or misses: what it does outside the caches is a function of the tables.
-/

namespace Winspire.Cpu

open Faulting

set_option autoImplicit false

namespace CPUI386

/-- A walk of the page has nothing to mark. -/
structure Seen (s : CPUI386) (lpgno : Word) : Prop where
  pde : (s.pde lpgno).getLsbD 0 = true → (s.pde lpgno).getLsbD 5 = true
  pte : (s.pde lpgno).getLsbD 0 = true → (s.pte lpgno).getLsbD 0 = true →
    (s.pte lpgno).getLsbD 5 = true

def markDirty (s : CPUI386) (lpgno : Word) : CPUI386 :=
  s.setMem (s.pteAddr lpgno) (s.byteAt (s.pteAddr lpgno) ||| dirty)

def marked (s : CPUI386) (rwm : Nat) (lpgno : Word) : CPUI386 :=
  if rwm.testBit 1 then (s.markAccessed lpgno).markDirty lpgno else s.markAccessed lpgno

end CPUI386

section Seen

variable {s s' : CPUI386} {l : Word}

theorem getLsbD_dwordAt_low (s : CPUI386) (a : Word) {i : Nat} (hi : i < 8) :
    (s.dwordAt a).getLsbD i = (s.byteAt a).getLsbD i := by
  unfold CPUI386.dwordAt
  rw [BitVec.getLsbD_append, if_pos hi]

theorem or_eq_self_of_getLsbD {v : Byte} {i : Nat} (h : v.getLsbD i = true) :
    v ||| BitVec.twoPow 8 i = v := by
  apply BitVec.eq_of_getLsbD_eq
  intro j hj
  rw [BitVec.getLsbD_or, BitVec.getLsbD_twoPow]
  by_cases hij : i = j
  · rw [← hij, h, Bool.true_or]
  · simp [hij]

theorem setMem_byteAt (s : CPUI386) (a : Word) : s.setMem a (s.byteAt a) = s := by
  unfold CPUI386.setMem CPUI386.byteAt
  rw [Function.update_eq_self]

theorem setMem_accessed (h : (s.dwordAt l).getLsbD 5 = true) :
    s.setMem l (s.byteAt l ||| accessed) = s := by
  rw [getLsbD_dwordAt_low s l (by decide)] at h
  have hb : s.byteAt l ||| accessed = s.byteAt l := or_eq_self_of_getLsbD h
  rw [hb, setMem_byteAt]

theorem setMem_dirty (h : s.IsDirty l) : s.setMem l (s.byteAt l ||| dirty) = s := by
  have hb : s.byteAt l ||| dirty = s.byteAt l := or_eq_self_of_getLsbD h
  rw [hb, setMem_byteAt]

theorem CPUI386.Seen.markAccessed_eq (h : s.Seen l) : s.markAccessed l = s := by
  unfold CPUI386.markAccessed
  by_cases hd : (s.pde l).getLsbD 0 = true
  · rw [if_pos hd]
    have h1 : s.setMem (s.pdeAddr l) (s.byteAt (s.pdeAddr l) ||| accessed) = s :=
      setMem_accessed (h.pde hd)
    simp only [h1]
    by_cases ht : (s.pte l).getLsbD 0 = true
    · rw [if_pos ht]
      exact setMem_accessed (h.pte hd ht)
    · rw [if_neg ht]
  · rw [if_neg hd]

theorem Marks.getLsbD_mono (h : Marks s s') {a : Word} (ha : a.toNat % 4 = 0) {i : Nat}
    (hi : (s.dwordAt a).getLsbD i = true) : (s'.dwordAt a).getLsbD i = true := by
  obtain ⟨b, -, hd⟩ := h.dwordAt ha
  rw [hd, BitVec.getLsbD_or, hi, Bool.true_or]

theorem CPUI386.Seen.marks (h : s.Seen l) (hm : Marks s s') : s'.Seen l where
  pde hd := by
    rw [hm.pde_getLsbD l (by decide)] at hd
    have h5 := hm.getLsbD_mono (s.pdeAddr_low l) (h.pde hd)
    rw [CPUI386.pde, hm.pdeAddr]
    exact h5
  pte hd ht := by
    rw [hm.pde_getLsbD l (by decide)] at hd
    rw [hm.pte_getLsbD l (by decide)] at ht
    have h5 := hm.getLsbD_mono (s.pteAddr_low l) (h.pte hd ht)
    rw [CPUI386.pte, hm.pteAddr]
    exact h5

theorem setMem_getLsbD (s : CPUI386) (a : Word) :
    ((s.setMem a (s.byteAt a ||| accessed)).dwordAt a).getLsbD 5 = true := by
  rw [getLsbD_dwordAt_low _ _ (by decide), byteAt_setMem_self, BitVec.getLsbD_or]
  have h : accessed.getLsbD 5 = true := rfl
  rw [h, Bool.or_true]

theorem seen_markAccessed (s : CPUI386) (l : Word) : (s.markAccessed l).Seen l := by
  have hm := (MarksOnly.markAccessed s l).marks
  have hpde : (s.pde l).getLsbD 0 = true →
      ((s.setMem (s.pdeAddr l) (s.byteAt (s.pdeAddr l) ||| accessed)).dwordAt
        (s.pdeAddr l)).getLsbD 5 = true := fun _ => setMem_getLsbD s _
  constructor
  · intro hd
    rw [hm.pde_getLsbD l (by decide)] at hd
    rw [CPUI386.pde, hm.pdeAddr]
    unfold CPUI386.markAccessed
    rw [if_pos hd]
    simp only []
    split
    · refine (marks_setMem (s.pteAddr_low l) (by decide)).getLsbD_mono (s.pdeAddr_low l) (hpde hd)
    · exact hpde hd
  · intro hd ht
    rw [hm.pde_getLsbD l (by decide)] at hd
    rw [hm.pte_getLsbD l (by decide)] at ht
    rw [CPUI386.pte, hm.pteAddr]
    unfold CPUI386.markAccessed
    rw [if_pos hd]
    simp only [ht, if_true]
    exact setMem_getLsbD _ _

end Seen

/-- A slot for one of the first `n` pages is for a page seen. -/
def CPUI386.SlotSeen (s : CPUI386) (n : Nat) (lpgno : Word) : Prop :=
  lpgno ≠ noPage → lpgno.toNat < n → s.Seen lpgno

/-- The pages in the caches have been seen. -/
structure SlotsSeen (n : Nat) (s : CPUI386) : Prop where
  tlb : ∀ i, s.SlotSeen n (s.tlb i).lpgno
  read : ∀ i, s.SlotSeen n (s.dtlbRead i).lpgno
  write : ∀ i, s.SlotSeen n (s.dtlbWrite i).lpgno

/-- The caches agree with the tables, and their pages have been seen. -/
structure Faithful (n : Nat) (s : CPUI386) : Prop where
  coherent : Coherent n s
  seen : SlotsSeen n s

section Faithful

variable {n : Nat} {s s' : CPUI386} {rwm cpl : Nat} {l laddr : Word}

theorem CPUI386.Cleared.faithful (h : s.Cleared) : Faithful n s where
  coherent := h.coherent
  seen := ⟨fun i hn => absurd (h.tlb i) hn, fun i hn => absurd (h.read i) hn,
    fun i hn => absurd (h.write i) hn⟩

theorem SlotsSeen.congr (hf : SlotsSeen n s)
    (hseen : ∀ k, k.toNat < n → s.Seen k → s'.Seen k)
    (ht : ∀ i, (s'.tlb i).lpgno = (s.tlb i).lpgno ∨ s'.SlotSeen n (s'.tlb i).lpgno)
    (hr : ∀ i, (s'.dtlbRead i).lpgno = (s.dtlbRead i).lpgno ∨ s'.SlotSeen n (s'.dtlbRead i).lpgno)
    (hw : ∀ i, (s'.dtlbWrite i).lpgno = (s.dtlbWrite i).lpgno ∨
      s'.SlotSeen n (s'.dtlbWrite i).lpgno) : SlotsSeen n s' where
  tlb i := by
    rcases ht i with he | hv
    · intro hn hl
      rw [he] at hn hl ⊢
      exact hseen _ hl (hf.tlb i hn hl)
    · exact hv
  read i := by
    rcases hr i with he | hv
    · intro hn hl
      rw [he] at hn hl ⊢
      exact hseen _ hl (hf.read i hn hl)
    · exact hv
  write i := by
    rcases hw i with he | hv
    · intro hn hl
      rw [he] at hn hl ⊢
      exact hseen _ hl (hf.write i hn hl)
    · exact hv

theorem slotSeen_noPage : s.SlotSeen n noPage := fun hn => absurd rfl hn

theorem tlbEntry_seen (hf : Faithful n s) (hn : l ≠ noPage) (hl : l.toNat < n) :
    wp (tlbEntry rwm l laddr cpl)
      (fun e s' => s' = { s.markAccessed l with
        tlb := Function.update s.tlb (l.toNat % tlbSize) e } ∧ e.lpgno = l ∧ e.ppte = s.pteAddr l)
      (fun s' => s' = { s.markAccessed l with
        cr2 := s'.cr2, excno := s'.excno, excerr := s'.excerr })
      (fun _ => True) s := by
  unfold tlbEntry
  rw [wp_bind, wp_get, wp_bind]
  refine wp_onlyIf ?_ ?_
  · intro _
    rw [wp_bind]
    refine wp_mono (tlbRefill_exact s l) ?_ (fun _ h => h.elim) (fun _ _ => trivial)
    rintro filled t ⟨-, ht⟩
    cases filled with
    | true =>
      rw [if_pos rfl] at ht
      obtain ⟨p, hw, rfl⟩ := ht
      refine wp_onlyIf (fun h => absurd rfl h) ?_
      intro _
      rw [wp_gets]
      refine ⟨?_, ?_, ?_⟩
      · simp only [Function.update_self]
      · simp only [Function.update_self]
        rfl
      · simp only [Function.update_self]
        exact CPUI386.walk_pteAddr hw
    | false =>
      rw [if_neg (by decide)] at ht
      rw [ht.2]
      refine wp_onlyIf ?_ (fun h => absurd Bool.false_ne_true h)
      intro _
      apply wp_pageFault
      intro u hu _
      exact hu
  · intro hhit
    have hit : (s.tlb (l.toNat % tlbSize)).lpgno = l := Decidable.not_not.mp hhit
    have hne : (s.tlb (l.toNat % tlbSize)).lpgno ≠ noPage := by
      rw [hit]
      exact hn
    have hlt : (s.tlb (l.toNat % tlbSize)).lpgno.toNat < n := by
      rw [hit]
      exact hl
    have hseen := hf.seen.tlb _ hne hlt
    rw [hit] at hseen
    obtain ⟨-, hv⟩ := hf.coherent.tlb _ hne
    obtain ⟨p, hp, he⟩ := hv hlt
    rw [wp_gets]
    refine ⟨?_, hit, ?_⟩
    · rw [hseen.markAccessed_eq, Function.update_eq_self]
    · rw [he, hit]
      rw [hit] at hp
      exact CPUI386.walk_pteAddr hp.1

theorem markPteDirty_exact (s : CPUI386) (a : Word) :
    wp (markPteDirty (some a)) (fun _ s' => s' = s.setMem a (s.byteAt a ||| dirty))
      (fun _ => False) (fun _ => True) s := by
  unfold markPteDirty
  rw [wp_bind]
  refine wp_pload8 ?_ (fun _ => trivial)
  intro _
  refine wp_ite ?_ ?_
  · intro _
    exact wp_pstore8 (fun _ => rfl) (fun _ => trivial)
  · intro hd
    rw [wp_pure]
    exact (setMem_dirty (isDirty_of_and hd)).symm

theorem markAccessed_marks (s : CPUI386) (l : Word) : Marks s (s.markAccessed l) :=
  (MarksOnly.markAccessed s l).marks

theorem markDirty_marksOnly (s : CPUI386) (l : Word) : MarksOnly s (s.markDirty l) :=
  (MarksOnly.refl s).setMem (s.pteAddr_low l) (by decide)

/-- Whatever a slot of a table is updated to, the others stay. -/
theorem update_lpgno {ε : Type} (f : ε → Word) (tab : Nat → ε) (slot : Nat) {e : ε}
    (he : f e = l ∨ f e = noPage) (i : Nat) :
    f (Function.update tab slot e i) = f (tab i) ∨ f (Function.update tab slot e i) = l ∨
      f (Function.update tab slot e i) = noPage := by
  by_cases hi : i = slot
  · right
    rw [hi, Function.update_self]
    exact he
  · left
    rw [Function.update_of_ne hi]

/-- Entries are marked, and slots are freed or filled for `l`. -/
structure Refits (l : Word) (s s' : CPUI386) : Prop where
  marks : Marks s s'
  tlb : ∀ i, (s'.tlb i).lpgno = (s.tlb i).lpgno ∨ (s'.tlb i).lpgno = l ∨
    (s'.tlb i).lpgno = noPage
  read : ∀ i, (s'.dtlbRead i).lpgno = (s.dtlbRead i).lpgno ∨ (s'.dtlbRead i).lpgno = l ∨
    (s'.dtlbRead i).lpgno = noPage
  write : ∀ i, (s'.dtlbWrite i).lpgno = (s.dtlbWrite i).lpgno ∨ (s'.dtlbWrite i).lpgno = l ∨
    (s'.dtlbWrite i).lpgno = noPage

namespace Refits

theorem trans {t u : CPUI386} (h : Refits l s t) (h' : Refits l t u) : Refits l s u where
  marks := h.marks.trans h'.marks
  tlb i := by
    rcases h'.tlb i with hsame | hnew
    · rw [hsame]
      exact h.tlb i
    · exact .inr hnew
  read i := by
    rcases h'.read i with hsame | hnew
    · rw [hsame]
      exact h.read i
    · exact .inr hnew
  write i := by
    rcases h'.write i with hsame | hnew
    · rw [hsame]
      exact h.write i
    · exact .inr hnew

theorem of_marksOnly (h : MarksOnly s s') : Refits l s s' where
  marks := h.marks
  tlb _ := by
    left
    rw [h.rest]
  read _ := by
    left
    rw [h.rest]
  write _ := by
    left
    rw [h.rest]

theorem of_fault (h : s' = { s with cr2 := s'.cr2, excno := s'.excno, excerr := s'.excerr }) :
    Refits l s s' where
  marks := (Marks.refl s).congr (by rw [h]) (by rw [h])
  tlb _ := by
    left
    rw [h]
  read _ := by
    left
    rw [h]
  write _ := by
    left
    rw [h]

theorem tlb_update {e : TlbEntry} (slot : Nat) (he : e.lpgno = l ∨ e.lpgno = noPage) :
    Refits l s { s with tlb := Function.update s.tlb slot e } where
  marks := (Marks.refl s).congr rfl rfl
  tlb := update_lpgno TlbEntry.lpgno s.tlb slot he
  read _ := .inl rfl
  write _ := .inl rfl

theorem write_update {w : DtlbWrite} (slot : Nat) (hw : w.lpgno = l ∨ w.lpgno = noPage) :
    Refits l s { s with dtlbWrite := Function.update s.dtlbWrite slot w } where
  marks := (Marks.refl s).congr rfl rfl
  tlb _ := .inl rfl
  read _ := .inl rfl
  write := update_lpgno DtlbWrite.lpgno s.dtlbWrite slot hw

theorem fillDtlbRead (xaddr : Word) (user : Bool) : Refits l s (s.fillDtlbRead l xaddr user) where
  marks := (Marks.refl s).congr rfl rfl
  tlb _ := .inl rfl
  read := update_lpgno DtlbRead.lpgno s.dtlbRead _ (.inl rfl)
  write _ := .inl rfl

theorem freeDtlb : Refits l s (s.freeDtlb l) where
  marks := (Marks.refl s).congr rfl rfl
  tlb _ := .inl rfl
  read i := by
    unfold CPUI386.freeDtlb
    dsimp only
    split
    · exact update_lpgno DtlbRead.lpgno s.dtlbRead _ (.inr rfl) i
    · exact .inl rfl
  write i := by
    unfold CPUI386.freeDtlb
    dsimp only
    split
    · exact update_lpgno DtlbWrite.lpgno s.dtlbWrite _ (.inr rfl) i
    · exact .inl rfl

end Refits

theorem SlotsSeen.refits (hf : SlotsSeen n s) (h : Refits l s s') (hl : s'.Seen l) :
    SlotsSeen n s' := by
  have hslot : ∀ k, k = l ∨ k = noPage → s'.SlotSeen n k := by
    rintro k (rfl | rfl)
    · exact fun _ _ => hl
    · exact slotSeen_noPage
  refine hf.congr (fun k _ hk => hk.marks h.marks) ?_ ?_ ?_
  · intro i
    exact (h.tlb i).imp_right (hslot _)
  · intro i
    exact (h.read i).imp_right (hslot _)
  · intro i
    exact (h.write i).imp_right (hslot _)

/-- What the walk of `l` has marked is seen, so slots for `l` may be filled. -/
theorem SlotsSeen.walked (hf : SlotsSeen n s) (h : Refits l (s.markAccessed l) s') :
    SlotsSeen n s' :=
  hf.refits ((Refits.of_marksOnly (MarksOnly.markAccessed s l)).trans h)
    ((seen_markAccessed s l).marks h.marks)

theorem refits_tlbEntry {e : TlbEntry} (he : e.lpgno = l) :
    Refits l (s.markAccessed l) { s.markAccessed l with
      tlb := Function.update s.tlb (l.toNat % tlbSize) e } := by
  have htlb : (s.markAccessed l).tlb = s.tlb := by rw [(MarksOnly.markAccessed s l).rest]
  rw [← htlb]
  exact .tlb_update _ (.inl he)

theorem translateLpgnoFill_exact (hf : Faithful n s) (hn : l ≠ noPage) (hl : l.toNat < n) :
    wp (translateLpgnoFill rwm l laddr cpl)
      (fun _ s' => s'.mem = (s.marked rwm l).mem ∧ SlotsSeen n s')
      (fun s' => s'.mem = (s.markAccessed l).mem ∧ SlotsSeen n s') (fun _ => True) s := by
  unfold translateLpgnoFill
  rw [wp_bind]
  refine wp_mono (tlbEntry_seen hf hn hl) ?_ ?_ (fun _ _ => trivial)
  · rintro e u ⟨hu, he, hpp⟩
    have hrefits : Refits l (s.markAccessed l) u := by
      rw [hu]
      exact refits_tlbEntry he
    have hmem : u.mem = (s.markAccessed l).mem := by rw [hu]
    rw [wp_bind]
    refine wp_onlyIf ?_ ?_
    · intro _
      rw [wp_bind, wp_modify]
      apply wp_pageFault
      intro t' ht' _
      have hfreed : Refits l u ((u.freeTlb l).freeDtlb l) :=
        (Refits.tlb_update _ (.inr rfl)).trans .freeDtlb
      refine ⟨?_, hf.seen.walked ((hrefits.trans hfreed).trans (.of_fault ht'))⟩
      rw [ht', ← hmem]
      rfl
    · intro _
      refine wp_ite ?_ ?_
      · intro hwrites
        rw [wp_bind]
        refine wp_mono (markPteDirty_exact _ _) ?_ (fun _ h => h.elim) (fun _ _ => trivial)
        rintro _ v rfl
        rw [wp_bind, wp_modify, wp_pure]
        have hpa : e.ppte = (s.markAccessed l).pteAddr l :=
          hpp.trans ((markAccessed_marks s l).pteAddr l).symm
        have hlow : e.ppte.toNat % 4 = 0 := by
          rw [hpp]
          exact s.pteAddr_low l
        have hdirtied : Refits l u (u.setMem e.ppte (u.byteAt e.ppte ||| dirty)) :=
          .of_marksOnly ((MarksOnly.refl u).setMem hlow (by decide))
        refine ⟨?_, hf.seen.walked ((hrefits.trans hdirtied).trans (.write_update _ (.inl rfl)))⟩
        rw [CPUI386.marked, if_pos hwrites, CPUI386.markDirty, ← hpa, hu]
        rfl
      · intro hreads
        rw [wp_bind, wp_modify, wp_pure]
        refine ⟨?_, hf.seen.walked (hrefits.trans (.fillDtlbRead _ _))⟩
        rw [CPUI386.marked, if_neg hreads, ← hmem]
        rfl
  · intro u hu
    exact ⟨by rw [hu], hf.seen.walked (.of_fault hu)⟩

theorem marked_of_seen (hs : s.Seen l) (hd : rwm.testBit 1 = true → s.IsDirty (s.pteAddr l)) :
    s.marked rwm l = s := by
  unfold CPUI386.marked
  rw [hs.markAccessed_eq]
  by_cases hb : rwm.testBit 1 = true
  · rw [if_pos hb]
    exact setMem_dirty (hd hb)
  · rw [if_neg hb]

theorem translateLpgnoFast_exact (hf : Faithful n s) (hn : l ≠ noPage) (hl : l.toNat < n) :
    wp (translateLpgnoFast rwm l laddr cpl)
      (fun _ s' => s'.mem = (s.marked rwm l).mem ∧ SlotsSeen n s')
      (fun s' => s'.mem = (s.markAccessed l).mem ∧ SlotsSeen n s') (fun _ => True) s := by
  have hwslot : (s.dtlbWrite (l.toNat % dtlbFastSlots)).lpgno = l → s.Seen l := by
    intro he
    have h := hf.seen.write (l.toNat % dtlbFastSlots)
    rw [he] at h
    exact h hn hl
  unfold translateLpgnoFast
  rw [wp_bind, wp_get]
  refine wp_ite ?_ ?_
  · rintro ⟨rfl, he, -⟩
    have h := hf.seen.read (l.toNat % dtlbFastSlots)
    rw [he] at h
    rw [wp_pure, marked_of_seen (h hn hl) (fun h => absurd h (by decide))]
    exact ⟨rfl, hf.seen⟩
  · intro _
    refine wp_ite ?_ ?_
    · rintro ⟨rfl, he, -⟩
      rw [wp_pure, marked_of_seen (hwslot he) (fun h => absurd h (by decide))]
      exact ⟨rfl, hf.seen⟩
    · intro _
      refine wp_ite ?_ (fun _ => translateLpgnoFill_exact hf hn hl)
      rintro ⟨rfl, hr⟩
      obtain ⟨p, hw, -, -, hpp, hd⟩ := write_slot hf.coherent hn hl hr
      have hseen := hwslot hr.1
      have hpa : p.pteAddr = s.pteAddr l := CPUI386.walk_pteAddr hw.1
      rw [wp_bind]
      refine wp_onlyIf ?_ ?_
      · intro _
        rw [hpp, wp_bind]
        refine wp_mono (markPteDirty_exact _ _) ?_ (fun _ h => h.elim) (fun _ _ => trivial)
        rintro _ v rfl
        rw [wp_modify, wp_pure]
        have hlow : p.pteAddr.toNat % 4 = 0 := by
          rw [hpa]
          exact s.pteAddr_low l
        have hdirtied : Refits l s (s.setMem p.pteAddr (s.byteAt p.pteAddr ||| dirty)) :=
          .of_marksOnly ((MarksOnly.refl s).setMem hlow (by decide))
        have hrefits := hdirtied.trans (.write_update (l.toNat % dtlbFastSlots)
          (w := { s.dtlbWrite (l.toNat % dtlbFastSlots) with dirty := true }) (.inl hr.1))
        refine ⟨?_, hf.seen.refits hrefits (hseen.marks hrefits.marks)⟩
        rw [CPUI386.marked, if_pos (by decide), hseen.markAccessed_eq, CPUI386.markDirty, hpa]
      · intro hdirty
        have hd' := hd (Decidable.not_not.mp hdirty)
        rw [hpa] at hd'
        rw [wp_pure, marked_of_seen hseen (fun _ => hd')]
        exact ⟨rfl, hf.seen⟩

end Faithful

end Winspire.Cpu
