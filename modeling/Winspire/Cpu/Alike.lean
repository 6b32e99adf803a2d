import Winspire.Cpu.Accessed
import Winspire.Cpu.Held
import Winspire.Cpu.Outer

/-!
# The same machine up to its caches

Two states that differ in their translation caches, both in agreement with the tables, translate
alike: they fault at the same addresses, mark the same entries and go on differing in their caches
only. The log of the devices may differ where no device is read.
-/

namespace Winspire.Cpu

open Faulting

set_option autoImplicit false

/-- An operand at the end of the address space goes on in the page behind the last one. -/
def operandPages : Nat := linearPages + 1

/-- The same machine, up to the caches with `loose` and up to the log of the devices with `deaf`. -/
structure Same (loose deaf : Bool) (s t : CPUI386) : Prop where
  rest : s = { t with tlb := s.tlb, dtlbRead := s.dtlbRead, dtlbWrite := s.dtlbWrite, io := s.io }
  caches : loose = false →
    s.tlb = t.tlb ∧ s.dtlbRead = t.dtlbRead ∧ s.dtlbWrite = t.dtlbWrite
  devices : deaf = false → s.io = t.io

/-- With `loose` the caches agree with the tables in use. -/
structure Sound (loose : Bool) (s : CPUI386) : Prop where
  aligned : s.Aligned
  faithful : loose = true → hasBit s.cr0 cr0PG = true → Faithful operandPages s

structure Alike (loose deaf : Bool) (s t : CPUI386) : Prop extends Same loose deaf s t where
  left : Sound loose s
  right : Sound loose t

/-- The tables say what they said, and no page has become unseen. -/
structure TablesKept (s t : CPUI386) : Prop where
  pages : SamePages operandPages s t
  seen : ∀ l : Word, l.toNat < operandPages → s.Seen l → t.Seen l

section Same

variable {loose deaf : Bool} {s t u : CPUI386} {l : Word}

theorem Same.refl (s : CPUI386) : Same loose deaf s s := ⟨rfl, fun _ => ⟨rfl, rfl, rfl⟩, fun _ => rfl⟩

theorem Same.symm (h : Same loose deaf s t) : Same loose deaf t s where
  rest := by rw [h.rest]
  caches hl := by
    obtain ⟨h1, h2, h3⟩ := h.caches hl
    exact ⟨h1.symm, h2.symm, h3.symm⟩
  devices hd := (h.devices hd).symm

theorem Same.trans (h : Same loose deaf s t) (h' : Same loose deaf t u) : Same loose deaf s u where
  rest := by rw [h.rest, h'.rest]
  caches hl := by
    obtain ⟨h1, h2, h3⟩ := h.caches hl
    obtain ⟨h1', h2', h3'⟩ := h'.caches hl
    exact ⟨h1.trans h1', h2.trans h2', h3.trans h3'⟩
  devices hd := (h.devices hd).trans (h'.devices hd)

theorem Same.around (h : Same false deaf s t) : s = t.around id id id fun _ => s.io := by
  obtain ⟨h1, h2, h3⟩ := h.caches rfl
  have hr := h.rest
  rw [h1, h2, h3] at hr
  exact hr

theorem same_seesDevices : SeesDevices (Same loose deaf) where
  mem _ _ h := by rw [h.rest]
  memSize _ _ h := by rw [h.rest]
  setMem s t a v h := ⟨by rw [h.rest]; rfl, h.caches, h.devices⟩
  cb _ _ h := by rw [h.rest]
  event s t e h := ⟨by rw [h.rest], h.caches, fun hd => by rw [h.devices hd]⟩

theorem Same.maps (h : Same loose deaf s t) {p : Page} : s.Maps l p ↔ t.Maps l p := by
  rw [h.rest]
  exact Iff.rfl

theorem Same.walkInMem (h : Same loose deaf s t) : s.WalkInMem l ↔ t.WalkInMem l := by
  rw [h.rest]
  exact Iff.rfl

theorem markAccessed_mem (s : CPUI386) (l : Word) : (s.markAccessed l).mem =
    if (s.pde l).getLsbD 0 then
      if (s.pte l).getLsbD 0 then
        ((s.setMem (s.pdeAddr l) (s.byteAt (s.pdeAddr l) ||| accessed)).setMem (s.pteAddr l)
          ((s.setMem (s.pdeAddr l) (s.byteAt (s.pdeAddr l) ||| accessed)).byteAt (s.pteAddr l) |||
            accessed)).mem
      else (s.setMem (s.pdeAddr l) (s.byteAt (s.pdeAddr l) ||| accessed)).mem
    else s.mem := by
  unfold CPUI386.markAccessed
  split
  · simp only []
    split
    · rfl
    · rfl
  · rfl

theorem Same.markAccessed (h : Same loose deaf s t) (l : Word) :
    (s.markAccessed l).mem = (t.markAccessed l).mem := by
  rw [markAccessed_mem, markAccessed_mem, h.rest]
  rfl

theorem Same.marked (h : Same loose deaf s t) (rwm : Nat) (l : Word) :
    (s.marked rwm l).mem = (t.marked rwm l).mem := by
  have hm := h.markAccessed l
  have hc : (s.markAccessed l).pteAddr l = (t.markAccessed l).pteAddr l := by
    rw [(markAccessed_marks s l).pteAddr, (markAccessed_marks t l).pteAddr, h.rest]
    rfl
  unfold CPUI386.marked CPUI386.markDirty
  split
  · rw [CPUI386.setMem, CPUI386.setMem, CPUI386.byteAt, CPUI386.byteAt, hm, hc]
  · exact hm

theorem SamePages.trans {n : Nat} (h : SamePages n s t) (h' : SamePages n t u) :
    SamePages n s u where
  walk l hl := (h'.walk l hl).trans (h.walk l hl)
  inMem l hl := (h'.inMem l hl).trans (h.inMem l hl)
  wp := h'.wp.trans h.wp
  dirty l p hl hw hd := h'.dirty l p hl ((h.walk l hl).trans hw) (h.dirty l p hl hw hd)

theorem TablesKept.trans (h : TablesKept s t) (h' : TablesKept t u) : TablesKept s u :=
  ⟨h.pages.trans h'.pages, fun l hl hs => h'.seen l hl (h.seen l hl hs)⟩

theorem Cached.tablesKept (h : Cached s t) : TablesKept s t :=
  ⟨h.samePages, fun _ _ hs => hs.marks h.marks⟩

/-- Where memory and the registers of the MMU stay, the tables do. -/
theorem tablesKept_of_eq (hm : t.mem = s.mem) (hsize : t.memSize = s.memSize) (hcr0 : t.cr0 = s.cr0)
    (hcr3 : t.cr3 = s.cr3) : TablesKept s t := by
  have hmarks : Marks s t := (Marks.refl s).congr hm hcr3
  exact ⟨hmarks.samePages hcr0 hsize, fun _ _ hs => hs.marks hmarks⟩

theorem Same.tablesKept (h : Same loose deaf s t) : TablesKept s t := by
  refine tablesKept_of_eq ?_ ?_ ?_ ?_ <;> rw [h.rest]

theorem Faithful.kept (h : Faithful operandPages s) (hk : TablesKept s t) (htlb : t.tlb = s.tlb)
    (hr : t.dtlbRead = s.dtlbRead) (hw : t.dtlbWrite = s.dtlbWrite) : Faithful operandPages t where
  coherent := h.coherent.congr hk.pages (fun i => Or.inl (by rw [htlb])) (fun i => Or.inl (by rw [hr]))
    fun i => Or.inl (by rw [hw])
  seen := h.seen.congr hk.seen (fun i => Or.inl (by rw [htlb])) (fun i => Or.inl (by rw [hr]))
    fun i => Or.inl (by rw [hw])

theorem Sound.kept (h : Sound loose s) (hk : loose = true → hasBit s.cr0 cr0PG = true → TablesKept s t)
    (htlb : t.tlb = s.tlb) (hr : t.dtlbRead = s.dtlbRead) (hw : t.dtlbWrite = s.dtlbWrite)
    (hcr0 : t.cr0 = s.cr0) : Sound loose t where
  aligned := h.aligned.of_caches htlb hr hw
  faithful hl hpg := by
    rw [hcr0] at hpg
    exact (h.faithful hl hpg).kept (hk hl hpg) htlb hr hw

theorem Alike.symm (h : Alike loose deaf s t) : Alike loose deaf t s :=
  ⟨h.toSame.symm, h.right, h.left⟩

theorem Alike.trans (h : Alike loose deaf s t) (h' : Alike loose deaf t u) : Alike loose deaf s u :=
  ⟨h.toSame.trans h'.toSame, h.left, h'.right⟩

theorem Sound.alike (h : Sound loose s) : Alike loose deaf s s := ⟨Same.refl s, h, h⟩

/-- With the same caches one of the two is sound as the other is. -/
theorem Same.alike (h : Same loose deaf s t) (hl : loose = false) (ht : Sound loose t) :
    Alike loose deaf s t := by
  obtain ⟨h1, h2, h3⟩ := h.caches hl
  exact ⟨h, ⟨ht.aligned.of_caches h1 h2 h3, fun hf => absurd (hl.symm.trans hf) (by decide)⟩, ht⟩

end Same

section Translations

variable {loose deaf : Bool} {s t : CPUI386} {rwm cpl n : Nat} {l laddr : Word}

/-- What a translation returns and leaves, when the caches agree with the tables. -/
structure Exactly (n : Nat) (s : CPUI386) (rwm : Nat) (l laddr : Word) (cpl : Nat) (a : Word)
    (s' : CPUI386) : Prop where
  returned : Returned n s rwm l laddr cpl a s'
  mem : s'.mem = (s.marked rwm l).mem
  seen : SlotsSeen n s'
  aligned : s'.Aligned

theorem translateLpgnoFast_exactly (hf : Faithful n s) (ha : s.Aligned) (hk : IsRwm rwm)
    (hn : l ≠ noPage) (hl : l.toNat < n) :
    wp (translateLpgnoFast rwm l laddr cpl) (Exactly n s rwm l laddr cpl)
      (fun s' => Refused n s rwm l laddr cpl s' ∧ s'.mem = (s.markAccessed l).mem)
      (Lost n s l) s := by
  refine wp_mono (wp_and (translateLpgnoFast_spec hf.coherent hn hk)
    (wp_and (translateLpgnoFast_exact hf hn hl) (translateLpgnoFast_lookup ha hn))) ?_ ?_ ?_
  · rintro a s' ⟨hr, ⟨hm, hs⟩, htr⟩
    exact ⟨hr, hm, hs, htr.1.aligned⟩
  · rintro s' ⟨hr, ⟨hm, -⟩, -⟩
    exact ⟨hr, hm⟩
  · rintro why ⟨h, -⟩
    exact h

theorem Granted.unique {s' t' : CPUI386} {a b : Word} (h : Same loose deaf s t)
    (hs : Granted s s' rwm l laddr cpl a) (ht : Granted t t' rwm l laddr cpl b) : a = b := by
  obtain ⟨p, hp, -, ha, -⟩ := hs
  obtain ⟨q, hq, -, hb, -⟩ := ht
  have hpq : p = q := Option.some.inj ((h.maps.mp hp).1.symm.trans hq.1)
  rw [ha, hb, hpq]

theorem Granted.not_denied {s' : CPUI386} {a : Word} {prot : Bool} (h : Same loose deaf s t)
    (hs : Granted s s' rwm l laddr cpl a) (ht : Denied t rwm l cpl prot) : False := by
  obtain ⟨p, hp, hallow, -, -⟩ := hs
  have hw := (h.maps.mp hp).1
  have hwp : hasBit s.cr0 cr0WP = hasBit t.cr0 cr0WP := by rw [h.rest]
  unfold Denied at ht
  simp only [hw] at ht
  rw [hwp, ht.2.2] at hallow
  cases hallow

theorem Denied.unique {prot prot' : Bool} (h : Same loose deaf s t) (hs : Denied s rwm l cpl prot)
    (ht : Denied t rwm l cpl prot') : prot = prot' := by
  have hwalk : s.walk l = t.walk l := by
    rw [h.rest]
    rfl
  unfold Denied at hs ht
  rw [hwalk] at hs
  cases hw : t.walk l with
  | none =>
    simp only [hw] at hs ht
    rw [hs.2, ht.2]
  | some p =>
    simp only [hw] at hs ht
    rw [hs.2.1, ht.2.1]

theorem Cached.same {s' t' : CPUI386} (hs : Cached s s') (ht : Cached t t')
    (h : Same true deaf s t) (hm : s'.mem = t'.mem) : Same true deaf s' t' where
  rest := by
    rw [ht.rest, hs.rest, hm, h.rest]
  caches hl := absurd hl (by decide)
  devices hd := by
    rw [ht.rest, hs.rest]
    exact h.devices hd

theorem CachedFault.same {s' t' : CPUI386} {prot : Bool} (hs : CachedFault s s')
    (ht : CachedFault t t') (h : Same true deaf s t) (hm : s'.mem = t'.mem)
    (hfs : IsPageFault s' rwm laddr cpl prot) (hft : IsPageFault t' rwm laddr cpl prot) :
    Same true deaf s' t' where
  rest := by
    have h1 := hfs.cr2.trans hft.cr2.symm
    have h2 := hfs.excno.trans hft.excno.symm
    have h3 := hfs.excerr.trans hft.excerr.symm
    rw [ht.rest, hs.rest, hm, h1, h2, h3, h.rest]
  caches hl := absurd hl (by decide)
  devices hd := by
    rw [ht.rest, hs.rest]
    exact h.devices hd

theorem Exactly.sound {a : Word} {s' : CPUI386} (h : Exactly operandPages s rwm l laddr cpl a s') :
    Sound true s' :=
  ⟨h.aligned, fun _ _ => ⟨h.returned.coherent, h.seen⟩⟩

/-- Both states have the walk that their tables prescribe, and the tables are the same. -/
theorem rel_translateLpgnoFast (h : Alike true deaf s t) (hpg : hasBit t.cr0 cr0PG = true)
    (hk : IsRwm rwm) (hn : l ≠ noPage) (hl : l.toNat < operandPages) :
    (translateLpgnoFast rwm l laddr cpl s).Rel (Alike true deaf) (Same true deaf)
      (translateLpgnoFast rwm l laddr cpl t) := by
  have hsame := h.toSame
  have hpgs : hasBit s.cr0 cr0PG = true := by
    rw [hsame.rest]
    exact hpg
  have hs : wp (translateLpgnoFast rwm l laddr cpl) _ _ _ s :=
    translateLpgnoFast_exactly (h.left.faithful rfl hpgs) h.left.aligned hk hn hl
  have ht : wp (translateLpgnoFast rwm l laddr cpl) _ _ _ t :=
    translateLpgnoFast_exactly (h.right.faithful rfl hpg) h.right.aligned hk hn hl
  unfold wp at hs ht
  generalize translateLpgnoFast rwm l laddr cpl s = r at hs ⊢
  generalize translateLpgnoFast rwm l laddr cpl t = r' at ht ⊢
  cases r with
  | ok a s' =>
    have hgs := hs.returned.granted hl
    cases r' with
    | ok b t' =>
      have hab := Granted.unique hsame hgs (ht.returned.granted hl)
      have hm : s'.mem = t'.mem := by rw [hs.mem, ht.mem, hsame.marked]
      rw [hab]
      exact .ok b ⟨hs.returned.cached.same ht.returned.cached hsame hm, hs.sound, ht.sound⟩
    | fault t' =>
      obtain ⟨prot, -, hd⟩ := ht.1.denied
      exact (Granted.not_denied hsame hgs (hd hl)).elim
    | stop why =>
      obtain ⟨p, hp, -⟩ := hgs
      exact absurd (hsame.walkInMem.mp hp.2) (ht hl).2
  | fault s' =>
    obtain ⟨prot, hfs, hds⟩ := hs.1.denied
    cases r' with
    | ok b t' =>
      exact (Granted.not_denied hsame.symm (ht.returned.granted hl) (hds hl)).elim
    | fault t' =>
      obtain ⟨prot', hft, hdt⟩ := ht.1.denied
      have hp := Denied.unique hsame (hds hl) (hdt hl)
      have hm : s'.mem = t'.mem := by rw [hs.2, ht.2, hsame.markAccessed]
      rw [← hp] at hft
      exact .fault (hs.1.cached.same ht.1.cached hsame hm hfs hft)
    | stop why => exact absurd (hsame.walkInMem.mp (hds hl).1) (ht hl).2
  | stop why =>
    have hwild := hs hl
    cases r' with
    | ok b t' =>
      obtain ⟨p, hp, -⟩ := ht.returned.granted hl
      exact absurd (hsame.walkInMem.mpr hp.2) hwild.2
    | fault t' =>
      obtain ⟨prot, -, hd⟩ := ht.1.denied
      exact absurd (hsame.walkInMem.mpr (hd hl).1) hwild.2
    | stop why' =>
      rw [hwild.1, (ht hl).1]
      exact .stop _

theorem lshr_lt_operandPages (laddr : Word) : (laddr >>> 12).toNat < operandPages :=
  Nat.lt_succ_of_lt (lshr_twelve_lt laddr)

theorem nextPage_lt_operandPages (laddr : Word) : (nextPage laddr).toNat < operandPages := by
  rw [nextPage_toNat]
  exact Nat.succ_lt_succ (lshr_twelve_lt laddr)

theorem rel_translateLaddr (h : Alike true deaf s t) (hk : IsRwm rwm) (size : Nat) :
    (translateLaddr rwm laddr size cpl s).Rel (Alike true deaf) (Same true deaf)
      (translateLaddr rwm laddr size cpl t) := by
  have hcr0 : s.cr0 = t.cr0 := by rw [h.rest]
  unfold translateLaddr
  rw [get_bind_run, get_bind_run, hcr0]
  by_cases hpg : hasBit t.cr0 cr0PG = true
  · rw [if_pos hpg]
    refine rel_bind (rel_translateLpgnoFast h hpg hk (ne_noPage_of_laddr laddr)
      (lshr_lt_operandPages laddr)) fun a s' t' _ ht h' => ?_
    have hc := (wp_ok (translateLpgnoFast_lookup h.right.aligned (ne_noPage_of_laddr laddr))
      ht).translated.cached
    have hpg' : hasBit t'.cr0 cr0PG = true := by
      rw [hc.cr0]
      exact hpg
    by_cases hst : Straddles laddr size
    · refine (congrArg₂ _ (congrFun (if_pos hst) s') (congrFun (if_pos hst) t')).mpr ?_
      exact rel_bind (rel_translateLpgnoFast h' hpg' hk (nextPage_ne_noPage laddr)
        (nextPage_lt_operandPages laddr)) fun _ _ _ _ _ h => .ok _ h
    · refine (congrArg₂ _ (congrFun (if_neg hst) s') (congrFun (if_neg hst) t')).mpr ?_
      exact .ok _ h'
  · rw [if_neg hpg]
    exact .ok _ h

theorem rel_segcheck (h : Alike loose deaf s t) (seg : SegReg) :
    (segcheck seg s).Rel (Alike loose deaf) (Same loose deaf) (segcheck seg t) := by
  unfold segcheck
  have hcr0 : s.cr0 = t.cr0 := by rw [h.rest]
  have hseg : s.seg = t.seg := by rw [h.rest]
  rw [get_bind_run, get_bind_run, hcr0, hseg]
  unfold onlyIf
  split
  · exact .fault ⟨by rw [h.rest], h.caches, h.devices⟩
  · exact .ok _ h

/-- With the same caches a translation differs only in a log that it does not see. -/
theorem rel_translateW_tight (h : Alike false deaf s t) (hrwm : rwm = 1 ∨ rwm = 2) (w : Width)
    (seg : SegReg) (addr : Word) :
    (translateW w rwm seg addr s).Rel (Alike false deaf) (Same false deaf)
      (translateW w rwm seg addr t) := by
  have hs := h.toSame.around
  have hb : Blind (CPUI386.around id id id fun _ => s.io) (translateW w rwm seg addr) :=
    blind_around_translateW _ _ _ _
  have hkeep : Blind (CPUI386.around id id id fun _ => t.io) (translateW w rwm seg addr) :=
    blind_around_translateW _ _ _ _
  have hrun := hb t
  rw [← hs] at hrun
  rw [hrun]
  cases ht : translateW w rwm seg addr t with
  | ok a t' =>
    have hio : t'.io = t.io := (congrArg CPUI386.io (hkeep.kept rfl ht)).symm
    have ha := (wp_ok (translateW_settled h.right.aligned hrwm) ht).2.2
    refine .ok a (Same.alike ⟨rfl, fun _ => ⟨rfl, rfl, rfl⟩, fun hd => ?_⟩ rfl
      ⟨ha, fun hf => absurd hf (by decide)⟩)
    exact (h.devices hd).trans hio.symm
  | fault t' =>
    have hio : t'.io = t.io := by
      have hf := (hkeep.fault ht).symm.trans ht
      injection hf with hf
      exact (congrArg CPUI386.io hf).symm
    exact .fault ⟨rfl, fun _ => ⟨rfl, rfl, rfl⟩, fun hd => (h.devices hd).trans hio.symm⟩
  | stop why => exact .stop why

theorem rel_translateW (h : Alike loose deaf s t) (hrwm : rwm = 1 ∨ rwm = 2) (w : Width)
    (seg : SegReg) (addr : Word) :
    (translateW w rwm seg addr s).Rel (Alike loose deaf) (Same loose deaf)
      (translateW w rwm seg addr t) := by
  cases loose with
  | false => exact rel_translateW_tight h hrwm w seg addr
  | true =>
    have hseg : s.seg = t.seg := by rw [h.rest]
    have hcpl : s.cpl = t.cpl := by rw [h.rest]
    rw [translateW_run, translateW_run, hseg, hcpl]
    exact rel_bind (rel_segcheck h seg) fun _ _ _ _ _ h' =>
      rel_translateLaddr h' (hrwm.imp_right Or.inl) _

end Translations

section Accesses

variable {loose deaf : Bool} {s t : CPUI386} {w : Width} {res : OptAddr} {v : Word}

theorem asked_frame (s : CPUI386) (w : Width) (res : OptAddr) :
    s.asked w res = { s with io := (s.asked w res).io } := by
  unfold CPUI386.asked
  split
  · rfl
  · rfl

theorem Sound.asked (h : Sound loose s) : Sound loose (s.asked w res) := by
  rw [asked_frame]
  exact h.kept (fun _ _ => tablesKept_of_eq rfl rfl rfl rfl) rfl rfl rfl rfl

theorem rel_loadW_alike (h : Alike loose deaf s t) (hq : Quiet w res s t) :
    (loadW res w s).Rel (Alike loose deaf) (Same loose deaf) (loadW res w t) := by
  refine rel_imp (rel_loadW same_seesDevices h.toSame hq) ?_ fun _ _ h => h
  intro a s' t' hs ht h'
  refine ⟨h', ?_, ?_⟩
  · rw [wp_ok (asks_loadW res w s) hs]
    exact h.left.asked
  · rw [wp_ok (asks_loadW res w t) ht]
    exact h.right.asked

theorem Touches.sound {s' : CPUI386} (ht : Touches s s') (h : Sound loose s)
    (hk : loose = true → hasBit s.cr0 cr0PG = true → TablesKept s s') : Sound loose s' := by
  unfold Touches at ht
  apply h.kept hk <;> rw [ht]

theorem Sound.outer (h : Sound loose s) (gpr : (Fin 8 → Word) → Fin 8 → Word) (ip : Word → Word)
    (yield : Bool → Bool) : Sound loose (s.outer gpr ip yield) :=
  h.kept (fun _ _ => tablesKept_of_eq rfl rfl rfl rfl) rfl rfl rfl rfl

theorem Same.outer (h : Same loose deaf s t) (gpr : (Fin 8 → Word) → Fin 8 → Word)
    (ip : Word → Word) (yield : Bool → Bool) :
    Same loose deaf (s.outer gpr ip yield) (t.outer gpr ip yield) :=
  ⟨by rw [h.rest]; rfl, h.caches, h.devices⟩

theorem Alike.outer (h : Alike loose deaf s t) (gpr : (Fin 8 → Word) → Fin 8 → Word)
    (ip : Word → Word) (yield : Bool → Bool) :
    Alike loose deaf (s.outer gpr ip yield) (t.outer gpr ip yield) :=
  ⟨h.toSame.outer gpr ip yield, h.left.outer gpr ip yield, h.right.outer gpr ip yield⟩

end Accesses

end Winspire.Cpu
