import Winspire.Cpu.Tlb

/-!
# Coherence along runs

As long as the tables, CR3 and CR0.WP change only together with a clear of the caches, every
translation gives what a walk of the tables would give at that moment.
-/

namespace Winspire.Cpu

open Faulting

set_option autoImplicit false

structure CPUI386.Cleared (s : CPUI386) : Prop where
  tlb : ∀ i, (s.tlb i).lpgno = noPage
  read : ∀ i, (s.dtlbRead i).lpgno = noPage
  write : ∀ i, (s.dtlbWrite i).lpgno = noPage

theorem CPUI386.tlbClear_cleared (s : CPUI386) : s.tlbClear.Cleared :=
  ⟨fun _ => rfl, fun _ => rfl, fun _ => rfl⟩

theorem CPUI386.Cleared.coherent {n : Nat} {s : CPUI386} (h : s.Cleared) : Coherent n s where
  tlb i := TlbEntry.valid_of_noPage (h.tlb i)
  read i := DtlbRead.valid_of_noPage (h.read i)
  write i := DtlbWrite.valid_of_noPage (h.write i)

def linearPages : Nat := 2 ^ 20

/-- What an instruction may do outside the MMU: the caches, CR3, CR0.WP and the entries of the
tables in use stay. -/
structure KeepsTables (s s' : CPUI386) : Prop where
  memSize : s'.memSize = s.memSize
  tlb : s'.tlb = s.tlb
  read : s'.dtlbRead = s.dtlbRead
  write : s'.dtlbWrite = s.dtlbWrite
  cr3 : s'.cr3 = s.cr3
  wp : hasBit s'.cr0 cr0WP = hasBit s.cr0 cr0WP
  pde : ∀ l, l.toNat < linearPages → s'.pde l = s.pde l
  pte : ∀ l, l.toNat < linearPages → (s.pde l).getLsbD 0 = true →
    s'.dwordAt (s.pteAddr l) = s.pte l

/-- `s'` is the state in which `x` returns or faults. -/
def EndsIn {α : Type} (x : M α) (s s' : CPUI386) : Prop := (∃ a, x s = .ok a s') ∨ x s = .fault s'

/-- The steps of the MMU and of the rest of the processor. The tables may have been changed in any
way before a clear. -/
inductive MmuStep (s : CPUI386) : CPUI386 → Prop where
  | fast {s' : CPUI386} (rwm : Nat) (lpgno laddr : Word) (cpl : Nat) (hk : IsRwm rwm)
      (hl : lpgno.toNat ≤ linearPages) (h : EndsIn (translateLpgnoFast rwm lpgno laddr cpl) s s') :
      MmuStep s s'
  | plain {s' : CPUI386} (rwm : Nat) (lpgno laddr : Word) (cpl : Nat) (hk : IsRwm rwm)
      (hl : lpgno.toNat ≤ linearPages) (h : EndsIn (translateLpgno rwm lpgno laddr cpl) s s') :
      MmuStep s s'
  | fetch {s' : CPUI386} (seg : SegReg) (addr : Word) (h : EndsIn (translate8r seg addr) s s') :
      MmuStep s s'
  | movCr0 (v : Word) : MmuStep s (s.movCr0 v)
  | clear (t : CPUI386) : MmuStep s t.tlbClear
  | other {s' : CPUI386} (h : KeepsTables s s') : MmuStep s s'

inductive MmuRun : CPUI386 → Prop where
  | reset {s : CPUI386} (h : s.Cleared) : MmuRun s
  | step {s s' : CPUI386} (hr : MmuRun s) (h : MmuStep s s') : MmuRun s'

theorem wp_endsIn {α : Type} {x : M α} {post : α → CPUI386 → Prop} {flt : CPUI386 → Prop}
    {stp : Stop → Prop} {s s' : CPUI386} {P : CPUI386 → Prop} (h : wp x post flt stp s)
    (he : EndsIn x s s') (hp : ∀ a t, post a t → P t) (hf : ∀ t, flt t → P t) : P s' := by
  rcases he with ⟨a, hx⟩ | hx
  · exact hp a s' (wp_ok h hx)
  · exact hf s' (wp_faulted h hx)

theorem ne_noPage {lpgno : Word} (h : lpgno.toNat ≤ linearPages) : lpgno ≠ noPage := by
  rintro rfl
  exact absurd h (by decide)

theorem isDirty_iff (s : CPUI386) (a : Word) : s.IsDirty a ↔ (s.dwordAt a).getLsbD 6 = true := by
  unfold CPUI386.IsDirty CPUI386.dwordAt
  rw [BitVec.getLsbD_append]
  rfl

theorem CPUI386.walk_present {s : CPUI386} {l : Word} {p : Page} (h : s.walk l = some p) :
    (s.pde l).getLsbD 0 = true := by
  unfold CPUI386.walk at h
  cases hp : (s.pde l).getLsbD 0 with
  | false =>
    rw [hp] at h
    cases h
  | true => rfl

theorem KeepsTables.samePages {s s' : CPUI386} (h : KeepsTables s s') :
    SamePages linearPages s s' := by
  have haddr : ∀ l, l.toNat < linearPages → s'.pteAddr l = s.pteAddr l := by
    intro l hl
    rw [CPUI386.pteAddr, CPUI386.pteAddr, h.pde l hl]
  have hpdeAddr : ∀ l, s'.pdeAddr l = s.pdeAddr l := by
    intro l
    rw [CPUI386.pdeAddr, CPUI386.pdeAddr, h.cr3]
  have hwalk : ∀ l, l.toNat < linearPages → s'.walk l = s.walk l := by
    intro l hl
    unfold CPUI386.walk
    rw [h.pde l hl, haddr l hl]
    cases hp : (s.pde l).getLsbD 0 with
    | false => rfl
    | true =>
      have hpte : s'.pte l = s.pte l := by
        rw [CPUI386.pte, haddr l hl]
        exact h.pte l hl hp
      rw [hpte]
  refine ⟨hwalk, ?_, h.wp, ?_⟩
  · intro l hl
    unfold CPUI386.WalkInMem
    rw [hpdeAddr, h.pde l hl, haddr l hl, h.memSize]
  intro l p hl hw hd
  rw [isDirty_iff] at hd ⊢
  rw [CPUI386.walk_pteAddr hw] at hd ⊢
  rw [h.pte l hl (CPUI386.walk_present hw)]
  exact hd

theorem KeepsTables.coherent {s s' : CPUI386} (h : KeepsTables s s') (hc : Coherent linearPages s) :
    Coherent linearPages s' := by
  refine hc.congr h.samePages ?_ ?_ ?_ <;> intro i <;> left
  · rw [h.tlb]
  · rw [h.read]
  · rw [h.write]

theorem lshr_twelve_lt (laddr : Word) : (laddr >>> 12).toNat < linearPages := by
  have h := laddr.isLt
  rw [BitVec.toNat_ushiftRight, Nat.shiftRight_eq_div_pow]
  unfold linearPages
  omega

theorem ne_noPage_of_laddr (laddr : Word) : laddr >>> 12 ≠ noPage :=
  ne_noPage (Nat.le_of_lt (lshr_twelve_lt laddr))

/-- The null selector raises #GP before the page is looked up. -/
def NullSegment (s : CPUI386) (seg : SegReg) : Prop :=
  hasBit s.cr0 1 = true ∧ (s.seg seg).limit = 0 ∧ (s.seg seg).sel &&& ~~~3 = 0

theorem nullSegment_congr {s t : CPUI386} (hcr0 : t.cr0 = s.cr0) (hseg : t.seg = s.seg)
    (seg : SegReg) : NullSegment t seg ↔ NullSegment s seg := by
  unfold NullSegment
  rw [hcr0, hseg]

theorem wp_segcheck {s : CPUI386} {seg : SegReg} {post : Unit → CPUI386 → Prop}
    {flt : CPUI386 → Prop} {stp : Stop → Prop}
    (hn : NullSegment s seg → flt { s with excno := exGP, excerr := 0 })
    (h : ¬ NullSegment s seg → post () s) : wp (segcheck seg) post flt stp s := by
  unfold segcheck
  rw [wp_bind, wp_get]
  refine wp_onlyIf ?_ h
  intro hc
  exact hn hc

theorem translate8r_spec {n : Nat} {s : CPUI386} {seg : SegReg} {addr : Word}
    (hc : Coherent n s) :
    wp (translate8r seg addr)
      (fun res s' => if hasBit s.cr0 cr0PG then
          Returned n s 1 (((s.seg seg).base + addr) >>> 12) ((s.seg seg).base + addr) s.cpl
            res.addr1 s' else s' = s)
      (fun s' => NullSegment s seg ∧ s' = { s with excno := exGP, excerr := 0 } ∨
        Refused n s 1 (((s.seg seg).base + addr) >>> 12) ((s.seg seg).base + addr) s.cpl s')
      (Lost n s (((s.seg seg).base + addr) >>> 12)) s := by
  unfold translate8r
  rw [wp_bind, wp_get, wp_bind]
  refine wp_segcheck (fun hn => Or.inl ⟨hn, rfl⟩) ?_
  intro _
  refine wp_ite ?_ ?_
  · intro hpg
    simp only [hpg, if_true]
    rw [wp_bind]
    refine wp_mono (tlbEntry_spec hc) ?_ (fun _ h => Or.inr h) (fun _ h => h)
    rintro e t ⟨hct, hco, rfl, he⟩
    rw [wp_bind]
    refine wp_onlyIf ?_ ?_
    · intro hd
      rw [wp_bind, wp_modify]
      apply wp_pageFault
      intro t' ht' hf
      exact Or.inr (refused_of_denies hct hco he (ne_noPage_of_laddr _) hd (hct.freeTlb _) (hco.freeTlb _) ht' hf)
    · intro hd
      rw [wp_pure]
      exact ⟨hct, hco, granted_of_entry hct hco he (ne_noPage_of_laddr _) hd (fun h => absurd h (by decide))⟩
  · intro hpg
    rw [wp_pure, if_neg hpg]

theorem movCr0_coherent {s : CPUI386} (hc : Coherent linearPages s) (v : Word) :
    Coherent linearPages (s.movCr0 v) := by
  unfold CPUI386.movCr0
  by_cases hb : hasBit (v ^^^ s.cr0) (cr0PG ||| cr0WP ||| 1) = true
  · simp only [hb, if_true]
    exact CPUI386.Cleared.coherent ⟨fun _ => rfl, fun _ => rfl, fun _ => rfl⟩
  · simp only [hb, Bool.false_eq_true, if_false]
    apply KeepsTables.coherent ?_ hc
    refine ⟨rfl, rfl, rfl, rfl, rfl, ?_, fun _ _ => rfl, fun _ _ _ => rfl⟩
    -- WP did not change, and the FPU bit is another one
    have hxor : (v ^^^ s.cr0).getLsbD 16 = false := by
      by_contra h
      rw [Bool.not_eq_false] at h
      apply hb
      unfold hasBit
      rw [bne_iff_ne]
      intro h0
      have h16 := congrArg (fun x : Word => x.getLsbD 16) h0
      simp only [BitVec.getLsbD_and, h] at h16
      revert h16
      decide
    have hv : v.getLsbD 16 = s.cr0.getLsbD 16 := by
      rw [BitVec.getLsbD_xor] at hxor
      revert hxor
      cases v.getLsbD 16 <;> cases s.cr0.getLsbD 16 <;> decide
    have hwp : ∀ x : Word, hasBit x cr0WP = x.getLsbD 16 := fun x => hasBit_twoPow x 16
    rw [hwp, hwp]
    cases s.fpu with
    | false => exact hv
    | true =>
      change (v ||| 0x10).getLsbD 16 = _
      rw [BitVec.getLsbD_or, ← hv]
      exact Bool.or_false _

theorem mmuStep_coherent {s s' : CPUI386} (hc : Coherent linearPages s) (h : MmuStep s s') :
    Coherent linearPages s' := by
  cases h with
  | fast rwm lpgno laddr cpl hk hl h =>
    exact wp_endsIn (translateLpgnoFast_spec hc (ne_noPage hl) hk) h (fun _ _ h => h.coherent)
      (fun _ h => h.coherent)
  | plain rwm lpgno laddr cpl hk hl h =>
    exact wp_endsIn (translateLpgno_spec hc (ne_noPage hl)) h (fun _ _ h => h.coherent)
      (fun _ h => h.coherent)
  | fetch seg addr h =>
    refine wp_endsIn (translate8r_spec hc) h ?_ ?_
    · intro _ t ht
      by_cases hpg : hasBit s.cr0 cr0PG = true
      · rw [if_pos hpg] at ht
        exact ht.coherent
      · rw [if_neg hpg] at ht
        rw [ht]
        exact hc
    · rintro t (⟨-, rfl⟩ | ht)
      · exact ⟨hc.tlb, hc.read, hc.write⟩
      · exact ht.coherent
  | movCr0 v => exact movCr0_coherent hc v
  | clear t => exact (t.tlbClear_cleared).coherent
  | other h => exact h.coherent hc

theorem mmuRun_coherent {s : CPUI386} (h : MmuRun s) : Coherent linearPages s := by
  induction h with
  | reset h => exact h.coherent
  | step _ h ih => exact mmuStep_coherent ih h

/-- `r` is the outcome the walk of `laddr` prescribes: the physical address, with the dirty bit set
after a write, or the page fault. The walk itself must stay in guest memory. -/
def AsWalk (s : CPUI386) (rwm : Nat) (laddr : Word) (cpl : Nat)
    (r : Result CPUI386 Stop Word) : Prop :=
  match r with
  | .ok paddr s' => s.access laddr (decide (0 < cpl)) (decide (1 < rwm)) = .granted paddr ∧
    (1 < rwm → ∃ p, s'.walk (laddr >>> 12) = some p ∧ s'.IsDirty p.pteAddr)
  | .fault s' => s.access laddr (decide (0 < cpl)) (decide (1 < rwm)) = .denied s'.excerr ∧
    s'.cr2 = laddr ∧ s'.excno = exPF
  | .stop why => why = .wild ∧ ¬ s.WalkInMem (laddr >>> 12)

theorem CPUI386.walk_frame_low {s : CPUI386} {l : Word} {p : Page} (h : s.walk l = some p)
    {i : Nat} (hi : i < 12) : p.frame.getLsbD i = false := by
  unfold CPUI386.walk at h
  split at h
  · rw [← Option.some.inj h, BitVec.getLsbD_and]
    have hm : ∀ j : Fin 12, pageMask.getLsbD j.val = false := by decide
    rw [hm ⟨i, hi⟩, Bool.and_false]
  · cases h

theorem frame_xor {frame laddr : Word} (h : ∀ i, i < 12 → frame.getLsbD i = false) :
    frame ^^^ ((laddr >>> 12) <<< 12) ^^^ laddr = frame ||| (laddr &&& 0xfff) := by
  apply BitVec.eq_of_getLsbD_eq
  intro i hi
  simp only [BitVec.getLsbD_xor, BitVec.getLsbD_or, BitVec.getLsbD_and, BitVec.getLsbD_shiftLeft,
    BitVec.getLsbD_ushiftRight]
  have hoff : ∀ j : Fin 32, (0xfff : Word).getLsbD j.val = decide (j.val < 12) := by decide
  rw [hoff ⟨i, hi⟩]
  by_cases h12 : i < 12
  · simp [h12, h i h12]
  · have hsub : 12 + (i - 12) = i := by omega
    simp only [hi, h12, decide_true, decide_false, Bool.not_false, Bool.true_and, hsub,
      Bool.and_false, Bool.or_false]
    cases frame.getLsbD i <;> cases laddr.getLsbD i <;> rfl

section AsWalk

variable {s : CPUI386} {rwm : Nat} {laddr : Word} {cpl : Nat}

theorem Returned.asWalk {paddr : Word} {s' : CPUI386} (hk : IsRwm rwm)
    (h : Returned linearPages s rwm (laddr >>> 12) laddr cpl paddr s') :
    AsWalk s rwm laddr cpl (.ok paddr s') := by
  obtain ⟨p, hw, ha, hp, hd⟩ := h.granted (lshr_twelve_lt laddr)
  refine ⟨?_, ?_⟩
  · rw [CPUI386.access, CPUI386.accessPage, hw.1]
    simp only [ha, if_true, hp]
    rw [frame_xor fun i hi => CPUI386.walk_frame_low hw.1 hi]
  · intro hwr
    refine ⟨p, ?_, hd ?_⟩
    · rw [h.cached.samePages.walk _ (lshr_twelve_lt laddr)]
      exact hw.1
    · rw [hk.testBit]
      exact decide_eq_true hwr

theorem Refused.asWalk {s' : CPUI386} (hk : IsRwm rwm)
    (h : Refused linearPages s rwm (laddr >>> 12) laddr cpl s') :
    AsWalk s rwm laddr cpl (.fault s') := by
  obtain ⟨prot, hf, hd⟩ := h.denied
  have hd := hd (lshr_twelve_lt laddr)
  refine ⟨?_, hf.cr2, hf.excno⟩
  have hcpl : decide (cpl ≠ 0) = decide (0 < cpl) := decide_eq_decide.mpr Nat.pos_iff_ne_zero.symm
  rw [hf.excerr, hk.testBit, hcpl, CPUI386.access, CPUI386.accessPage]
  rw [Denied] at hd
  cases hw : s.walk (laddr >>> 12) with
  | none =>
    rw [hw] at hd
    rw [hd.2]
  | some p =>
    rw [hw] at hd
    obtain ⟨-, hprot, ha⟩ := hd
    simp only [ha, Bool.false_eq_true, if_false, hprot]

theorem asWalk_of_wp {x : M Word} (hk : IsRwm rwm)
    (h : wp x (Returned linearPages s rwm (laddr >>> 12) laddr cpl)
      (Refused linearPages s rwm (laddr >>> 12) laddr cpl) (Lost linearPages s (laddr >>> 12)) s) : AsWalk s rwm laddr cpl (x s) := by
  unfold wp at h
  cases hx : x s with
  | ok paddr s' =>
    rw [hx] at h
    exact h.asWalk hk
  | fault s' =>
    rw [hx] at h
    exact h.asWalk hk
  | stop why =>
    rw [hx] at h
    exact h (lshr_twelve_lt laddr)

end AsWalk

def fetchAddr (seg : SegReg) (addr : Word) : M Word := do
  return (← translate8r seg addr).addr1

/-- In every run the caches hold what the walk gives now, so every translation, through any of
the three paths, ends as the walk says. -/
theorem caches_as_walk {s : CPUI386} (h : MmuRun s) :
    Coherent linearPages s ∧
    (∀ rwm laddr cpl, IsRwm rwm →
      AsWalk s rwm laddr cpl (translateLpgnoFast rwm (laddr >>> 12) laddr cpl s) ∧
      AsWalk s rwm laddr cpl (translateLpgno rwm (laddr >>> 12) laddr cpl s)) ∧
    ∀ seg addr, hasBit s.cr0 cr0PG = true → ¬ NullSegment s seg →
      AsWalk s 1 ((s.seg seg).base + addr) s.cpl (fetchAddr seg addr s) := by
  have hc := mmuRun_coherent h
  refine ⟨hc, ?_, ?_⟩
  · intro rwm laddr cpl hk
    have hn := ne_noPage_of_laddr laddr
    exact ⟨asWalk_of_wp hk (translateLpgnoFast_spec hc hn hk),
      asWalk_of_wp hk (translateLpgno_spec hc hn)⟩
  · intro seg addr hpg hnull
    refine asWalk_of_wp (Or.inl rfl) ?_
    unfold fetchAddr
    rw [wp_bind]
    refine wp_mono (translate8r_spec hc) ?_ ?_ (fun _ h => h)
    · intro res t ht
      rw [if_pos hpg] at ht
      exact ht
    · rintro t (⟨hn, -⟩ | ht)
      · exact absurd hn hnull
      · exact ht

/-- A directory at 0x1000 and a table at 0x2000 that map page 0 to frame 0x3000, for all
accesses. -/
def pagedMem : Nat → Byte
  | 0x1000 => 0x07
  | 0x1001 => 0x20
  | 0x2000 => 0x07
  | 0x2001 => 0x30
  | _ => 0

def pagedCpu : CPUI386 :=
  { cpui386New .i486 pagedMem 0x4000 false false with cr0 := 0x80010001, cr3 := 0x1000 }

/-- A user read has put the page into the TLB and the read table; another read takes it from there,
and a write finds it in the TLB. -/
theorem caches_as_walk_paged :
    ∃ s, MmuRun s ∧ (s.dtlbRead 0).lpgno = 0 ∧ (s.tlb 0).lpgno = 0 ∧ s.access 0x123 true true = .granted 0x3123 ∧
      AsWalk s 1 0x123 3 (translateLpgnoFast 1 (0x123 >>> 12) 0x123 3 s) ∧
      AsWalk s 2 0x123 3 (translateLpgnoFast 2 (0x123 >>> 12) 0x123 3 s) := by
  have hr : MmuRun pagedCpu := .reset ⟨fun _ => rfl, fun _ => rfl, fun _ => rfl⟩
  have hread : ∃ s, translateLpgnoFast 1 0 0x100 3 pagedCpu = .ok 0x3100 s ∧
      (s.dtlbRead 0).lpgno = 0 ∧ (s.tlb 0).lpgno = 0 ∧ s.access 0x123 true true = .granted 0x3123 :=
    ⟨_, rfl, by decide, by decide, by decide⟩
  obtain ⟨s, hs, hhit, htlb, hacc⟩ := hread
  have hrun : MmuRun s := hr.step (.fast 1 0 0x100 3 (Or.inl rfl) (by decide) (Or.inl ⟨_, hs⟩))
  refine ⟨s, hrun, hhit, htlb, hacc, ?_, ?_⟩
  · exact ((caches_as_walk hrun).2.1 1 0x123 3 (Or.inl rfl)).1
  · exact ((caches_as_walk hrun).2.1 2 0x123 3 (Or.inr (Or.inl rfl))).1

end Winspire.Cpu
