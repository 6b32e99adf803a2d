import Winspire.Cpu.MovsRuns

/-!
# The helpers of REP MOVS and REP STOS

`MOVS_helper2` and `STOS_helper2` against their elements.
-/

namespace Winspire.Cpu

open Faulting Pages

set_option autoImplicit false

section Helpers

variable {loose deaf : Bool} {s t : CPUI386} {w : Width} {a16 : Bool} {seg : SegReg}
  {slice n : Nat} {x y : M Unit} {helper helper' : M Bool} {R F : CPUI386 → CPUI386 → Prop}

def CPUI386.stosValue (s : CPUI386) (w : Width) : Word := ((lreg32 s 0).setWidth w.bits).setWidth 32

/-- With `loose` the caches agree with the tables to begin with. -/
def Fresh (loose : Bool) (s : CPUI386) : Prop :=
  loose = true → hasBit s.cr0 cr0PG = true → Faithful operandPages s

def StosFits (w : Width) (a16 : Bool) (s : CPUI386) : Prop :=
  Along (lregA a16 s 1).toNat (stosElem w a16 (s.stosValue w) (s.dir w))
    (StosSteady w a16 (hasBit s.flags DF)) s

theorem IsElems.congr (h : IsElems R F slice a16 x helper s) (he : helper' s = helper s) :
    IsElems R F slice a16 x helper' s := by
  obtain ⟨n, h1, h2, h3, h4, hrun⟩ := h
  rw [← he] at hrun
  exact ⟨n, h1, h2, h3, h4, hrun⟩

theorem IsElems.trans {R' F' R'' F'' : CPUI386 → CPUI386 → Prop}
    (hR : ∀ s t u, R s t → R' t u → R'' s u) (hF : ∀ s t u, F s t → F' t u → F'' s u)
    (hyield : ∀ s t, R' s t → (yieldRep a16 s).Rel R' F' (yieldRep a16 t))
    (h : IsElems R F slice a16 x helper s)
    (hxy : ∀ n ≤ (lregA a16 s 1).toNat, (repeatM n x s).Rel R' F' (repeatM n y s)) :
    IsElems R'' F'' slice a16 y helper s := by
  obtain ⟨n, h1, h2, h3, h4, hrun⟩ := h
  exact ⟨n, h1, h2, h3, h4, Result.Rel.trans hR hF hrun
    (rel_bind (hxy n h1) fun _ s' t' _ _ h => hyield s' t' h)⟩

/-- Each byte is 0x67, so that every page of the address space is the page at 0x67676000, present,
writable, accessed and dirty. The source and the destination are 4 MiB apart. -/
def foldedCpu : CPUI386 :=
  { cpui386New .i486 (fun _ => 0x67) 0x68000000 false false with
    gpr := fun i => if i = 1 then 1 else if i = 7 then 0x400000 else 0
    repYield := false
    cr0 := 0x80000001
    seg := fun _ => ⟨0, 0, 0xffffffff, 0⟩ }

def Folded (s : CPUI386) : Prop := ∀ a, s.byteAt a = 0x67

theorem or_marks (b : Byte) (h : b &&& ~~~(accessed ||| dirty) = 0) : (0x67 : Byte) ||| b = 0x67 := by
  revert b
  decide

theorem Folded.marks {s t : CPUI386} (h : Folded s) (hm : Marks s t) : Folded t := by
  intro a
  obtain ⟨b, hb⟩ := hm.at_ a
  rw [hb.byte, h a]
  exact or_marks b hb.bits

/-- What is left of the machine between its translations. -/
structure FoldedRun (s : CPUI386) : Prop where
  folded : Folded s
  rest : Cached foldedCpu s

theorem FoldedRun.span {s : CPUI386} (h : FoldedRun s) :
    s.RamSpan 0x67676000 (Width.b8.bits / 8) := by
  have hzero : ∀ k < Width.b8.bits / 8, k = 0 := fun k hk => Nat.lt_one_iff.mp hk
  refine ⟨fun k hk => ?_, fun k hk => ?_, fun k hk => ?_⟩
  · rw [hzero k hk]
    rfl
  · have hsize : s.memSize = 0x68000000 := by
      rw [h.rest.rest]
      rfl
    rw [hzero k hk]
    unfold CPUI386.inMem
    rw [hsize]
    decide
  · rw [hzero k hk]
    decide

theorem FoldedRun.load {s : CPUI386} (h : FoldedRun s) :
    loadW ⟨0x67676000, none⟩ .b8 s = .ok 0x67 s := by
  rw [loadW_ram h.span]
  change Result.ok ((s.byteAt 0x67676000).setWidth 32) s = _
  rw [h.folded]
  rfl

theorem FoldedRun.store {s t : CPUI386} (h : FoldedRun s)
    (hst : storeW ⟨0x67676000, none⟩ 0x67 .b8 s = .ok () t) : TablesKept s t := by
  have hin : s.inMem 0x67676000 := (h.span.head (by decide)).1
  have hrun : pstore8 0x67676000 0x67 s = .ok () t := (storeW_ram h.span).symm.trans hst
  rw [pstore8_run_inMem hin] at hrun
  injection hrun with _ ht
  have hbyte : ∀ a, t.byteAt a = 0x67 := by
    intro a
    rw [← ht]
    unfold CPUI386.byteAt CPUI386.setMem
    by_cases ha : a.toNat = (0x67676000 : Word).toNat
    · simp only [ha, Function.update_self]
    · simp only [Function.update_of_ne ha]
      exact h.folded a
  have hm : Marks s t := by
    refine ⟨fun a => ⟨0, ?_, fun hf => absurd rfl hf, by decide⟩, ?_⟩
    · rw [hbyte, h.folded]
      rfl
    · rw [← ht]
      rfl
  refine ⟨hm.samePages ?_ ?_, fun _ _ hs => hs.marks hm⟩ <;> rw [← ht] <;> rfl

end Helpers

end Winspire.Cpu
