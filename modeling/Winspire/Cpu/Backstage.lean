import Winspire.Lib.Stays
import Winspire.Cpu.Outer
import Winspire.Cpu.Transfer

/-!
# What memory operands change

Translations, loads and stores change guest memory, the devices, the translation caches and the
registers of the fault, and nothing the program sees of the processor.
-/

namespace Winspire.Cpu

open Faulting

set_option autoImplicit false

def Backstage (s s' : CPUI386) : Prop :=
  s' = { s with
    mem := s'.mem, io := s'.io, tlb := s'.tlb, dtlbRead := s'.dtlbRead, dtlbWrite := s'.dtlbWrite,
    cr2 := s'.cr2, excno := s'.excno, excerr := s'.excerr }

instance : IsPreorder CPUI386 Backstage where
  refl _ := rfl
  trans s s' s'' h h' := by
    unfold Backstage at *
    rw [h', h]

theorem Touches.backstage {s s' : CPUI386} (h : Touches s s') : Backstage s s' := by
  unfold Touches at h
  unfold Backstage
  rw [h]

theorem backstage_of {α : Type} {x : M α} (h : Keeps Touches x) : Stays Backstage x :=
  h.stays.mono fun _ _ => Touches.backstage

theorem backstage_pload8 (a : Word) : Stays Backstage (pload8 a) := backstage_of (touches_pload8 a)

theorem backstage_orMem (a : Word) (b : Byte) : Stays Backstage (orMem a b) :=
  stays_bind (backstage_pload8 _) fun _ => backstage_of (touches_pstore8 _ _)

theorem backstage_tlbRefill (lpgno : Word) : Stays Backstage (tlbRefill lpgno) := by
  refine stays_get fun s => ?_
  refine stays_bind (backstage_of (touches_pload32 _)) fun pde => ?_
  refine stays_ite (stays_pure _) ?_
  refine stays_bind (backstage_orMem _ _) fun _ => ?_
  refine stays_bind (backstage_of (touches_pload32 _)) fun pte => ?_
  refine stays_ite (stays_pure _) ?_
  refine stays_bind (backstage_orMem _ _) fun _ => ?_
  exact stays_bind (stays_modify fun _ => rfl) fun _ => stays_pure _

theorem backstage_markPteDirty (ppte : Option Word) : Stays Backstage (markPteDirty ppte) := by
  cases ppte with
  | none => exact stays_pure _
  | some a =>
    exact stays_bind (backstage_pload8 _) fun _ =>
      stays_ite (backstage_of (touches_pstore8 _ _)) (stays_pure _)

theorem backstage_pageFault (rwm : Nat) (laddr : Word) (cpl : Nat) (prot : Bool) :
    Stays Backstage (pageFault rwm laddr cpl prot) :=
  stays_bind (stays_modify fun _ => rfl) fun _ => stays_fault

theorem backstage_tlbEntry (rwm : Nat) (lpgno laddr : Word) (cpl : Nat) :
    Stays Backstage (tlbEntry rwm lpgno laddr cpl) := by
  refine stays_get fun s => ?_
  refine stays_bind (stays_onlyIf ?_) fun _ => stays_gets _
  exact stays_bind (backstage_tlbRefill _) fun _ => stays_onlyIf (backstage_pageFault _ _ _ _)

theorem backstage_translateLpgnoFill (rwm : Nat) (lpgno laddr : Word) (cpl : Nat) :
    Stays Backstage (translateLpgnoFill rwm lpgno laddr cpl) := by
  refine stays_bind (backstage_tlbEntry _ _ _ _) fun ent => ?_
  refine stays_bind (stays_onlyIf ?_) fun _ => ?_
  · exact stays_bind (stays_modify fun _ => rfl) fun _ => backstage_pageFault _ _ _ _
  · refine stays_ite ?_ ?_
    · refine stays_bind (backstage_markPteDirty _) fun _ => ?_
      exact stays_bind (stays_modify fun _ => rfl) fun _ => stays_pure _
    · exact stays_bind (stays_modify fun _ => rfl) fun _ => stays_pure _

theorem backstage_translateLpgnoFast (rwm : Nat) (lpgno laddr : Word) (cpl : Nat) :
    Stays Backstage (translateLpgnoFast rwm lpgno laddr cpl) := by
  refine stays_get fun s => ?_
  refine stays_ite (stays_pure _) (stays_ite (stays_pure _) (stays_ite ?_ ?_))
  · refine stays_bind (stays_onlyIf ?_) fun _ => stays_pure _
    exact stays_bind (backstage_markPteDirty _) fun _ => stays_modify fun _ => rfl
  · exact backstage_translateLpgnoFill _ _ _ _

theorem backstage_translateLaddr (rwm : Nat) (laddr : Word) (size cpl : Nat) :
    Stays Backstage (translateLaddr rwm laddr size cpl) := by
  refine stays_get fun s => ?_
  refine stays_ite ?_ (stays_pure _)
  refine stays_bind (backstage_translateLpgnoFast _ _ _ _) fun _ => ?_
  refine stays_ite ?_ (stays_pure _)
  exact stays_bind (backstage_translateLpgnoFast _ _ _ _) fun _ => stays_pure _

theorem backstage_throwEx (no : Nat) (err : Word) : Stays Backstage (throwEx no err) :=
  stays_bind (stays_modify fun _ => rfl) fun _ => stays_fault

theorem backstage_segcheck (seg : SegReg) : Stays Backstage (segcheck seg) :=
  stays_get fun _ => stays_onlyIf (backstage_throwEx _ _)

theorem backstage_translate (rwm : Nat) (seg : SegReg) (addr : Word) (size cpl : Nat) :
    Stays Backstage (translate rwm seg addr size cpl) :=
  stays_get fun _ => stays_bind (backstage_segcheck _) fun _ => backstage_translateLaddr _ _ _ _

theorem backstage_load32 (m : OptAddr) : Stays Backstage (load32 m) := backstage_of (touches_load32 m)

theorem backstage_load16 (m : OptAddr) : Stays Backstage (load16 m) := backstage_of (touches_load16 m)

theorem backstage_loadW (m : OptAddr) (w : Width) : Stays Backstage (loadW m w) :=
  backstage_of (touches_loadW m w)

theorem keeps_try1 {α : Type} {R : CPUI386 → CPUI386 → Prop} {x : M α} (h : Stays R x) :
    Keeps R (try1 x) := h.keeps_catchFault _

theorem neverFaults_try1 {α : Type} (x : M α) : NeverFaults (try1 x) :=
  neverFaults_catchFault_stop _

theorem backstage_descAddr (sel : Word) : Stays Backstage (descAddr sel) :=
  stays_get fun _ => stays_bind (stays_onlyIf (backstage_throwEx _ _)) fun _ => stays_pure _

theorem backstage_readDesc2 (sel : Word) : Stays Backstage (readDesc2 sel) :=
  stays_bind (backstage_descAddr _) fun _ =>
    stays_bind (backstage_translateLaddr _ _ _ _) fun _ => backstage_load32 _

theorem backstage_readDesc (sel : Word) : Stays Backstage (readDesc sel) := by
  refine stays_bind (backstage_descAddr _) fun _ => ?_
  refine stays_bind (backstage_translateLaddr _ _ _ _) fun _ => ?_
  refine stays_bind (backstage_load32 _) fun _ => ?_
  refine stays_bind (backstage_translateLaddr _ _ _ _) fun _ => ?_
  exact stays_bind (backstage_load32 _) fun _ => stays_pure _

theorem backstage_checkDesc (r : SegReg) (sel w2 : Word) : Stays Backstage (checkDesc r sel w2) :=
  stays_onlyIf (stays_bind (stays_onlyIf (backstage_throwEx _ _)) fun _ =>
    stays_onlyIf (backstage_throwEx _ _))

theorem backstage_slotsBelow (w : Width) (rwm : Nat) (sp spMask : Word) (ks : List Nat) :
    Stays Backstage (slotsBelow w rwm sp spMask ks) := by
  induction ks with
  | nil => exact stays_pure _
  | cons k ks ih =>
    exact stays_bind (backstage_translate _ _ _ _ _) fun _ => stays_bind ih fun _ => stays_pure _

theorem touches_storeSlots (w : Width) (ms : List OptAddr) (vs : List Word) :
    Keeps Touches (storeSlots w ms vs) := by
  induction ms generalizing vs with
  | nil => exact keeps_pure _
  | cons m ms ih =>
    cases vs with
    | nil => exact keeps_pure _
    | cons v vs => exact keeps_bind (touches_storeW _ _ _) fun _ => ih vs

theorem backstage_stackAt (w : Width) (sp off spMask : Word) :
    Stays Backstage (stackAt w sp off spMask) := backstage_translate _ _ _ _ _

theorem backstage_innerStack (pl : Nat) : Stays Backstage (innerStack pl) := by
  refine stays_get fun s => stays_ite ?_ ?_
  · refine stays_bind (backstage_translate _ _ _ _ _) fun _ => ?_
    refine stays_bind (backstage_translate _ _ _ _ _) fun _ => ?_
    refine stays_bind (backstage_load32 _) fun _ => ?_
    exact stays_bind (backstage_load32 _) fun _ => stays_pure _
  · refine stays_bind (backstage_translate _ _ _ _ _) fun _ => ?_
    refine stays_bind (backstage_translate _ _ _ _ _) fun _ => ?_
    refine stays_bind (backstage_load16 _) fun _ => ?_
    exact stays_bind (backstage_load16 _) fun _ => stays_pure _

theorem backstage_loadParams (w : Width) (sp spMask : Word) (is : List Nat) :
    Stays Backstage (loadParams w sp spMask is) := by
  induction is with
  | nil => exact stays_pure _
  | cons i is ih =>
    exact stays_bind (backstage_stackAt _ _ _ _) fun _ => stays_bind (backstage_loadW _ _) fun _ =>
      stays_bind ih fun _ => stays_pure _

theorem backstage_storeParams (w : Width) (sp spMask : Word) (wc i : Nat) (vs : List Word) :
    Keeps Backstage (storeParams w sp spMask wc i vs) := by
  induction vs generalizing i with
  | nil => exact keeps_pure _
  | cons v vs ih =>
    exact keeps_bind (keeps_try1 (backstage_slotsBelow _ _ _ _ _)) fun _ =>
      keeps_bind ((touches_storeSlots _ _ _).mono fun _ _ => Touches.backstage) fun _ => ih _

theorem backstage_popFrame (w : Width) (sp spMask : Word) (isiret : Bool) :
    Stays Backstage (popFrame w sp spMask isiret) := by
  refine stays_get fun s => ?_
  refine stays_bind (backstage_stackAt _ _ _ _) fun _ => ?_
  refine stays_bind (backstage_stackAt _ _ _ _) fun _ => ?_
  refine stays_ite ?_ ?_
  · refine stays_bind (backstage_stackAt _ _ _ _) fun _ => ?_
    refine stays_bind (backstage_loadW _ _) fun _ => ?_
    refine stays_bind (backstage_loadW _ _) fun _ => ?_
    exact stays_bind (backstage_loadW _ _) fun _ => stays_pure _
  · refine stays_bind (backstage_loadW _ _) fun _ => ?_
    exact stays_bind (backstage_loadW _ _) fun _ => stays_pure _

theorem backstage_isrReadGate (no : Byte) (ext : Word) : Stays Backstage (isrReadGate no ext) := by
  refine stays_get fun s => ?_
  refine stays_bind (stays_onlyIf (backstage_throwEx _ _)) fun _ => ?_
  refine stays_bind (keeps_try1 (backstage_translateLaddr _ _ _ _)).stays fun _ => ?_
  refine stays_bind (backstage_load32 _) fun _ => ?_
  refine stays_bind (keeps_try1 (backstage_translateLaddr _ _ _ _)).stays fun _ => ?_
  refine stays_bind (backstage_load32 _) fun _ => ?_
  refine stays_bind (stays_onlyIf (backstage_throwEx _ _)) fun _ => ?_
  refine stays_bind (stays_onlyIf (backstage_throwEx _ _)) fun _ => ?_
  exact stays_bind (stays_onlyIf (backstage_throwEx _ _)) fun _ => stays_pure _

theorem backstage_callIsrCheckCs (sel ext : Word) : Stays Backstage (callIsrCheckCs sel ext) := by
  refine stays_get fun s => ?_
  refine stays_bind (stays_onlyIf (backstage_throwEx _ _)) fun _ => ?_
  refine stays_bind (keeps_try1 (backstage_translateLaddr _ _ _ _)).stays fun _ => ?_
  refine stays_bind (backstage_load32 _) fun _ => ?_
  refine stays_bind (stays_onlyIf (backstage_throwEx _ _)) fun _ => ?_
  refine stays_bind (stays_onlyIf (backstage_throwEx _ _)) fun _ => ?_
  refine stays_ite (stays_ite (stays_pure _) ?_) ?_
  · exact stays_bind (stays_onlyIf (backstage_throwEx _ _)) fun _ => stays_pure _
  · exact stays_bind (stays_onlyIf (backstage_throwEx _ _)) fun _ => stays_pure _

theorem backstage_pmiretCheckCsSame (sel : Word) : Stays Backstage (pmiretCheckCsSame sel) := by
  refine stays_bind (stays_onlyIf (backstage_throwEx _ _)) fun _ => ?_
  refine stays_bind (backstage_readDesc2 _) fun _ => stays_get fun _ => ?_
  refine stays_bind (stays_onlyIf (backstage_throwEx _ _)) fun _ => ?_
  refine stays_bind (stays_onlyIf (backstage_throwEx _ _)) fun _ => ?_
  exact stays_onlyIf (backstage_throwEx _ _)

theorem backstage_pmiretCheckCsOuter (sel : Word) : Stays Backstage (pmiretCheckCsOuter sel) := by
  refine stays_bind (stays_onlyIf (backstage_throwEx _ _)) fun _ => ?_
  refine stays_bind (backstage_readDesc2 _) fun _ => stays_get fun _ => ?_
  refine stays_bind (stays_onlyIf (backstage_throwEx _ _)) fun _ => ?_
  refine stays_bind (stays_onlyIf (backstage_throwEx _ _)) fun _ => ?_
  exact stays_onlyIf (backstage_throwEx _ _)

/-- Where a segment load ends: it faults behind the stage, or it has read the descriptor there and
loads it. -/
theorem setSeg_spec (r : SegReg) (sel : Word) (s : CPUI386) :
    wp (setSeg r sel)
      (fun _ t => ∃ u, Backstage s u ∧
        (t = u.loadReal r (sel &&& 0xffff) ∧ (¬ hasBit s.cr0 1 ∨ hasBit s.flags VM) ∨
          ∃ w1 w2, t = u.loadDesc r (sel &&& 0xffff) w1 w2 ∧ hasBit s.cr0 1 ∧ ¬ hasBit s.flags VM))
      (fun t => Backstage s t ∧ hasBit s.cr0 1 ∧ ¬ hasBit s.flags VM) (fun _ => True) s := by
  unfold setSeg
  rw [wp_bind, wp_get]
  refine wp_ite ?_ ?_
  · intro h
    rw [wp_modify]
    exact ⟨s, refl_of Backstage s, Or.inl ⟨rfl, h⟩⟩
  · intro h
    rw [not_or, not_not] at h
    rw [wp_bind]
    refine wp_mono (backstage_readDesc _ s) ?_ (fun _ ht => ⟨ht, h⟩) (fun _ _ => trivial)
    intro w t ht
    rw [wp_bind]
    refine wp_mono (backstage_checkDesc _ _ _ t) ?_ ?_ (fun _ _ => trivial)
    · intro _ u hu
      rw [wp_modify]
      exact ⟨u, trans_of Backstage ht hu, Or.inr ⟨w.1, w.2, rfl, h⟩⟩
    · intro u hu
      exact ⟨trans_of Backstage ht hu, h⟩

end Winspire.Cpu
