import Mathlib.Tactic.Tauto
import Winspire.Cpu.Backstage

/-!
# Far transfers that fault

A transfer that faults is to be restarted, or its exception delivered, in the context it began in.
Returns keep to that. An interrupt or a call to an inner ring does not: once ESP holds the value of
the TSS, neither a fault of the SS it names nor one of the frame puts the old stack back.
-/

namespace Winspire.Cpu

open Faulting

set_option autoImplicit false

/-- The registers, the segments, what is cached of them, EIP and EFLAGS. -/
structure SameContext (s t : CPUI386) : Prop where
  gpr : t.gpr = s.gpr
  seg : t.seg = s.seg
  cpl : t.cpl = s.cpl
  code16 : t.code16 = s.code16
  spMask : t.spMask = s.spMask
  ip : t.ip = s.ip
  eflags : t.toLazyFlags = s.toLazyFlags

/-- Where the program faults from `s`, the context is that of `s`. -/
def Restarts {α : Type} (x : M α) (s : CPUI386) : Prop := ∀ t, x s = .fault t → SameContext s t

def Faults {α : Type} (x : M α) (s : CPUI386) : Prop := ∃ t, x s = .fault t

theorem SameContext.symm {s t : CPUI386} (h : SameContext s t) : SameContext t s :=
  ⟨h.gpr.symm, h.seg.symm, h.cpl.symm, h.code16.symm, h.spMask.symm, h.ip.symm, h.eflags.symm⟩

theorem SameContext.trans {s t u : CPUI386} (h : SameContext s t) (h' : SameContext t u) :
    SameContext s u :=
  ⟨h'.gpr.trans h.gpr, h'.seg.trans h.seg, h'.cpl.trans h.cpl, h'.code16.trans h.code16,
    h'.spMask.trans h.spMask, h'.ip.trans h.ip, h'.eflags.trans h.eflags⟩

theorem Backstage.sameContext {s t : CPUI386} (h : Backstage s t) : SameContext s t := by
  unfold Backstage at h
  constructor <;> rw [h]

section Rules

variable {α β : Type} {x y : M α} {k : α → M β} {s : CPUI386}

theorem restarts_of_stays (hx : Stays Backstage x) (s : CPUI386) : Restarts x s :=
  fun _ ht => (hx.fault ht).sameContext

theorem restarts_of_neverFaults (hx : NeverFaults x) (s : CPUI386) : Restarts x s :=
  fun t ht => absurd ht (hx s t)

/-- A first part behind the stage makes no difference to the context. -/
theorem restarts_bind (hx : Stays Backstage x) :
    Restarts (x >>= k) s ↔ ∀ a t, x s = .ok a t → Restarts (k a) t := by
  constructor
  · intro h a t ht u hu
    have hs := (hx.ok ht).sameContext
    exact hs.symm.trans (h u (bind_fault_iff.mpr (Or.inr ⟨a, t, ht, hu⟩)))
  · intro h u hu
    rcases bind_fault_iff.mp hu with hf | ⟨a, t, ht, hf⟩
    · exact restarts_of_stays hx s u hf
    · exact (hx.ok ht).sameContext.trans (h a t ht u hf)

theorem restarts_bind_neverFaults (hk : ∀ a, NeverFaults (k a)) :
    Restarts (x >>= k) s ↔ Restarts x s := by
  unfold Restarts
  simp only [bind_fault_of_neverFaults hk]

theorem restarts_get {k : CPUI386 → M β} : Restarts (get >>= k) s ↔ Restarts (k s) s := Iff.rfl

theorem restarts_ite {c : Prop} [Decidable c] :
    Restarts (if c then x else y) s ↔ (c → Restarts x s) ∧ (¬ c → Restarts y s) := by
  by_cases h : c
  · simp [h]
  · simp [h]

theorem restarts_check {c : Prop} [Decidable c] {x : M Unit} {k : Unit → M β}
    (hx : Stays Backstage x) (hr : ∀ s a t, x s ≠ .ok a t) :
    Restarts (onlyIf c x >>= k) s ↔ (¬ c → Restarts (k ()) s) := by
  rw [restarts_bind (stays_onlyIf hx)]
  by_cases h : c
  · rw [Prog.onlyIf, if_pos h]
    constructor
    · exact fun _ hn => absurd h hn
    · exact fun _ a t ht => absurd ht (hr s a t)
  · rw [Prog.onlyIf, if_neg h]
    constructor
    · exact fun hk _ => hk () s rfl
    · intro hk a t ht
      cases ht
      exact hk h

theorem restarts_guard {c : Prop} [Decidable c] {no : Nat} {err : Word} {k : Unit → M β} :
    Restarts (onlyIf c (throwEx no err) >>= k) s ↔ (¬ c → Restarts (k ()) s) := by
  apply restarts_check (backstage_throwEx no err)
  intro s a t h
  cases h

theorem restarts_assert {c : Prop} [Decidable c] {why : Stop} {k : Unit → M β} :
    Restarts (onlyIf c (stop why) >>= k) s ↔ (¬ c → Restarts (k ()) s) := by
  apply restarts_check (stays_stop why)
  intro s a t h
  cases h

end Rules

theorem neverFaults_load32 (m : OptAddr) : NeverFaults (load32 m) := (touches_load32 m).neverFaults

theorem neverFaults_storeSlots (w : Width) (ms : List OptAddr) (vs : List Word) :
    NeverFaults (storeSlots w ms vs) := (touches_storeSlots w ms vs).neverFaults

theorem neverFaults_refreshFlags : NeverFaults refreshFlags := by
  refine neverFaults_bind neverFaults_get fun s => ?_
  cases s.toLazyFlags.refreshFlags with
  | none => exact neverFaults_stop _
  | some f => exact neverFaults_modify _

theorem neverFaults_enterHandler (newcs newip : Word) (interrupt : Bool) :
    NeverFaults (enterHandler newcs newip interrupt) := by
  refine neverFaults_bind (neverFaults_try1 _) fun _ => ?_
  refine neverFaults_bind (neverFaults_modify _) fun _ => ?_
  exact neverFaults_bind (neverFaults_modify _) fun _ => neverFaults_onlyIf (neverFaults_modify _)

theorem neverFaults_storeTss (off val : Word) : NeverFaults (storeTss off val) :=
  neverFaults_bind (neverFaults_try1 _) fun _ => (touches_store32 _ _).neverFaults

theorem neverFaults_loadTss (off : Word) : NeverFaults (loadTss off) :=
  neverFaults_bind (neverFaults_try1 _) fun _ => neverFaults_load32 _

theorem neverFaults_saveGprs (is : List (Fin 8)) : NeverFaults (saveGprs is) := by
  induction is with
  | nil => exact neverFaults_pure _
  | cons i is ih =>
    refine neverFaults_bind neverFaults_get fun _ => ?_
    exact neverFaults_bind (neverFaults_storeTss _ _) fun _ => ih

theorem neverFaults_saveSegs (rs : List SegReg) : NeverFaults (saveSegs rs) := by
  induction rs with
  | nil => exact neverFaults_pure _
  | cons r rs ih =>
    refine neverFaults_bind neverFaults_get fun _ => ?_
    exact neverFaults_bind (neverFaults_storeTss _ _) fun _ => ih

theorem neverFaults_loadGprs (is : List (Fin 8)) : NeverFaults (loadGprs is) := by
  induction is with
  | nil => exact neverFaults_pure _
  | cons i is ih =>
    refine neverFaults_bind (neverFaults_loadTss _) fun _ => ?_
    exact neverFaults_bind (neverFaults_modify _) fun _ => ih

theorem neverFaults_loadSegs (rs : List SegReg) : NeverFaults (loadSegs rs) := by
  induction rs with
  | nil => exact neverFaults_pure _
  | cons r rs ih =>
    refine neverFaults_bind (neverFaults_loadTss _) fun _ => ?_
    exact neverFaults_bind (neverFaults_try1 _) fun _ => ih

theorem neverFaults_saveTask (kind : SwitchType) : NeverFaults (saveTask kind) := by
  refine neverFaults_bind neverFaults_get fun _ => ?_
  refine neverFaults_bind (neverFaults_storeTss _ _) fun _ => ?_
  refine neverFaults_bind neverFaults_refreshFlags fun _ => ?_
  refine neverFaults_bind neverFaults_get fun _ => ?_
  refine neverFaults_bind (neverFaults_storeTss _ _) fun _ => ?_
  exact neverFaults_bind (neverFaults_saveGprs _) fun _ => neverFaults_saveSegs _

theorem neverFaults_updateBusy (sel : Word) (f : Word → Word) : NeverFaults (updateBusy sel f) := by
  refine neverFaults_bind neverFaults_get fun _ => ?_
  refine neverFaults_bind (neverFaults_try1 _) fun _ => ?_
  exact neverFaults_bind (neverFaults_load32 _) fun _ => (touches_store32 _ _).neverFaults

theorem neverFaults_loadTask : NeverFaults loadTask := by
  refine neverFaults_bind (neverFaults_loadTss _) fun _ => ?_
  refine neverFaults_bind (neverFaults_try1 _) fun _ => ?_
  refine neverFaults_bind (neverFaults_loadGprs _) fun _ => ?_
  refine neverFaults_bind (neverFaults_loadSegs _) fun _ => ?_
  exact neverFaults_bind (neverFaults_loadTss _) fun _ => neverFaults_modify _

theorem neverFaults_beginSwitch (tss : Word) (kind : SwitchType) :
    NeverFaults (beginSwitch tss kind) := by
  refine neverFaults_bind neverFaults_get fun _ => ?_
  refine neverFaults_bind (neverFaults_onlyIf (neverFaults_stop _)) fun _ => ?_
  refine neverFaults_bind (neverFaults_saveTask _) fun _ => ?_
  refine neverFaults_bind ?_ fun _ => ?_
  · exact neverFaults_bind neverFaults_get fun _ => neverFaults_onlyIf (neverFaults_updateBusy _ _)
  refine neverFaults_bind (neverFaults_try1 _) fun _ => ?_
  refine neverFaults_bind neverFaults_get fun _ => ?_
  refine neverFaults_bind (neverFaults_onlyIf (neverFaults_stop _)) fun _ => ?_
  refine neverFaults_bind (neverFaults_onlyIf ?_) fun _ => ?_
  · exact neverFaults_bind (neverFaults_updateBusy _ _) fun _ => neverFaults_modify _
  · exact neverFaults_bind (neverFaults_modify _) fun _ => neverFaults_loadTask

/-- A task switch never faults: what goes wrong in it is fatal. -/
theorem neverFaults_taskSwitch (tss : Word) (kind : SwitchType) :
    NeverFaults (taskSwitch tss kind) := by
  refine neverFaults_bind neverFaults_get fun _ => ?_
  refine neverFaults_bind (neverFaults_beginSwitch _ _) fun _ => ?_
  refine neverFaults_bind (neverFaults_loadTss _) fun _ => ?_
  refine neverFaults_bind (neverFaults_modify _) fun _ => ?_
  refine neverFaults_bind (neverFaults_onlyIf ?_) fun _ => ?_
  · exact neverFaults_bind (neverFaults_storeTss _ _) fun _ => neverFaults_modify _
  · exact neverFaults_bind (neverFaults_loadTss _) fun _ => neverFaults_modify _

theorem neverFaults_isrReal (no : Byte) : NeverFaults (isrReal no) := by
  refine neverFaults_bind neverFaults_get fun _ => ?_
  refine neverFaults_bind (neverFaults_try1 _) fun _ => ?_
  refine neverFaults_bind (neverFaults_load32 _) fun _ => ?_
  refine neverFaults_bind (neverFaults_try1 _) fun _ => ?_
  refine neverFaults_bind neverFaults_refreshFlags fun _ => ?_
  refine neverFaults_bind (neverFaults_modify _) fun _ => ?_
  refine neverFaults_bind neverFaults_get fun _ => ?_
  refine neverFaults_bind (neverFaults_storeSlots _ _ _) fun _ => ?_
  refine neverFaults_bind (neverFaults_modify _) fun _ => ?_
  refine neverFaults_bind (neverFaults_try1 _) fun _ => ?_
  exact neverFaults_bind (neverFaults_modify _) fun _ => neverFaults_modify _

/-- The stack `new`, SS and ESP, can be entered: its SS loads and the slots of the frame translate,
or it is the stack in use. -/
structure EntersStack (frame : M Unit) (new : Word × Word) (s : CPUI386) : Prop where
  load : Faults (setSeg .ss new.1) (s.setGpr 4 new.2) → new.2 = s.gpr 4
  frame : ∀ t, setSeg .ss new.1 (s.setGpr 4 new.2) = .ok () t → Faults frame t →
    new.2 = s.gpr 4 ∧ t.seg .ss = s.seg .ss ∧ t.spMask = s.spMask

theorem setGpr_eq_iff (s : CPUI386) (i : Fin 8) (v : Word) :
    (s.setGpr i v).gpr = s.gpr ↔ v = s.gpr i := by
  constructor
  · intro h
    have hi : Function.update s.gpr i v i = s.gpr i := congrFun h i
    rw [Function.update_self] at hi
    exact hi
  · intro h
    rw [CPUI386.setGpr, h, Function.update_eq_self]

theorem setSeg_ss_ok {sel : Word} {s t : CPUI386} (h : setSeg .ss sel s = .ok () t) :
    (∀ r, r ≠ .ss → t.seg r = s.seg r) ∧ t.gpr = s.gpr ∧ t.cpl = s.cpl ∧ t.code16 = s.code16 ∧
      t.ip = s.ip ∧ t.toLazyFlags = s.toLazyFlags := by
  obtain ⟨u, hu, ⟨rfl, -⟩ | ⟨w1, w2, rfl, -⟩⟩ := wp_ok (setSeg_spec .ss sel s) h
  · have hc := hu.sameContext
    refine ⟨fun r hr => ?_, hc.gpr, hc.cpl, hc.code16, hc.ip, hc.eflags⟩
    rw [← hc.seg]
    exact Function.update_of_ne hr _ _
  · have hc := hu.sameContext
    refine ⟨fun r hr => ?_, hc.gpr, hc.cpl, hc.code16, hc.ip, hc.eflags⟩
    rw [← hc.seg]
    exact Function.update_of_ne hr _ _

/-- Entering a stack is undone by a fault only where the stack is the one in use. -/
theorem restarts_enterStack {new : Word × Word} {frame : M Unit} {push : M Unit} (s : CPUI386)
    (hpush : ∀ t, Restarts push t) (hf : ∀ t, Faults push t ↔ Faults frame t) :
    Restarts (do sreg32 4 new.2; setSeg .ss new.1; push) s ↔ EntersStack frame new s := by
  have hload : ∀ t, setSeg .ss new.1 (s.setGpr 4 new.2) = .fault t →
      (SameContext s t ↔ new.2 = s.gpr 4) := by
    intro t ht
    have hc := (wp_faulted (setSeg_spec _ _ _) ht).1.sameContext
    rw [← setGpr_eq_iff, ← hc.gpr]
    exact ⟨fun h => h.gpr, fun h => ⟨h, hc.seg, hc.cpl, hc.code16, hc.spMask, hc.ip, hc.eflags⟩⟩
  have hstack : ∀ t, setSeg .ss new.1 (s.setGpr 4 new.2) = .ok () t →
      (SameContext s t ↔ new.2 = s.gpr 4 ∧ t.seg .ss = s.seg .ss ∧ t.spMask = s.spMask) := by
    intro t ht
    obtain ⟨hseg, hgpr, hcpl, hcode, hip, hfl⟩ := setSeg_ss_ok ht
    rw [← setGpr_eq_iff, ← hgpr]
    constructor
    · exact fun h => ⟨h.gpr, congrFun h.seg .ss, h.spMask⟩
    · rintro ⟨hg, hss, hm⟩
      refine ⟨hg, ?_, hcpl, hcode, hm, hip, hfl⟩
      funext r
      by_cases hr : r = .ss
      · rw [hr, hss]
      · exact hseg r hr
  have hrun : ∀ u, (do sreg32 4 new.2; setSeg .ss new.1; push) s = .fault u ↔
      setSeg .ss new.1 (s.setGpr 4 new.2) = .fault u ∨
        ∃ a t, setSeg .ss new.1 (s.setGpr 4 new.2) = .ok a t ∧ push t = .fault u := by
    intro u
    exact @bind_fault_iff _ _ _ _ (setSeg .ss new.1) (fun _ => push) (s.setGpr 4 new.2) u
  constructor
  · intro h
    constructor
    · intro ⟨t, ht⟩
      exact (hload t ht).mp (h t ((hrun t).mpr (Or.inl ht)))
    · intro t ht hfr
      obtain ⟨u, hu⟩ := (hf t).mpr hfr
      have hs := h u ((hrun u).mpr (Or.inr ⟨(), t, ht, hu⟩))
      exact (hstack t ht).mp (hs.trans (hpush t u hu).symm)
  · intro h u hu
    rcases (hrun u).mp hu with hl | ⟨_, t, ht, hp⟩
    · exact (hload u hl).mpr (h.load ⟨u, hl⟩)
    · have hs := (hstack t ht).mpr (h.frame t ht ((hf t).mp ⟨u, hp⟩))
      exact hs.trans (hpush t u hp)

/-- The translations of the frame of an interrupt to an inner ring. -/
def innerSlots (w : Width) (pusherr : Bool) : M Unit := do
  let s ← get
  let _ ← slotsBelow w 2 (lreg32 s 4) (s.seg .ss).spMask [1, 2, 3, 4, 5]
  let _ ← slotsBelow w 2 (lreg32 s 4) (s.seg .ss).spMask (if pusherr then [6] else [])

/-- The translations of the frame of an interrupt from V86 mode. -/
def v86Slots (pusherr : Bool) : M Unit := do
  let s ← get
  let _ ← try1 (slotsBelow .b32 2 (lreg32 s 4) (s.seg .ss).spMask [1, 2, 3, 4, 5, 6, 7, 8, 9])
  let _ ← slotsBelow .b32 2 (lreg32 s 4) (s.seg .ss).spMask (if pusherr then [10] else [])

theorem neverFaults_storeRest (w w' : Width) (ms err : List OptAddr) (f : CPUI386 → List Word)
    {x : M Unit} (hx : NeverFaults x) :
    NeverFaults (do
      refreshFlags
      dropMask
      let s ← get
      storeSlots w ms (f s)
      storeSlots w' err [s.excerr]
      x) := by
  refine neverFaults_bind neverFaults_refreshFlags fun _ => ?_
  refine neverFaults_bind (neverFaults_modify _) fun _ => ?_
  refine neverFaults_bind neverFaults_get fun s => ?_
  refine neverFaults_bind (neverFaults_storeSlots _ _ _) fun _ => ?_
  exact neverFaults_bind (neverFaults_storeSlots _ _ _) fun _ => hx

theorem restarts_isrSame (w : Width) (pusherr : Bool) (s : CPUI386) :
    Restarts (isrSame w pusherr) s := by
  unfold isrSame
  rw [restarts_get, restarts_bind (backstage_slotsBelow _ _ _ _ _)]
  intro slots t _
  rw [restarts_bind (backstage_slotsBelow _ _ _ _ _)]
  intro err u _
  apply restarts_of_neverFaults
  exact neverFaults_storeRest _ _ _ _ _ (neverFaults_modify _)

theorem faults_bind_neverFaults {α β γ : Type} {x : M α} {k : α → M β} {k' : α → M γ} {s : CPUI386}
    (hk : ∀ a, NeverFaults (k a)) (hk' : ∀ a, NeverFaults (k' a)) :
    Faults (x >>= k) s ↔ Faults (x >>= k') s := by
  unfold Faults
  simp only [bind_fault_of_neverFaults hk, bind_fault_of_neverFaults hk']

theorem faults_bind_congr {α β γ : Type} {x : M α} {k : α → M β} {k' : α → M γ} {s : CPUI386}
    (hk : ∀ a t, Faults (k a) t ↔ Faults (k' a) t) :
    Faults (x >>= k) s ↔ Faults (x >>= k') s := by
  unfold Faults at *
  simp only [bind_fault_iff]
  constructor
  · rintro ⟨u, h | ⟨a, t, ht, hf⟩⟩
    · exact ⟨u, Or.inl h⟩
    · obtain ⟨v, hv⟩ := (hk a t).mp ⟨u, hf⟩
      exact ⟨v, Or.inr ⟨a, t, ht, hv⟩⟩
  · rintro ⟨u, h | ⟨a, t, ht, hf⟩⟩
    · exact ⟨u, Or.inl h⟩
    · obtain ⟨v, hv⟩ := (hk a t).mpr ⟨u, hf⟩
      exact ⟨v, Or.inr ⟨a, t, ht, hv⟩⟩

theorem neverFaults_innerRest (w : Width) (slots err : List OptAddr) (v spMask oldss oldsp : Word) :
    NeverFaults (do
      storeSlots w slots [oldss, oldsp]
      refreshFlags
      dropMask
      let s ← get
      storeSlots w (slots.drop 2) [s.flags, (s.seg .cs).sel, s.ip]
      storeSlots w err [s.excerr]
      match w with
      | .b16 => setSp v spMask
      | _ => sreg32 4 v) := by
  refine neverFaults_bind (neverFaults_storeSlots _ _ _) fun _ => ?_
  apply neverFaults_storeRest w w (slots.drop 2) err fun s => [s.flags, (s.seg .cs).sel, s.ip]
  cases w with
  | b8 => exact neverFaults_modify _
  | b16 => exact neverFaults_modify _
  | b32 => exact neverFaults_modify _

theorem restarts_pushInnerFrame (w : Width) (pusherr : Bool) (oldss oldsp : Word) (s : CPUI386) :
    Restarts (pushInnerFrame w pusherr oldss oldsp) s := by
  unfold pushInnerFrame
  rw [restarts_get, restarts_bind (backstage_slotsBelow _ _ _ _ _)]
  intro slots t _
  rw [restarts_bind (backstage_slotsBelow _ _ _ _ _)]
  intro err u _
  exact restarts_of_neverFaults (neverFaults_innerRest _ _ _ _ _ _ _) u

theorem faults_pushInnerFrame (w : Width) (pusherr : Bool) (oldss oldsp : Word) (s : CPUI386) :
    Faults (pushInnerFrame w pusherr oldss oldsp) s ↔ Faults (innerSlots w pusherr) s := by
  apply faults_bind_congr
  intro s t
  apply faults_bind_congr
  intro slots u
  apply faults_bind_neverFaults
  · exact fun err => neverFaults_innerRest _ _ _ _ _ _ _
  · exact fun _ => neverFaults_pure _

theorem restarts_isrInner (w : Width) (pusherr : Bool) (pl : Nat) (s : CPUI386) :
    Restarts (isrInner w pusherr pl) s ↔
      ∀ new t, innerStack pl s = .ok new t → EntersStack (innerSlots w pusherr) new t := by
  unfold isrInner
  rw [restarts_get, restarts_bind (backstage_innerStack pl)]
  have hsw : ∀ new t, Restarts (do
      sreg32 4 new.2
      setSeg .ss new.1
      pushInnerFrame w pusherr (s.seg .ss).sel (s.gpr 4)) t ↔
      EntersStack (innerSlots w pusherr) new t := fun new t =>
    restarts_enterStack t (restarts_pushInnerFrame w pusherr _ _)
      (faults_pushInnerFrame w pusherr _ _)
  exact ⟨fun h new t ht => (hsw new t).mp (h new t ht), fun h new t ht => (hsw new t).mpr (h new t ht)⟩

/-- V86 mode left for the stack pointer of the TSS. -/
def CPUI386.leaveV86 (s : CPUI386) (sp : Word) : CPUI386 :=
  { s with flags := s.flags &&& ~~~VM }.setGpr 4 sp

theorem hasBit_and_not (x m : Word) : hasBit (x &&& ~~~m) m = false := by
  have h : x &&& ~~~m &&& m = 0 := by
    apply BitVec.eq_of_getLsbD_eq
    intro i hi
    simp [hi]
  rw [hasBit, h]
  rfl

theorem catchFault_fault_iff {x h : M Unit} (hh : ∀ s a t, h s ≠ .ok a t) {k : Unit → M Unit}
    {s u : CPUI386} :
    (x.catchFault h >>= k) s = .fault u ↔
      (∃ t, x s = .fault t ∧ h t = .fault u) ∨ ∃ t, x s = .ok () t ∧ k () t = .fault u := by
  rw [bind_fault_iff]
  unfold Prog.catchFault
  cases hx : x s with
  | ok a t =>
    constructor
    · rintro (hf | ⟨b, v, hb, hk⟩)
      · cases hf
      · cases hb
        exact Or.inr ⟨t, rfl, hk⟩
    · rintro (⟨v, hv, -⟩ | ⟨v, hv, hk⟩)
      · cases hv
      · cases hv
        exact Or.inr ⟨(), t, rfl, hk⟩
  | fault t =>
    have hn : ∀ a v, h t ≠ .ok a v := hh t
    simp [hn]
  | stop why => simp

theorem neverFaults_v86Rest (slots err : List OptAddr) (v spMask : Word) (vs : List Word) :
    NeverFaults (do
      storeSlots .b32 slots vs
      refreshFlags
      dropMask
      let s ← get
      storeSlots .b32 (slots.drop 6) [s.flags ||| VM, (s.seg .cs).sel, s.ip]
      storeSlots .b32 err [s.excerr]
      setSp v spMask) := by
  refine neverFaults_bind (neverFaults_storeSlots _ _ _) fun _ => ?_
  exact neverFaults_storeRest .b32 .b32 (slots.drop 6) err
    (fun s => [s.flags ||| VM, (s.seg .cs).sel, s.ip]) (neverFaults_modify _)

theorem restarts_pushV86Frame (pusherr : Bool) (oldss oldsp : Word) (s : CPUI386) :
    Restarts (pushV86Frame pusherr oldss oldsp) s := by
  unfold pushV86Frame
  rw [restarts_get, restarts_bind (keeps_try1 (backstage_slotsBelow _ _ _ _ _)).stays]
  intro slots t _
  rw [restarts_bind (backstage_slotsBelow _ _ _ _ _)]
  intro err u _
  exact restarts_of_neverFaults (neverFaults_v86Rest _ _ _ _ _) u

theorem faults_pushV86Frame (pusherr : Bool) (oldss oldsp : Word) (s : CPUI386) :
    Faults (pushV86Frame pusherr oldss oldsp) s ↔ Faults (v86Slots pusherr) s := by
  apply faults_bind_congr
  intro s t
  apply faults_bind_congr
  intro slots u
  apply faults_bind_neverFaults
  · exact fun err => neverFaults_v86Rest _ _ _ _ _
  · exact fun _ => neverFaults_pure _

theorem neverFaults_v86Tail (newcs newip : Word) (interrupt : Bool) :
    NeverFaults (do
      try1 (setSeg .ds 0)
      try1 (setSeg .es 0)
      try1 (setSeg .fs 0)
      try1 (setSeg .gs 0)
      setFlags fun f => f &&& ~~~(TF ||| RF ||| NT)
      try1 (setSeg .cs newcs)
      setIp newip
      onlyIf interrupt (setFlags fun f => f &&& ~~~IF)) := by
  refine neverFaults_bind (neverFaults_try1 _) fun _ => ?_
  refine neverFaults_bind (neverFaults_try1 _) fun _ => ?_
  refine neverFaults_bind (neverFaults_try1 _) fun _ => ?_
  refine neverFaults_bind (neverFaults_try1 _) fun _ => ?_
  refine neverFaults_bind (neverFaults_modify _) fun _ => ?_
  refine neverFaults_bind (neverFaults_try1 _) fun _ => ?_
  exact neverFaults_bind (neverFaults_modify _) fun _ => neverFaults_onlyIf (neverFaults_modify _)

/-- From V86 mode a bad SS is undone, and a fault of the slot of the error code never is. -/
theorem restarts_isrFromV86 {pusherr : Bool} {newcs newip : Word} {interrupt : Bool} {s : CPUI386}
    (hvm : hasBit s.flags VM = true) :
    Restarts (isrFromV86 pusherr newcs newip interrupt) s ↔
      (hasBit (s.seg .tr).flags 0x8 = true → ∀ new t, innerStack 0 s = .ok new t →
        ∀ u, setSeg .ss new.1 (t.leaveV86 new.2) = .ok () u → ¬ Faults (v86Slots pusherr) u) := by
  unfold isrFromV86
  rw [restarts_get, restarts_assert, not_not]
  refine imp_congr_right fun _ => ?_
  rw [restarts_bind (backstage_innerStack 0)]
  refine forall_congr' fun new => forall_congr' fun t => forall_congr' fun ht => ?_
  have hst := ((backstage_innerStack 0).ok ht).sameContext
  have hrun : ∀ v, _ ↔ _ := fun v => @catchFault_fault_iff (setSeg .ss new.1)
    (do modify fun u => { u.setGpr 4 (s.gpr 4) with flags := s.flags }; fault)
    (fun s a t h => by cases h)
    (fun _ => pushV86Frame pusherr (s.seg .ss).sel (s.gpr 4) >>= fun _ => do
      try1 (setSeg .ds 0)
      try1 (setSeg .es 0)
      try1 (setSeg .fs 0)
      try1 (setSeg .gs 0)
      setFlags fun f => f &&& ~~~(TF ||| RF ||| NT)
      try1 (setSeg .cs newcs)
      setIp newip
      onlyIf interrupt (setFlags fun f => f &&& ~~~IF)) (t.leaveV86 new.2) v
  constructor
  · intro h u hu hf
    obtain ⟨v, hv⟩ := (faults_pushV86Frame pusherr (s.seg .ss).sel (s.gpr 4) u).mpr hf
    have hs := h v ((hrun v).mpr (Or.inr ⟨u, hu, bind_fault_iff.mpr (Or.inl hv)⟩))
    have huv := restarts_pushV86Frame pusherr _ _ u v hv
    have hfl : u.flags = t.flags :=
      (congrArg LazyFlags.flags huv.eflags).symm.trans (congrArg LazyFlags.flags hs.eflags)
    obtain ⟨-, -, -, -, -, hlu⟩ := setSeg_ss_ok hu
    have hclear : u.flags = t.flags &&& ~~~VM := congrArg LazyFlags.flags hlu
    have hts : t.flags = s.flags := congrArg LazyFlags.flags hst.eflags
    have h0 := hasBit_and_not t.flags VM
    rw [← hclear, hfl, hts, hvm] at h0
    cases h0
  · intro h v hv
    rcases (hrun v).mp hv with ⟨u, hu, hr⟩ | ⟨u, hu, hp⟩
    · cases hr
      have hc := (wp_faulted (setSeg_spec _ _ _) hu).1.sameContext
      refine ⟨?_, hc.seg, hc.cpl, hc.code16, hc.spMask, hc.ip, ?_⟩
      · have hg : u.gpr = Function.update t.gpr 4 new.2 := hc.gpr
        change Function.update u.gpr 4 (s.gpr 4) = t.gpr
        rw [hg, ← hst.gpr, Function.update_idem, Function.update_eq_self]
      · have hl : u.cc = (t.leaveV86 new.2).cc := congrArg LazyFlags.cc hc.eflags
        have hts : t.flags = s.flags := congrArg LazyFlags.flags hst.eflags
        change LazyFlags.mk s.flags u.cc = t.toLazyFlags
        rw [hl, ← hts]
        rfl
    · rw [bind_fault_of_neverFaults fun _ => neverFaults_v86Tail _ _ _] at hp
      exact absurd ((faults_pushV86Frame pusherr _ _ u).mp ⟨v, hp⟩) (h u hu)

theorem callIsrCheckCs_fromV86 {sel ext : Word} {s t : CPUI386}
    (h : callIsrCheckCs sel ext s = .ok .fromV86 t) : hasBit s.flags VM = true := by
  have hw : wp (callIsrCheckCs sel ext)
      (fun a _ => a = .fromV86 → hasBit s.flags VM = true) (fun _ => True) (fun _ => True) s := by
    unfold callIsrCheckCs
    rw [wp_bind, wp_get]
    refine wp_bind_mono (wp_true _ _) fun _ _ _ => ?_
    refine wp_bind_mono (wp_true _ _) fun _ _ _ => ?_
    refine wp_bind_mono (wp_true _ _) fun _ _ _ => ?_
    refine wp_bind_mono (wp_true _ _) fun _ _ _ => ?_
    refine wp_bind_mono (wp_true _ _) fun _ _ _ => ?_
    refine wp_ite (fun _ => wp_ite ?_ ?_) fun _ => ?_
    · intro _ he
      cases he
    · intro hv
      rw [not_not] at hv
      exact wp_bind_mono (wp_true _ _) fun _ _ _ _ => hv
    · refine wp_bind_mono (wp_true _ _) fun _ _ _ he => ?_
      cases he
  exact wp_ok hw h rfl

def gateWidth (w2 : Word) : Width :=
  if (w2 >>> 8) &&& 0xf == 6 || (w2 >>> 8) &&& 0xf == 7 then .b16 else .b32

/-- The checks of `callIsr` are passed in `t`: the gate is `w`, not a task gate, and leads to
`tgt`. -/
structure IsrReaches (no : Byte) (ext : Word) (s : CPUI386) (w : Word × Word) (tgt : IsrTarget)
    (t : CPUI386) : Prop where
  protected_ : hasBit s.cr0 1 = true
  notTask : (w.2 >>> 8) &&& 0xf ≠ 5
  checked : ∃ u, isrReadGate no ext s = .ok w u ∧ callIsrCheckCs (w.1 >>> 16) ext u = .ok tgt t

/-- An interrupt that switches stacks finds a usable one, and from V86 mode one with room for the
error code. -/
structure IsrStackOk (no : Byte) (pusherr : Bool) (ext : Word) (s : CPUI386) : Prop where
  inner : ∀ w pl t, IsrReaches no ext s w (.inner pl) t → ∀ new u, innerStack pl t = .ok new u →
    EntersStack (innerSlots (gateWidth w.2) pusherr) new u
  fromV86 : ∀ w t, IsrReaches no ext s w .fromV86 t → gateWidth w.2 = .b32 →
    hasBit (t.seg .tr).flags 0x8 = true → ∀ new u, innerStack 0 t = .ok new u →
      ∀ v, setSeg .ss new.1 (u.leaveV86 new.2) = .ok () v → ¬ Faults (v86Slots pusherr) v

theorem gateWidth_b32 {w2 : Word} :
    gateWidth w2 = .b32 ↔ ¬ ((w2 >>> 8) &&& 0xf == 6 || (w2 >>> 8) &&& 0xf == 7) = true := by
  unfold gateWidth
  cases (w2 >>> 8) &&& 0xf == 6 || (w2 >>> 8) &&& 0xf == 7 with
  | true => simp
  | false => simp

theorem restarts_isrGate (w1 w2 : Word) (pusherr : Bool) (ext : Word) (s : CPUI386) :
    Restarts (isrGate w1 w2 pusherr ext) s ↔
      ∀ tgt t, callIsrCheckCs (w1 >>> 16) ext s = .ok tgt t →
        match tgt with
        | .same => True
        | .inner pl => ∀ new u, innerStack pl t = .ok new u →
            EntersStack (innerSlots (gateWidth w2) pusherr) new u
        | .fromV86 => gateWidth w2 = .b32 → hasBit (t.seg .tr).flags 0x8 = true →
            ∀ new u, innerStack 0 t = .ok new u →
              ∀ v, setSeg .ss new.1 (u.leaveV86 new.2) = .ok () v →
                ¬ Faults (v86Slots pusherr) v := by
  unfold isrGate
  rw [restarts_get, restarts_bind (backstage_callIsrCheckCs _ _)]
  refine forall_congr' fun tgt => forall_congr' fun t => forall_congr' fun ht => ?_
  cases tgt with
  | same =>
    simp only []
    rw [restarts_bind_neverFaults fun _ => neverFaults_enterHandler _ _ _]
    exact ⟨fun _ => trivial, fun _ => restarts_isrSame _ _ _⟩
  | inner pl =>
    simp only []
    rw [restarts_bind_neverFaults fun _ => neverFaults_enterHandler _ _ _]
    exact restarts_isrInner _ _ _ _
  | fromV86 =>
    have hvm : hasBit t.flags VM = true := by
      have hc := ((backstage_callIsrCheckCs _ _).ok ht).sameContext
      have hf : t.flags = s.flags := congrArg LazyFlags.flags hc.eflags
      rw [hf]
      exact callIsrCheckCs_fromV86 ht
    simp only []
    rw [restarts_assert, restarts_isrFromV86 hvm, ← gateWidth_b32]

theorem restarts_callIsr (no : Byte) (pusherr : Bool) (ext : Word) (s : CPUI386) :
    Restarts (callIsr no pusherr ext) s ↔ IsrStackOk no pusherr ext s := by
  unfold callIsr
  rw [restarts_get, restarts_ite, restarts_bind (backstage_isrReadGate no ext)]
  constructor
  · rintro ⟨-, h⟩
    constructor
    · intro w pl t hr
      obtain ⟨u, hu, ht⟩ := hr.checked
      have hg := h (not_not.mpr hr.protected_) w u hu
      rw [restarts_ite, restarts_isrGate] at hg
      exact hg.2 hr.notTask _ t ht
    · intro w t hr
      obtain ⟨u, hu, ht⟩ := hr.checked
      have hg := h (not_not.mpr hr.protected_) w u hu
      rw [restarts_ite, restarts_isrGate] at hg
      exact hg.2 hr.notTask _ t ht
  · intro h
    refine ⟨fun _ => restarts_of_neverFaults (neverFaults_isrReal no) s, ?_⟩
    intro hpe w u hu
    rw [restarts_ite, restarts_isrGate]
    refine ⟨fun _ => restarts_of_neverFaults (neverFaults_taskSwitch _ _) u, ?_⟩
    intro htask tgt t ht
    have hr : IsrReaches no ext s w tgt t := ⟨not_not.mp hpe, htask, u, hu, ht⟩
    cases tgt with
    | same => trivial
    | inner pl => exact h.inner w pl t hr
    | fromV86 => exact h.fromV86 w t hr

theorem neverFaults_pushed (w : Width) (slots : List OptAddr) (v spMask : Word) (vs : List Word) :
    NeverFaults (do
      setSp v spMask
      storeSlots w slots vs) :=
  neverFaults_bind (neverFaults_modify _) fun _ => neverFaults_storeSlots _ _ _

theorem restarts_pushReturn (w : Width) (s : CPUI386) : Restarts (pushReturn w) s := by
  unfold pushReturn
  rw [restarts_get, restarts_bind (backstage_slotsBelow _ _ _ _ _)]
  intro slots t _
  exact restarts_of_neverFaults (neverFaults_pushed _ _ _ _ _) t

theorem restarts_pushGateReturn (w : Width) (s : CPUI386) : Restarts (pushGateReturn w) s := by
  unfold pushGateReturn
  rw [restarts_get, restarts_bind (backstage_slotsBelow _ _ _ _ _)]
  intro slots t _
  apply restarts_of_neverFaults
  exact neverFaults_bind (neverFaults_storeSlots _ _ _) fun _ => neverFaults_modify _

theorem neverFaults_loadCs (sel ip : Word) :
    NeverFaults (do
      try1 (setSeg .cs sel)
      setNextIp ip) :=
  neverFaults_bind (neverFaults_try1 _) fun _ => neverFaults_modify _

theorem neverFaults_pushInnerReturn (w : Width) (oldss oldsp : Word) (params : List Word) (wc : Nat) :
    NeverFaults (pushInnerReturn w oldss oldsp params wc) := by
  refine neverFaults_bind neverFaults_get fun _ => ?_
  refine neverFaults_bind (neverFaults_try1 _) fun _ => ?_
  refine neverFaults_bind (backstage_storeParams _ _ _ _ _ _).neverFaults fun _ => ?_
  refine neverFaults_bind neverFaults_get fun _ => ?_
  exact neverFaults_bind (neverFaults_storeSlots _ _ _) fun _ => neverFaults_modify _

theorem restarts_onlyIf {c : Prop} [Decidable c] {x : M Unit} {s : CPUI386} (hx : Restarts x s) :
    Restarts (onlyIf c x) s := by
  unfold Prog.onlyIf
  rw [restarts_ite]
  exact ⟨fun _ => hx, fun _ => restarts_of_neverFaults (neverFaults_pure ()) s⟩

theorem restarts_callInner (w : Width) (pl wc : Nat) (isjmp : Bool) (s : CPUI386) :
    Restarts (callInner w pl wc isjmp) s ↔
      ∀ params t, loadParams w (s.gpr 4) (s.seg .ss).spMask (List.range wc) s = .ok params t →
        ∀ new u, innerStack pl t = .ok new u →
          Faults (setSeg .ss new.1) (u.setGpr 4 new.2) → new.2 = u.gpr 4 := by
  unfold callInner
  rw [restarts_get, restarts_bind (backstage_loadParams _ _ _ _)]
  refine forall_congr' fun params => forall_congr' fun t => forall_congr' fun _ => ?_
  rw [restarts_bind (backstage_innerStack pl)]
  refine forall_congr' fun new => forall_congr' fun u => forall_congr' fun _ => ?_
  have hpush : NeverFaults (onlyIf (¬ isjmp = true)
      (pushInnerReturn w (s.seg .ss).sel (s.gpr 4) params wc)) :=
    neverFaults_onlyIf (neverFaults_pushInnerReturn _ _ _ _ _)
  have hf : ∀ v, ¬ Faults (onlyIf (¬ isjmp = true)
      (pushInnerReturn w (s.seg .ss).sel (s.gpr 4) params wc)) v := fun v ⟨x, hx⟩ => hpush v x hx
  have hsw := @restarts_enterStack new _ _ u (restarts_of_neverFaults hpush) fun v => Iff.rfl
  refine hsw.trans ⟨fun h => h.load, fun h => ⟨h, ?_⟩⟩
  intro v _ hv
  exact absurd hv (hf v)

theorem backstage_pmcallCheckCs (sel w2 : Word) : Stays Backstage (pmcallCheckCs sel w2) :=
  stays_get fun _ => stays_bind (stays_onlyIf (backstage_throwEx _ _)) fun _ =>
    stays_ite (stays_onlyIf (backstage_throwEx _ _)) (stays_onlyIf (backstage_throwEx _ _))

theorem restarts_pmcallSegment (opsz16 : Bool) (addr sel w2 : Word) (isjmp : Bool) (s : CPUI386) :
    Restarts (pmcallSegment opsz16 addr sel w2 isjmp) s := by
  unfold pmcallSegment
  rw [restarts_get, restarts_bind (backstage_pmcallCheckCs _ _)]
  intro _ t _
  rw [restarts_bind_neverFaults fun _ => neverFaults_loadCs _ _]
  exact restarts_onlyIf (restarts_pushReturn _ _)

def callWidth (w2 : Word) : Width := if (w2 >>> 8) &&& 0xf == 4 then .b16 else .b32

/-- The checks of a call gate are passed in `t`, and it leads to an inner ring: `neww2` is the
second word of the descriptor of its code segment. -/
structure GateReaches (w : Word × Word) (s : CPUI386) (neww2 : Word) (t : CPUI386) : Prop where
  nonNull : (w.1 >>> 16) &&& ~~~3 ≠ 0
  read : readDesc2 (w.1 >>> 16) s = .ok neww2 t
  code : (neww2 >>> 11) &&& 3 = 3
  present : descPresent neww2 = true
  inner : ¬ descConforming neww2 = true ∧ descDpl neww2 < s.cpl

/-- Where the gate leads to an inner ring, the SS of its stack loads, or ESP is that of the stack
in use. -/
def GateStackOk (w : Word × Word) (s : CPUI386) : Prop :=
  ∀ neww2 t, GateReaches w s neww2 t →
    ∀ params u, loadParams (callWidth w.2) (t.gpr 4) (t.seg .ss).spMask
        (List.range (w.2 &&& 31).toNat) t = .ok params u →
      ∀ new v, innerStack (descDpl neww2) u = .ok new v →
        Faults (setSeg .ss new.1) (v.setGpr 4 new.2) → new.2 = v.gpr 4

theorem restarts_pmcallGate (w1 w2 : Word) (isjmp : Bool) (s : CPUI386) :
    Restarts (pmcallGate w1 w2 isjmp) s ↔ GateStackOk (w1, w2) s := by
  unfold pmcallGate
  rw [restarts_get, restarts_guard]
  constructor
  · intro h neww2 t hr
    have hg := h hr.nonNull
    rw [restarts_bind (backstage_readDesc2 _)] at hg
    have ht := hg neww2 t hr.read
    rw [restarts_guard, restarts_guard, restarts_guard, restarts_ite] at ht
    have hp := (ht (not_not.mpr hr.code) (not_not.mpr hr.present) (by have := hr.inner.2; omega)).1
      hr.inner
    rw [restarts_bind_neverFaults fun _ => neverFaults_loadCs _ _, restarts_callInner] at hp
    exact hp
  · intro h hnull
    rw [restarts_bind (backstage_readDesc2 _)]
    intro neww2 t ht
    rw [restarts_guard, restarts_guard, restarts_guard, restarts_ite]
    intro hcode hpres _
    constructor
    · intro hin
      rw [restarts_bind_neverFaults fun _ => neverFaults_loadCs _ _, restarts_callInner]
      exact h neww2 t ⟨hnull, ht, not_not.mp hcode, not_not.mp hpres, hin⟩
    · intro _
      rw [restarts_bind_neverFaults fun _ => neverFaults_loadCs _ _]
      exact restarts_onlyIf (restarts_pushGateReturn _ _)

/-- The checks of `pmcall` are passed in `t`, and its target is the call gate `w`. -/
structure CallReaches (sel : Word) (s : CPUI386) (w : Word × Word) (t : CPUI386) : Prop where
  nonNull : (sel &&& 0xffff) &&& ~~~3 ≠ 0
  read : readDesc (sel &&& 0xffff) s = .ok w t
  present : descPresent w.2 = true
  system : descSeg w.2 = false
  dpl : ¬ (descDpl w.2 < s.cpl ∨ descDpl w.2 < ((sel &&& 0xffff) &&& 3).toNat)
  gate : (w.2 >>> 8) &&& 0xf = 4 ∨ (w.2 >>> 8) &&& 0xf = 12

theorem restarts_pmcallSystem (sel w1 w2 : Word) (isjmp : Bool) (s : CPUI386) :
    Restarts (pmcallSystem sel w1 w2 isjmp) s ↔
      (¬ (descDpl w2 < s.cpl ∨ descDpl w2 < (sel &&& 3).toNat) →
        (w2 >>> 8) &&& 0xf = 4 ∨ (w2 >>> 8) &&& 0xf = 12 → GateStackOk (w1, w2) s) := by
  unfold pmcallSystem
  rw [restarts_get, restarts_guard, restarts_ite, restarts_ite, restarts_ite, restarts_pmcallGate]
  refine imp_congr_right fun _ => ?_
  have htask : ∀ tss kind, Restarts (taskSwitch tss kind) s :=
    fun tss kind => restarts_of_neverFaults (neverFaults_taskSwitch tss kind) s
  constructor
  · intro h hg
    have h9 : ¬ (isTss32 (s.seg .tr).flags = true ∧ (w2 >>> 8) &&& 0xf = 9) := by
      rintro ⟨-, h9⟩
      rw [h9] at hg
      revert hg
      decide
    have h5 : ¬ (isTss32 (s.seg .tr).flags = true ∧ (w2 >>> 8) &&& 0xf = 5) := by
      rintro ⟨-, h5⟩
      rw [h5] at hg
      revert hg
      decide
    exact ((h.2 h9).2 h5).2 (by tauto)
  · intro h
    refine ⟨fun _ => htask _ _, fun _ => ⟨fun _ => htask _ _, fun _ => ⟨?_, ?_⟩⟩⟩
    · exact fun _ => restarts_of_neverFaults (neverFaults_stop _) s
    · exact fun hg => h (by tauto)

/-- A far call that switches stacks finds a usable one. -/
def CallStackOk (sel : Word) (s : CPUI386) : Prop :=
  ∀ w t, CallReaches sel s w t → GateStackOk w t

theorem restarts_pmcall (opsz16 : Bool) (addr sel : Word) (isjmp : Bool) (s : CPUI386) :
    Restarts (pmcall opsz16 addr sel isjmp) s ↔ CallStackOk sel s := by
  unfold pmcall
  simp only []
  rw [restarts_guard]
  constructor
  · intro h w t hr
    have hg := h hr.nonNull
    rw [restarts_bind (backstage_readDesc _)] at hg
    have ht := hg w t hr.read
    rw [restarts_guard, restarts_ite] at ht
    have hsys := (ht (not_not.mpr hr.present)).2 (by rw [hr.system]; decide)
    rw [restarts_pmcallSystem] at hsys
    have hcpl := ((backstage_readDesc _).ok hr.read).sameContext.cpl
    exact hsys (by rw [hcpl]; exact hr.dpl) hr.gate
  · intro h hnull
    rw [restarts_bind (backstage_readDesc _)]
    intro w t ht
    rw [restarts_guard, restarts_ite]
    intro hpres
    refine ⟨fun _ => restarts_pmcallSegment _ _ _ _ _ _, fun hsys => ?_⟩
    rw [restarts_pmcallSystem]
    intro hdpl hgate
    have hcpl := ((backstage_readDesc _).ok ht).sameContext.cpl
    rw [hcpl] at hdpl
    exact h w t ⟨hnull, ht, not_not.mp hpres, by simpa using hsys, hdpl, hgate⟩

/-- V86 mode is on, as it stays when segments are loaded. -/
def InV86 (s : CPUI386) : Prop := hasBit s.flags VM = true

theorem setSeg_inV86 {r : SegReg} {sel : Word} {s : CPUI386} (h : InV86 s) :
    wp (setSeg r sel) (fun _ t => InV86 t) (fun _ => False) (fun _ => True) s := by
  refine wp_mono (setSeg_spec r sel s) ?_ (fun t ht => ht.2.2 h) (fun _ _ => trivial)
  rintro _ t ⟨u, hu, ⟨rfl, -⟩ | ⟨w1, w2, rfl, -, hv⟩⟩
  · have hf : u.flags = s.flags := congrArg LazyFlags.flags hu.sameContext.eflags
    have hl : (u.loadReal r (sel &&& 0xffff)).flags = u.flags := by cases r <;> rfl
    rw [InV86, hl, hf]
    exact h
  · exact absurd h hv

/-- What loads a segment does not fault in V86 mode. -/
def StaysV86 (x : M Unit) : Prop :=
  ∀ s, InV86 s → wp x (fun _ t => InV86 t) (fun _ => False) (fun _ => True) s

theorem staysV86_bind {x : M Unit} {k : Unit → M Unit} (hx : StaysV86 x) (hk : ∀ a, StaysV86 (k a)) :
    StaysV86 (x >>= k) := fun s hs => wp_bind_mono (hx s hs) fun a t => hk a t

theorem staysV86_modify {g : CPUI386 → CPUI386} (h : ∀ s, (g s).flags = s.flags) :
    StaysV86 (modify g) := by
  intro s hs
  rw [wp_modify, InV86, h]
  exact hs

theorem staysV86_setSeg (r : SegReg) (sel : Word) : StaysV86 (setSeg r sel) :=
  fun _ hs => setSeg_inV86 hs

theorem staysV86_try1 {x : M Unit} (hx : StaysV86 x) : StaysV86 (try1 x) := by
  intro s hs
  apply wp_catchFault
  exact wp_mono (hx s hs) (fun _ _ h => h) (fun _ h => h.elim) (fun _ h => h)

theorem staysV86_load {m : OptAddr} {k : Word → M Unit} (hk : ∀ v, StaysV86 (k v)) :
    StaysV86 (load32 m >>= k) := by
  intro s hs
  rw [wp_bind]
  refine wp_mono (touches_load32 m s) ?_ (fun _ h => h) (fun _ _ => trivial)
  intro v t ht
  apply hk v t
  have hf : t.flags = s.flags := congrArg LazyFlags.flags ht.backstage.sameContext.eflags
  rw [InV86, hf]
  exact hs

theorem restarts_setV86 {newflags : Word} (hvm : hasBit newflags VM = true) {k : Unit → M Unit}
    (hk : ∀ a, StaysV86 (k a)) (s : CPUI386) :
    Restarts ((setFlags fun _ => newflags) >>= k) s := by
  intro t ht
  have hs : InV86 { s with flags := newflags } := hvm
  exact absurd ht (fun h => wp_faulted (hk () _ hs) h)

theorem restarts_pmretV86 (opsz16 : Bool) (sp spMask : Word) (fr : ReturnFrame) {newflags : Word}
    (hvm : hasBit newflags VM = true) (s : CPUI386) :
    Restarts (pmretV86 opsz16 sp spMask fr newflags) s := by
  unfold pmretV86
  rw [restarts_get, restarts_assert]
  intro _
  rw [restarts_assert]
  intro _
  rw [restarts_bind (backstage_stackAt _ _ _ _)]
  intro meml4 t _
  rw [restarts_bind (backstage_stackAt _ _ _ _)]
  intro meml5 t _
  rw [restarts_bind (backstage_stackAt _ _ _ _)]
  intro vmes t _
  rw [restarts_bind (backstage_stackAt _ _ _ _)]
  intro vmds t _
  rw [restarts_bind (backstage_stackAt _ _ _ _)]
  intro vmfs t _
  rw [restarts_bind (backstage_stackAt _ _ _ _)]
  intro vmgs t _
  apply restarts_setV86 hvm
  intro _
  refine staysV86_bind (staysV86_try1 (staysV86_setSeg _ _)) fun _ => ?_
  refine staysV86_bind (staysV86_modify fun _ => rfl) fun _ => ?_
  refine staysV86_bind (staysV86_modify fun _ => rfl) fun _ => staysV86_load fun _ => ?_
  refine staysV86_bind (staysV86_try1 (staysV86_setSeg _ _)) fun _ => staysV86_load fun _ => ?_
  refine staysV86_bind (staysV86_try1 (staysV86_setSeg _ _)) fun _ => staysV86_load fun _ => ?_
  refine staysV86_bind (staysV86_try1 (staysV86_setSeg _ _)) fun _ => staysV86_load fun _ => ?_
  refine staysV86_bind (staysV86_try1 (staysV86_setSeg _ _)) fun _ => staysV86_load fun _ => ?_
  refine staysV86_bind (staysV86_setSeg _ _) fun _ => staysV86_load fun _ => ?_
  exact staysV86_modify fun _ => rfl

theorem restarts_pmretSame (w : Width) (sp spMask off : Word) (isiret : Bool) (fr : ReturnFrame)
    (newflags : Word) (s : CPUI386) :
    Restarts (pmretSame w sp spMask off isiret fr newflags) s := by
  unfold pmretSame
  rw [restarts_bind (backstage_pmiretCheckCsSame _)]
  intro _ t _
  apply restarts_of_neverFaults
  refine neverFaults_bind (neverFaults_onlyIf (neverFaults_modify _)) fun _ => ?_
  refine neverFaults_bind (neverFaults_try1 _) fun _ => ?_
  exact neverFaults_bind (neverFaults_modify _) fun _ => neverFaults_modify _

theorem restarts_pmretOuter (w : Width) (sp spMask off : Word) (isiret : Bool) (fr : ReturnFrame)
    (newflags : Word) (s : CPUI386) :
    Restarts (pmretOuter w sp spMask off isiret fr newflags) s := by
  unfold pmretOuter
  rw [restarts_bind (backstage_pmiretCheckCsOuter _)]
  intro _ t _
  rw [restarts_bind (backstage_stackAt _ _ _ _)]
  intro meml4 t _
  rw [restarts_bind (backstage_stackAt _ _ _ _)]
  intro meml5 t _
  rw [restarts_bind (backstage_loadW _ _)]
  intro newsp t _
  rw [restarts_bind (backstage_loadW _ _)]
  intro newss t _
  apply restarts_of_neverFaults
  refine neverFaults_bind (neverFaults_onlyIf (neverFaults_modify _)) fun _ => ?_
  refine neverFaults_bind (neverFaults_try1 _) fun _ => ?_
  refine neverFaults_bind (neverFaults_try1 _) fun _ => ?_
  refine neverFaults_bind neverFaults_get fun _ => ?_
  refine neverFaults_bind (neverFaults_modify _) fun _ => ?_
  exact neverFaults_bind (neverFaults_modify _) fun _ => neverFaults_modify _

theorem restarts_pmretSwitch (opsz16 : Bool) (off : Word) (isiret : Bool) (s : CPUI386) :
    Restarts (pmretSwitch opsz16 off isiret) s := by
  unfold pmretSwitch
  rw [restarts_get, restarts_bind (backstage_popFrame _ _ _ _)]
  intro fr t _
  rw [restarts_ite]
  refine ⟨fun h => restarts_pmretV86 _ _ _ _ h.2 t, fun _ => ?_⟩
  unfold pmretProtected
  rw [restarts_get, restarts_guard, restarts_ite]
  intro _
  exact ⟨fun _ => restarts_pmretSame _ _ _ _ _ _ _ t, fun _ => restarts_pmretOuter _ _ _ _ _ _ _ t⟩

theorem restarts_pmretFrame (opsz16 : Bool) (off : Word) (isiret : Bool) (s : CPUI386) :
    Restarts (pmretFrame opsz16 off isiret) s := by
  have hdrop : NeverFaults (onlyIf (isiret = true) dropMask) :=
    neverFaults_onlyIf (neverFaults_modify _)
  unfold pmretFrame
  rw [restarts_bind_neverFaults fun _ => hdrop]
  exact restarts_pmretSwitch _ _ _ s

theorem restarts_pmretTask (s : CPUI386) : Restarts pmretTask s := by
  unfold pmretTask
  rw [restarts_bind (backstage_translate _ _ _ _ _)]
  intro meml t _
  rw [restarts_bind (backstage_load16 _)]
  intro tssback t _
  rw [restarts_guard]
  exact fun _ => restarts_of_neverFaults (neverFaults_taskSwitch _ _) t

theorem restarts_pmret (opsz16 : Bool) (off : Word) (isiret : Bool) (s : CPUI386) :
    Restarts (pmret opsz16 off isiret) s := by
  unfold pmret
  rw [restarts_get, restarts_ite]
  refine ⟨fun _ => ?_, fun _ => restarts_pmretFrame _ _ _ s⟩
  rw [restarts_guard, restarts_ite]
  exact fun _ => ⟨fun _ => restarts_pmretTask s, fun _ => restarts_pmretFrame _ _ _ s⟩

/-- Interrupts and far calls keep the context of a fault exactly when the stack they switch to, if
they switch, can be entered; far returns always keep it. -/
theorem transfers_restart (s : CPUI386) :
    (∀ no pusherr ext, Restarts (callIsr no pusherr ext) s ↔ IsrStackOk no pusherr ext s) ∧
      (∀ opsz16 addr sel isjmp, Restarts (pmcall opsz16 addr sel isjmp) s ↔ CallStackOk sel s) ∧
      ∀ opsz16 off isiret, Restarts (pmret opsz16 off isiret) s :=
  ⟨fun no pusherr ext => restarts_callIsr no pusherr ext s,
    fun opsz16 addr sel isjmp => restarts_pmcall opsz16 addr sel isjmp s,
    fun opsz16 off isiret => restarts_pmret opsz16 off isiret s⟩

/-- The gate of interrupt 0x80 leads to ring 0, whose SS in the TSS is not present. -/
def innerMem (a : Nat) : Byte :=
  if a = 0x1401 then 0x20
  else if a = 0x1402 then 0x08
  else if a = 0x1405 then 0xee
  else if a = 0x2009 ∨ a = 0x2008 then 0xff
  else if a = 0x200d then 0x9a
  else if a = 0x2015 then 0x12
  else if a = 0x3005 then 0x50
  else if a = 0x3008 then 0x10
  else 0

def innerCpu : CPUI386 :=
  { cpui386New .i486 innerMem 0x10000 false false with
    gpr := fun _ => 0x9000
    cr0 := 1
    cpl := 3
    idt := ⟨0x1000, 0x7ff⟩
    gdt := ⟨0x2000, 0xff⟩
    seg := fun r => if r = .tr then ⟨0x28, 0x3000, 0x67, 0x89⟩ else ⟨0x23, 0, 0xffffffff, 0xc0f3⟩ }

/-- The fault of the new SS finds ESP changed. -/
theorem bad_inner_stack :
    ¬ ∀ s no pusherr ext t, callIsr no pusherr ext s = .fault t → SameContext s t := by
  intro h
  have hesp : ∃ t, callIsr 0x80 false 0 innerCpu = .fault t ∧ t.gpr 4 = 0x5000 := ⟨_, rfl, rfl⟩
  obtain ⟨t, ht, hg⟩ := hesp
  have hs := congrFun (h innerCpu 0x80 false 0 t ht).gpr 4
  rw [hg] at hs
  revert hs
  decide

end Winspire.Cpu
