import Winspire.Cpu.LazyFlags
import Winspire.Cpu.Restart
import Winspire.Cpu.SysInsns

/-!
# What is cached of the mode

`code16` and `sp_mask` repeat a bit of the descriptors of CS and SS, and V86 mode goes with CPL 3
and real segments. Every writer of the segments keeps both, except a task switch to a task whose
EFLAGS has VM: there the flags are loaded after the segments.
-/

namespace Winspire.Cpu

open Faulting

set_option autoImplicit false

/-- V86 mode, with all its segments. -/
structure V86Ok (s : CPUI386) : Prop where
  protected_ : hasBit s.cr0 1 = true
  cpl : s.cpl = 3
  code16 : s.code16 = true
  spMask : s.spMask = 0xffff
  base : ∀ r ∈ tssSegs, (s.seg r).base.toNat = (s.seg r).sel.toNat * 16

/-- `code16` and `sp_mask` are those of the descriptors. -/
structure WidthsOk (s : CPUI386) : Prop where
  code16 : s.code16 = true ↔ hasBit (s.seg .cs).flags segBig = false
  spMask : s.spMask = if hasBit (s.seg .ss).flags segBig then 0xffffffff else 0xffff

structure ModeOk (s : CPUI386) : Prop where
  widths : WidthsOk s
  v86 : hasBit s.flags VM = true → V86Ok s

structure SameMode (s t : CPUI386) : Prop where
  seg : t.seg = s.seg
  cpl : t.cpl = s.cpl
  code16 : t.code16 = s.code16
  spMask : t.spMask = s.spMask
  vm : hasBit t.flags VM = hasBit s.flags VM
  pe : hasBit t.cr0 1 = hasBit s.cr0 1

instance : IsPreorder CPUI386 SameMode where
  refl _ := ⟨rfl, rfl, rfl, rfl, rfl, rfl⟩
  trans _ _ _ h h' := ⟨h'.seg.trans h.seg, h'.cpl.trans h.cpl, h'.code16.trans h.code16,
    h'.spMask.trans h.spMask, h'.vm.trans h.vm, h'.pe.trans h.pe⟩

theorem Backstage.sameMode {s t : CPUI386} (h : Backstage s t) : SameMode s t := by
  unfold Backstage at h
  constructor <;> rw [h]

theorem WidthsOk.congr {s t : CPUI386} (h : WidthsOk s) (hm : SameMode s t) : WidthsOk t where
  code16 := by rw [hm.code16, hm.seg, h.code16]
  spMask := by rw [hm.spMask, hm.seg, h.spMask]

theorem V86Ok.congr {s t : CPUI386} (h : V86Ok s) (hm : SameMode s t) : V86Ok t where
  protected_ := hm.pe.trans h.protected_
  cpl := hm.cpl.trans h.cpl
  code16 := hm.code16.trans h.code16
  spMask := hm.spMask.trans h.spMask
  base r hr := by rw [hm.seg, h.base r hr]

theorem ModeOk.congr {s t : CPUI386} (h : ModeOk s) (hm : SameMode s t) : ModeOk t where
  widths := h.widths.congr hm
  v86 hv := (h.v86 (hm.vm.symm.trans hv)).congr hm

/-- The relation that says no more than that `I` is kept. -/
def Carries (I : CPUI386 → Prop) (s t : CPUI386) : Prop := I s → I t

instance (I : CPUI386 → Prop) : IsPreorder CPUI386 (Carries I) where
  refl _ := id
  trans _ _ _ h h' := h' ∘ h

/-- The widths are right and, if `vm` asks for it, V86 mode is off. -/
structure Kept (vm : Prop) (s : CPUI386) : Prop where
  widths : WidthsOk s
  off : vm → hasBit s.flags VM = false

theorem Kept.congr {vm : Prop} {s t : CPUI386} (h : Kept vm s) (hm : SameMode s t) : Kept vm t :=
  ⟨h.widths.congr hm, fun hv => hm.vm.trans (h.off hv)⟩

theorem Kept.modeOk {s : CPUI386} (h : Kept True s) : ModeOk s where
  widths := h.widths
  v86 hv := by
    rw [h.off trivial] at hv
    cases hv

theorem ModeOk.kept {s : CPUI386} (h : ModeOk s) (hv : hasBit s.flags VM = false) : Kept True s :=
  ⟨h.widths, fun _ => hv⟩

section Kept

variable {vm : Prop} {α : Type} {x : M α}

theorem kept_of_sameMode (h : Stays SameMode x) : Stays (Carries (Kept vm)) x :=
  h.mono fun _ _ hm hk => hk.congr hm

theorem kept_of_backstage (h : Stays Backstage x) : Stays (Carries (Kept vm)) x :=
  kept_of_sameMode (h.mono fun _ _ => Backstage.sameMode)

theorem kept_try1 (h : Stays (Carries (Kept vm)) x) : Stays (Carries (Kept vm)) (try1 x) :=
  (keeps_try1 h).stays

theorem setSeg_same (s : CPUI386) (r : SegReg) (d : Segment) : (s.setSeg r d).seg r = d :=
  Function.update_self _ _ _

theorem setSeg_other (s : CPUI386) {r r' : SegReg} (d : Segment) (h : r' ≠ r) :
    (s.setSeg r d).seg r' = s.seg r' := Function.update_of_ne h _ _

theorem WidthsOk.of_eq {s t : CPUI386} (h : WidthsOk s) (hc : t.code16 = s.code16)
    (hm : t.spMask = s.spMask) (hcs : t.seg .cs = s.seg .cs) (hss : t.seg .ss = s.seg .ss) :
    WidthsOk t where
  code16 := by rw [hc, hcs, h.code16]
  spMask := by rw [hm, hss, h.spMask]

theorem WidthsOk.setCs {s t : CPUI386} (h : WidthsOk s) {d : Segment} (hm : t.spMask = s.spMask)
    (hseg : t.seg = (s.setSeg .cs d).seg) (hc : t.code16 = !hasBit d.flags segBig) : WidthsOk t where
  code16 := by rw [hc, hseg, setSeg_same, Bool.not_eq_true']
  spMask := by rw [hm, hseg, setSeg_other _ _ (by decide), h.spMask]

theorem WidthsOk.setSs {s t : CPUI386} (h : WidthsOk s) {d : Segment} (hc : t.code16 = s.code16)
    (hseg : t.seg = (s.setSeg .ss d).seg) (hm : t.spMask = d.spMask) : WidthsOk t where
  code16 := by rw [hc, hseg, setSeg_other _ _ (by decide), h.code16]
  spMask := by
    rw [hm, hseg, setSeg_same]
    rfl

theorem WidthsOk.setSeg {s t : CPUI386} (h : WidthsOk s) {r : SegReg} {d : Segment}
    (hr : r ≠ .cs ∧ r ≠ .ss) (ht : t = s.setSeg r d) : WidthsOk t := by
  subst ht
  exact h.of_eq rfl rfl (setSeg_other _ _ hr.1.symm) (setSeg_other _ _ hr.2.symm)

theorem real_big (sel : Word) : hasBit (Segment.real sel).flags segBig = false := by
  change hasBit 0 segBig = false
  decide

theorem WidthsOk.loadReal {s : CPUI386} (h : WidthsOk s) (r : SegReg) (sel : Word) :
    WidthsOk (s.loadReal r sel) := by
  cases r with
  | cs => exact h.setCs rfl rfl (by rw [real_big]; rfl)
  | ss => exact h.setSs rfl rfl (by rw [Segment.spMask, real_big]; rfl)
  | es => exact h.setSeg (by decide) rfl
  | ds => exact h.setSeg (by decide) rfl
  | fs => exact h.setSeg (by decide) rfl
  | gs => exact h.setSeg (by decide) rfl
  | ldt => exact h.setSeg (by decide) rfl
  | tr => exact h.setSeg (by decide) rfl

theorem WidthsOk.loadDesc {s : CPUI386} (h : WidthsOk s) (r : SegReg) (sel w1 w2 : Word) :
    WidthsOk (s.loadDesc r sel w1 w2) := by
  cases r with
  | cs => exact h.setCs rfl rfl rfl
  | ss => exact h.setSs rfl rfl rfl
  | es => exact h.setSeg (by decide) rfl
  | ds => exact h.setSeg (by decide) rfl
  | fs => exact h.setSeg (by decide) rfl
  | gs => exact h.setSeg (by decide) rfl
  | ldt => exact h.setSeg (by decide) rfl
  | tr => exact h.setSeg (by decide) rfl

theorem loadReal_flags (s : CPUI386) (r : SegReg) (sel : Word) :
    (s.loadReal r sel).flags = s.flags := by cases r <;> rfl

theorem loadDesc_flags (s : CPUI386) (r : SegReg) (sel w1 w2 : Word) :
    (s.loadDesc r sel w1 w2).flags = s.flags := by cases r <;> rfl

theorem kept_setSeg (r : SegReg) (sel : Word) : Stays (Carries (Kept vm)) (setSeg r sel) := by
  intro s
  refine wp_mono (setSeg_spec r sel s) ?_ ?_ (fun _ _ => trivial)
  · rintro _ t ⟨u, hu, ⟨rfl, -⟩ | ⟨w1, w2, rfl, -⟩⟩ hk
    · have hku := hk.congr hu.sameMode
      exact ⟨hku.widths.loadReal r _, fun hv => by rw [loadReal_flags]; exact hku.off hv⟩
    · have hku := hk.congr hu.sameMode
      exact ⟨hku.widths.loadDesc r _ _ _, fun hv => by rw [loadDesc_flags]; exact hku.off hv⟩
  · rintro t ⟨ht, -⟩ hk
    exact hk.congr ht.sameMode

theorem refreshed_vm {s t : LazyFlags} (h : s.refreshFlags = some t) :
    hasBit t.flags VM = hasBit s.flags VM := by
  obtain ⟨cf, of, -, -, rfl⟩ := LazyFlags.refreshFlags_some h
  have hr := LazyFlags.storeFlags_rest s.flags cf s.getPF s.getAF s.getZF s.getSF of
  have hv := congrArg (fun x : Word => x &&& VM) hr
  have hm : ∀ x : Word, x &&& ~~~LazyFlags.arithMask &&& VM = x &&& VM := by
    intro x
    rw [BitVec.and_assoc]
    rfl
  simp only [hm] at hv
  unfold hasBit
  rw [hv]

theorem sameMode_refreshFlags : Stays SameMode refreshFlags := by
  intro s
  unfold refreshFlags
  rw [wp_bind, wp_get]
  cases hf : s.toLazyFlags.refreshFlags with
  | none => trivial
  | some f => exact ⟨rfl, rfl, rfl, rfl, refreshed_vm hf, rfl⟩

theorem sameMode_setFlags {f : Word → Word} (h : ∀ x, hasBit (f x) VM = hasBit x VM) :
    Stays SameMode (setFlags f) :=
  stays_modify fun s => ⟨rfl, rfl, rfl, rfl, h s.flags, rfl⟩

theorem sameMode_rest {g : CPUI386 → CPUI386} (h : ∀ s, SameMode s (g s)) :
    Stays SameMode (modify g : M Unit) := stays_modify h

theorem sameMode_setSp (v mask : Word) : Stays SameMode (setSp v mask) :=
  sameMode_rest fun _ => ⟨rfl, rfl, rfl, rfl, rfl, rfl⟩

theorem sameMode_sreg32 (i : Fin 8) (v : Word) : Stays SameMode (sreg32 i v) :=
  sameMode_rest fun _ => ⟨rfl, rfl, rfl, rfl, rfl, rfl⟩

theorem sameMode_dropMask : Stays SameMode dropMask :=
  sameMode_rest fun _ => ⟨rfl, rfl, rfl, rfl, rfl, rfl⟩

theorem sameMode_setNextIp (ip : Word) : Stays SameMode (setNextIp ip) :=
  sameMode_rest fun _ => ⟨rfl, rfl, rfl, rfl, rfl, rfl⟩

theorem sameMode_setIp (ip : Word) : Stays SameMode (setIp ip) :=
  sameMode_rest fun _ => ⟨rfl, rfl, rfl, rfl, rfl, rfl⟩

theorem sameMode_of_backstage (h : Stays Backstage x) : Stays SameMode x :=
  h.mono fun _ _ => Backstage.sameMode

theorem sameMode_storeSlots (w : Width) (ms : List OptAddr) (vs : List Word) :
    Stays SameMode (storeSlots w ms vs) :=
  sameMode_of_backstage (backstage_of (touches_storeSlots w ms vs))

theorem hasBit_and_other (x : Word) {m k : Word} (h : ~~~m &&& k = k) :
    hasBit (x &&& ~~~m) k = hasBit x k := by
  unfold hasBit
  rw [BitVec.and_assoc, h]

theorem kept_enterHandler (newcs newip : Word) (interrupt : Bool) :
    Stays (Carries (Kept vm)) (enterHandler newcs newip interrupt) := by
  refine stays_bind (kept_try1 (kept_setSeg _ _)) fun _ => ?_
  refine stays_bind (kept_of_sameMode (sameMode_setIp _)) fun _ => ?_
  refine stays_bind (kept_of_sameMode (sameMode_setFlags fun x => ?_)) fun _ => ?_
  · exact hasBit_and_other x (by decide)
  · refine stays_onlyIf (kept_of_sameMode (sameMode_setFlags fun x => ?_))
    exact hasBit_and_other x (by decide)

theorem sameMode_isrSame (w : Width) (pusherr : Bool) : Stays SameMode (isrSame w pusherr) := by
  refine stays_get fun s => ?_
  refine stays_bind (sameMode_of_backstage (backstage_slotsBelow _ _ _ _ _)) fun slots => ?_
  refine stays_bind (sameMode_of_backstage (backstage_slotsBelow _ _ _ _ _)) fun err => ?_
  refine stays_bind sameMode_refreshFlags fun _ => stays_bind sameMode_dropMask fun _ => ?_
  refine stays_get fun s => stays_bind (sameMode_storeSlots _ _ _) fun _ => ?_
  exact stays_bind (sameMode_storeSlots _ _ _) fun _ => sameMode_setSp _ _

theorem sameMode_pushInnerFrame (w : Width) (pusherr : Bool) (oldss oldsp : Word) :
    Stays SameMode (pushInnerFrame w pusherr oldss oldsp) := by
  refine stays_get fun s => ?_
  refine stays_bind (sameMode_of_backstage (backstage_slotsBelow _ _ _ _ _)) fun slots => ?_
  refine stays_bind (sameMode_of_backstage (backstage_slotsBelow _ _ _ _ _)) fun err => ?_
  refine stays_bind (sameMode_storeSlots _ _ _) fun _ => ?_
  refine stays_bind sameMode_refreshFlags fun _ => stays_bind sameMode_dropMask fun _ => ?_
  refine stays_get fun s => stays_bind (sameMode_storeSlots _ _ _) fun _ => ?_
  refine stays_bind (sameMode_storeSlots _ _ _) fun _ => ?_
  cases w with
  | b8 => exact sameMode_sreg32 _ _
  | b16 => exact sameMode_setSp _ _
  | b32 => exact sameMode_sreg32 _ _

theorem sameMode_pushV86Frame (pusherr : Bool) (oldss oldsp : Word) :
    Stays SameMode (pushV86Frame pusherr oldss oldsp) := by
  refine stays_get fun s => ?_
  refine stays_bind (keeps_try1 (sameMode_of_backstage (backstage_slotsBelow _ _ _ _ _))).stays
    fun slots => ?_
  refine stays_bind (sameMode_of_backstage (backstage_slotsBelow _ _ _ _ _)) fun err => ?_
  refine stays_bind (sameMode_storeSlots _ _ _) fun _ => ?_
  refine stays_bind sameMode_refreshFlags fun _ => stays_bind sameMode_dropMask fun _ => ?_
  refine stays_get fun s => stays_bind (sameMode_storeSlots _ _ _) fun _ => ?_
  exact stays_bind (sameMode_storeSlots _ _ _) fun _ => sameMode_setSp _ _

theorem kept_isrInner (w : Width) (pusherr : Bool) (pl : Nat) :
    Stays (Carries (Kept vm)) (isrInner w pusherr pl) := by
  refine stays_get fun s => stays_bind (kept_of_backstage (backstage_innerStack _)) fun new => ?_
  refine stays_bind (kept_of_sameMode (sameMode_sreg32 _ _)) fun _ => ?_
  refine stays_bind (kept_setSeg _ _) fun _ => ?_
  exact kept_of_sameMode (sameMode_pushInnerFrame _ _ _ _)

theorem kept_isrReal (no : Byte) : Stays (Carries (Kept vm)) (isrReal no) := by
  refine stays_get fun s => ?_
  refine stays_bind (kept_try1 (kept_of_backstage (backstage_translateLaddr _ _ _ _))) fun _ => ?_
  refine stays_bind (kept_of_backstage (backstage_load32 _)) fun w1 => ?_
  refine stays_bind (kept_try1 (kept_of_backstage (backstage_slotsBelow _ _ _ _ _))) fun slots => ?_
  refine stays_bind (kept_of_sameMode sameMode_refreshFlags) fun _ => ?_
  refine stays_bind (kept_of_sameMode sameMode_dropMask) fun _ => stays_get fun s => ?_
  refine stays_bind (kept_of_sameMode (sameMode_storeSlots _ _ _)) fun _ => ?_
  refine stays_bind (kept_of_sameMode (sameMode_sreg32 _ _)) fun _ => ?_
  refine stays_bind (kept_try1 (kept_setSeg _ _)) fun _ => ?_
  refine stays_bind (kept_of_sameMode (sameMode_setIp _)) fun _ => ?_
  exact kept_of_sameMode (sameMode_setFlags fun x => hasBit_and_other x (by decide))

theorem backstage_storeTss (off val : Word) : Stays Backstage (storeTss off val) :=
  stays_bind (keeps_try1 (backstage_translate _ _ _ _ _)).stays fun _ =>
    backstage_of (touches_store32 _ _)

theorem backstage_loadTss (off : Word) : Stays Backstage (loadTss off) :=
  stays_bind (keeps_try1 (backstage_translate _ _ _ _ _)).stays fun _ => backstage_load32 _

theorem backstage_saveGprs (is : List (Fin 8)) : Stays Backstage (saveGprs is) := by
  induction is with
  | nil => exact stays_pure _
  | cons i is ih => exact stays_get fun s => stays_bind (backstage_storeTss _ _) fun _ => ih

theorem backstage_saveSegs (rs : List SegReg) : Stays Backstage (saveSegs rs) := by
  induction rs with
  | nil => exact stays_pure _
  | cons r rs ih => exact stays_get fun s => stays_bind (backstage_storeTss _ _) fun _ => ih

theorem backstage_updateBusy (sel : Word) (f : Word → Word) : Stays Backstage (updateBusy sel f) := by
  refine stays_get fun s => ?_
  refine stays_bind (keeps_try1 (backstage_translateLaddr _ _ _ _)).stays fun _ => ?_
  exact stays_bind (backstage_load32 _) fun _ => backstage_of (touches_store32 _ _)

theorem sameMode_saveTask (kind : SwitchType) : Stays SameMode (saveTask kind) := by
  refine stays_get fun s => stays_bind (sameMode_of_backstage (backstage_storeTss _ _)) fun _ => ?_
  refine stays_bind sameMode_refreshFlags fun _ => stays_get fun s => ?_
  refine stays_bind (sameMode_of_backstage (backstage_storeTss _ _)) fun _ => ?_
  refine stays_bind (sameMode_of_backstage (backstage_saveGprs _)) fun _ => ?_
  exact sameMode_of_backstage (backstage_saveSegs _)

theorem sameMode_loadGprs (is : List (Fin 8)) : Stays SameMode (loadGprs is) := by
  induction is with
  | nil => exact stays_pure _
  | cons i is ih =>
    refine stays_bind (sameMode_of_backstage (backstage_loadTss _)) fun _ => ?_
    exact stays_bind (sameMode_sreg32 _ _) fun _ => ih

theorem kept_loadSegs (rs : List SegReg) : Stays (Carries (Kept vm)) (loadSegs rs) := by
  induction rs with
  | nil => exact stays_pure _
  | cons r rs ih =>
    refine stays_bind (kept_of_backstage (backstage_loadTss _)) fun _ => ?_
    exact stays_bind (kept_try1 (kept_setSeg _ _)) fun _ => ih

theorem kept_loadTask : Stays (Carries (Kept vm)) loadTask := by
  refine stays_bind (kept_of_backstage (backstage_loadTss _)) fun _ => ?_
  refine stays_bind (kept_try1 (kept_setSeg _ _)) fun _ => ?_
  refine stays_bind (kept_of_sameMode (sameMode_loadGprs _)) fun _ => ?_
  refine stays_bind (kept_loadSegs _) fun _ => ?_
  refine stays_bind (kept_of_backstage (backstage_loadTss _)) fun _ => ?_
  exact kept_of_sameMode (sameMode_setNextIp _)

theorem sameMode_assertThat (c : Prop) [Decidable c] : Stays SameMode (assertThat c) :=
  stays_onlyIf (stays_stop _)

theorem hasBit_or_other (x : Word) {m k : Word} (h : m &&& k = 0) :
    hasBit (x ||| m) k = hasBit x k := by
  unfold hasBit
  have hd : (x ||| m) &&& k = x &&& k := by
    apply BitVec.eq_of_getLsbD_eq
    intro i hi
    have hm : (m &&& k).getLsbD i = false := by
      rw [h]
      exact BitVec.getLsbD_zero
    rw [BitVec.getLsbD_and] at hm
    rw [BitVec.getLsbD_and, BitVec.getLsbD_and, BitVec.getLsbD_or, Bool.and_or_distrib_right, hm,
      Bool.or_false]
  rw [hd]

theorem kept_beginSwitch (tss : Word) (kind : SwitchType) :
    Stays (Carries (Kept vm)) (beginSwitch tss kind) := by
  refine stays_get fun s => ?_
  refine stays_bind (kept_of_sameMode (sameMode_assertThat _)) fun _ => ?_
  refine stays_bind (kept_of_sameMode (sameMode_saveTask _)) fun _ => ?_
  refine stays_bind (stays_get fun s => stays_onlyIf ?_) fun _ => ?_
  · exact kept_of_backstage (backstage_updateBusy _ _)
  refine stays_bind (kept_try1 (kept_setSeg _ _)) fun _ => stays_get fun s => ?_
  refine stays_bind (kept_of_sameMode (sameMode_assertThat _)) fun _ => ?_
  refine stays_bind (stays_onlyIf ?_) fun _ => ?_
  · refine stays_bind (kept_of_backstage (backstage_updateBusy _ _)) fun _ => ?_
    exact stays_modify fun s hk => ⟨hk.widths.setSeg (by decide) rfl, hk.off⟩
  refine stays_bind (kept_of_sameMode (sameMode_rest fun s => ?_)) fun _ => kept_loadTask
  exact ⟨rfl, rfl, rfl, rfl, rfl, hasBit_or_other s.cr0 (by decide)⟩

theorem sameMode_finishSwitch (kind : SwitchType) (oldtss : Word) :
    Stays SameMode (finishSwitch kind oldtss) := by
  refine stays_bind (stays_onlyIf ?_) fun _ => ?_
  · refine stays_bind (sameMode_of_backstage (backstage_storeTss _ _)) fun _ => ?_
    exact sameMode_setFlags fun x => hasBit_or_other x (by decide)
  · refine stays_bind (sameMode_of_backstage (backstage_loadTss _)) fun _ => ?_
    exact sameMode_rest fun _ => ⟨rfl, rfl, rfl, rfl, rfl, rfl⟩

end Kept

/-- The EFLAGS of the task switched to has VM clear: the value read from its TSS. -/
def NotV86Task (tss : Word) (kind : SwitchType) (s : CPUI386) : Prop :=
  ∀ t, beginSwitch tss kind s = .ok () t → ∀ v u, loadTss 0x24 t = .ok v u → hasBit v VM = false

theorem hasBit_false_iff {x m : Word} : hasBit x m = false ↔ x &&& m = 0 := by
  simp [hasBit]

theorem taskFlags_vm {v m : Word} (h : hasBit v VM = false) :
    hasBit ((v &&& m) ||| 0x2) VM = false := by
  rw [hasBit_false_iff] at h
  rw [hasBit_or_other _ (by decide), hasBit_false_iff, BitVec.and_assoc, BitVec.and_comm m,
    ← BitVec.and_assoc, h]
  exact BitVec.zero_and

/-- A switch to a task that is not a V86 task keeps the mode right. -/
theorem taskSwitch_modeOk {tss : Word} {kind : SwitchType} {s : CPUI386} (hs : ModeOk s)
    (ht : NotV86Task tss kind s) :
    wp (taskSwitch tss kind) (fun _ t => ModeOk t) ModeOk (fun _ => True) s := by
  unfold taskSwitch
  rw [wp_bind, wp_get, wp_bind]
  refine wp_neverFaults (neverFaults_beginSwitch _ _) fun a t hx => ?_
  have hb : Stays (Carries (Kept False)) (beginSwitch tss kind) := kept_beginSwitch tss kind
  have hkt : Kept False t := hb.ok hx ⟨hs.widths, fun h => h.elim⟩
  rw [wp_bind]
  refine wp_neverFaults (neverFaults_loadTss _) fun v u hl => ?_
  have hku := hkt.congr ((backstage_loadTss _).ok hl).sameMode
  rw [wp_bind, loadTaskFlags, wp_modify]
  have hfl : Kept True { u with flags := (v &&& u.eflagsMask) ||| 0x2 } :=
    ⟨hku.widths.of_eq rfl rfl rfl rfl, fun _ => taskFlags_vm (ht t hx v u hl)⟩
  refine wp_mono (sameMode_finishSwitch kind (s.seg .tr).sel _) ?_ ?_ (fun _ h => h)
  · exact fun _ w hw => (hfl.congr hw).modeOk
  · exact fun w hw => (hfl.congr hw).modeOk

end Winspire.Cpu
