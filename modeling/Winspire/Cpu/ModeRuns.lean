import Winspire.Cpu.FetchRuns
import Winspire.Cpu.ModeInsns
import Winspire.Cpu.TlbRuns

/-!
# The mode along runs

From a reset, whatever the instructions and interrupts, what is cached of the mode is right as long
as no task switch leads to a V86 task.
-/

namespace Winspire.Cpu

open Faulting

set_option autoImplicit false

/-- `pmcall` switches to the task `tss`, in `u`. -/
def CallSwitches (sel : Word) (s : CPUI386) (tss : Word) (u : CPUI386) : Prop :=
  sel &&& 0xffff &&& ~~~3 ≠ 0 ∧ ∃ w, readDesc (sel &&& 0xffff) s = .ok w u ∧
    descPresent w.2 = true ∧ descSeg w.2 = false ∧
    ¬ (descDpl w.2 < u.cpl ∨ descDpl w.2 < (sel &&& 0xffff &&& 3).toNat) ∧
    isTss32 (u.seg .tr).flags = true ∧
    ((w.2 >>> 8) &&& 0xf = 9 ∧ tss = sel &&& 0xffff ∨
      (w.2 >>> 8) &&& 0xf = 5 ∧ tss = w.1 >>> 16)

def FarSwitches (opsz16 : Bool) (ptr : FarPtr) (s : CPUI386) (tss : Word) (u : CPUI386) : Prop :=
  ∃ p t, ptr.load opsz16 s = .ok p t ∧ t.inProtected ∧ CallSwitches p.2 t tss u

/-- IRET returns to the task in the back link. -/
def ReturnSwitches (s : CPUI386) (tss : Word) (u : CPUI386) : Prop :=
  s.inProtected ∧ hasBit s.flags NT = true ∧ ∃ m t b, translate 1 .tr 0 2 0 s = .ok m t ∧
    load16 m t = .ok b u ∧ b ≠ 0 ∧ tss = b.setWidth 32

/-- An interrupt goes through a task gate. -/
def IsrSwitches (no : Byte) (ext : Word) (s : CPUI386) (tss : Word) (u : CPUI386) : Prop :=
  hasBit s.cr0 1 = true ∧ ∃ w, isrReadGate no ext s = .ok w u ∧ (w.2 >>> 8) &&& 0xf = 5 ∧
    tss = w.1 >>> 16

theorem modeAfter_pmcall {s : CPUI386} (hk : Kept True s) (opsz16 : Bool) (addr sel : Word)
    {isjmp : Bool} (h : ∀ tss u, CallSwitches sel s tss u →
      NotV86Task tss (if isjmp then .jmp else .call) u) :
    ModeAfter (pmcall opsz16 addr sel isjmp) s := by
  unfold pmcall
  refine modeAfter_guard hk.modeOk fun hsel => ?_
  refine modeAfter_bind (sameMode_of_backstage (backstage_readDesc _)) hk.modeOk fun w t hw ht => ?_
  have hkt := hk.congr ht
  refine modeAfter_guard hkt.modeOk fun hp => modeAfter_ite ?_ ?_
  · exact fun _ => hkt.after (kept_pmcallSegment _ _ _ _ _)
  · intro hseg
    refine modeAfter_guard hkt.modeOk fun hdpl => ?_
    have hreach : ∀ tss, _ → CallSwitches sel s tss t := fun tss hc =>
      ⟨hsel, w, hw, not_not.mp hp, Bool.eq_false_iff.mpr hseg, hdpl, hc⟩
    refine modeAfter_ite (fun hc => ?_) fun _ => modeAfter_ite (fun hc => ?_) fun _ => ?_
    · exact taskSwitch_modeOk hkt.modeOk (h _ _ (hreach _ ⟨hc.1, Or.inl ⟨hc.2, rfl⟩⟩))
    · exact taskSwitch_modeOk hkt.modeOk (h _ _ (hreach _ ⟨hc.1, Or.inr ⟨hc.2, rfl⟩⟩))
    · exact modeAfter_ite (fun _ => trivial) fun _ => hkt.after (kept_pmcallGate _ _ _)

theorem kept_setIretFlags {isiret : Bool} {newflags : Word}
    (h : isiret = true → hasBit newflags VM = false) :
    Stays (Carries (Kept True)) (setIretFlags isiret newflags) := by
  intro s
  unfold setIretFlags
  refine wp_onlyIf ?_ (fun _ hk => hk)
  intro hi hk
  exact ⟨hk.widths.of_eq rfl rfl rfl rfl, fun _ => h hi⟩

theorem kept_pmretSame (w : Width) (sp spMask off : Word) {isiret : Bool} (fr : ReturnFrame)
    {newflags : Word} (h : isiret = true → hasBit newflags VM = false) :
    Stays (Carries (Kept True)) (pmretSame w sp spMask off isiret fr newflags) := by
  refine stays_bind (kept_of_backstage (backstage_pmiretCheckCsSame _)) fun _ => ?_
  refine stays_bind (kept_setIretFlags h) fun _ => ?_
  refine stays_bind (kept_try1 (kept_setSeg _ _)) fun _ => ?_
  exact kept_of_sameMode (stays_bind (sameMode_setSp _ _) fun _ => sameMode_setNextIp _)

theorem clearSegs_kept {s : CPUI386} (h : Kept True s) : Kept True s.clearSegs :=
  ⟨h.widths.of_eq rfl rfl rfl rfl, h.off⟩

theorem kept_pmretOuter (w : Width) (sp spMask off : Word) {isiret : Bool} (fr : ReturnFrame)
    {newflags : Word} (h : isiret = true → hasBit newflags VM = false) :
    Stays (Carries (Kept True)) (pmretOuter w sp spMask off isiret fr newflags) := by
  refine stays_bind (kept_of_backstage (backstage_pmiretCheckCsOuter _)) fun _ => ?_
  refine stays_bind (kept_of_backstage (backstage_stackAt _ _ _ _)) fun meml4 => ?_
  refine stays_bind (kept_of_backstage (backstage_stackAt _ _ _ _)) fun meml5 => ?_
  refine stays_bind (kept_of_backstage (backstage_loadW _ _)) fun newsp => ?_
  refine stays_bind (kept_of_backstage (backstage_loadW _ _)) fun newss => ?_
  refine stays_bind (kept_setIretFlags h) fun _ => ?_
  refine stays_bind (kept_try1 (kept_setSeg _ _)) fun _ => ?_
  refine stays_bind (kept_try1 (kept_setSeg _ _)) fun _ => stays_get fun t => ?_
  refine stays_bind (kept_of_sameMode (sameMode_setSp _ _)) fun _ => ?_
  refine stays_bind (kept_of_sameMode (sameMode_setNextIp _)) fun _ => ?_
  exact stays_modify fun _ => clearSegs_kept

theorem kept_pmretProtected (w : Width) (sp spMask off : Word) {isiret : Bool} (fr : ReturnFrame)
    {newflags : Word} (h : isiret = true → hasBit newflags VM = false) :
    Stays (Carries (Kept True)) (pmretProtected w sp spMask off isiret fr newflags) := by
  refine stays_get fun s => stays_bind (kept_check _ _ _) fun _ => stays_ite ?_ ?_
  · exact kept_pmretSame _ _ _ _ _ h
  · exact kept_pmretOuter _ _ _ _ _ h

/-- V86 mode is on and the segments `done` are loaded for it. -/
structure Entering (done : List SegReg) (s : CPUI386) : Prop where
  widths : WidthsOk s
  protected_ : hasBit s.cr0 1 = true
  vm : hasBit s.flags VM = true
  cs : .cs ∈ done → s.cpl = 3 ∧ s.code16 = true
  ss : .ss ∈ done → s.spMask = 0xffff
  base : ∀ r ∈ done, (s.seg r).base.toNat = (s.seg r).sel.toNat * 16

theorem Entering.congr {done : List SegReg} {s t : CPUI386} (h : Entering done s)
    (hm : SameMode s t) : Entering done t where
  widths := h.widths.congr hm
  protected_ := hm.pe.trans h.protected_
  vm := hm.vm.trans h.vm
  cs hd := by rw [hm.cpl, hm.code16]; exact h.cs hd
  ss hd := by rw [hm.spMask]; exact h.ss hd
  base r hr := by rw [hm.seg]; exact h.base r hr

theorem Entering.modeOk {done : List SegReg} {s : CPUI386} (h : Entering done s)
    (hall : ∀ r ∈ tssSegs, r ∈ done) : ModeOk s where
  widths := h.widths
  v86 _ := ⟨h.protected_, (h.cs (hall _ (by decide))).1, (h.cs (hall _ (by decide))).2,
    h.ss (hall _ (by decide)), fun r hr => h.base r (hall r hr)⟩

theorem Entering.loadReal {done : List SegReg} {s : CPUI386} (h : Entering done s) (r : SegReg)
    {sel : Word} (hsel : sel.toNat ≤ 0xffff) : Entering (r :: done) (s.loadReal r sel) where
  widths := h.widths.loadReal r sel
  protected_ := by cases r <;> exact h.protected_
  vm := by rw [loadReal_flags]; exact h.vm
  cs hd := by
    cases r with
    | cs => exact ⟨if_pos h.vm, rfl⟩
    | ss => exact h.cs (List.mem_of_ne_of_mem (by decide) hd)
    | es => exact h.cs (List.mem_of_ne_of_mem (by decide) hd)
    | ds => exact h.cs (List.mem_of_ne_of_mem (by decide) hd)
    | fs => exact h.cs (List.mem_of_ne_of_mem (by decide) hd)
    | gs => exact h.cs (List.mem_of_ne_of_mem (by decide) hd)
    | ldt => exact h.cs (List.mem_of_ne_of_mem (by decide) hd)
    | tr => exact h.cs (List.mem_of_ne_of_mem (by decide) hd)
  ss hd := by
    cases r with
    | ss => rfl
    | cs => exact h.ss (List.mem_of_ne_of_mem (by decide) hd)
    | es => exact h.ss (List.mem_of_ne_of_mem (by decide) hd)
    | ds => exact h.ss (List.mem_of_ne_of_mem (by decide) hd)
    | fs => exact h.ss (List.mem_of_ne_of_mem (by decide) hd)
    | gs => exact h.ss (List.mem_of_ne_of_mem (by decide) hd)
    | ldt => exact h.ss (List.mem_of_ne_of_mem (by decide) hd)
    | tr => exact h.ss (List.mem_of_ne_of_mem (by decide) hd)
  base r' hr' := by
    rw [loadReal_seg]
    by_cases he : r' = r
    · subst he
      rw [setSeg_same]
      exact real_base hsel
    · rw [setSeg_other _ _ he]
      exact h.base r' (List.mem_of_ne_of_mem he hr')

/-- What is left to do once `done` are loaded. -/
def EntersV86 (done : List SegReg) (x : M Unit) : Prop :=
  ∀ s, Entering done s → wp x (fun _ t => ModeOk t) (fun _ => False) (fun _ => True) s

section Entering

variable {done : List SegReg}

theorem entersV86_seg (r : SegReg) (sel : Word) {k : Unit → M Unit}
    (hk : ∀ a, EntersV86 (r :: done) (k a)) : EntersV86 done (setSeg r sel >>= k) := by
  intro s hs
  rw [wp_bind]
  refine wp_mono (setSeg_spec r sel s) ?_ (fun t ht => ht.2.2 hs.vm) fun _ _ => trivial
  rintro a t ⟨u, hu, ⟨rfl, -⟩ | ⟨w1, w2, rfl, -, hv⟩⟩
  · exact hk a _ ((hs.congr hu.sameMode).loadReal r (low16_le sel))
  · exact absurd hs.vm hv

theorem entersV86_try1 {x : M Unit} {k : Unit → M Unit} (h : EntersV86 done (x >>= k)) :
    EntersV86 done (try1 x >>= k) := by
  intro s hs
  have hx := h s hs
  rw [wp_bind] at hx ⊢
  refine wp_catchFault (wp_mono hx (fun _ _ h => h) (fun _ h => h.elim) fun _ h => h)

theorem entersV86_rest {α : Type} {x : M α} {k : α → M Unit} (hx : Keeps SameMode x)
    (hk : ∀ a, EntersV86 done (k a)) : EntersV86 done (x >>= k) := by
  intro s hs
  rw [wp_bind]
  exact wp_mono (hx s) (fun a t ht => hk a t (hs.congr ht)) (fun _ h => h) fun _ _ => trivial

theorem keeps_load32 (m : OptAddr) : Keeps SameMode (load32 m) :=
  (touches_load32 m).mono fun _ _ h => h.backstage.sameMode

theorem keeps_sp (v mask : Word) : Keeps SameMode (setSp v mask) :=
  keeps_modify fun _ => ⟨rfl, rfl, rfl, rfl, rfl, rfl⟩

theorem keeps_nextIp (ip : Word) : Keeps SameMode (setNextIp ip) :=
  keeps_modify fun _ => ⟨rfl, rfl, rfl, rfl, rfl, rfl⟩

end Entering

/-- Protected mode, with V86 mode off. -/
structure InRings (s : CPUI386) : Prop where
  kept : Kept True s
  pe : hasBit s.cr0 1 = true

theorem InRings.congr {s t : CPUI386} (h : InRings s) (hm : SameMode s t) : InRings t :=
  ⟨h.kept.congr hm, hm.pe.trans h.pe⟩

theorem modeAfter_rings {α : Type} {x : M α} {k : α → M Unit} {s : CPUI386}
    (hx : Stays SameMode x) (hs : InRings s) (hk : ∀ a t, InRings t → ModeAfter (k a) t) :
    ModeAfter (x >>= k) s :=
  modeAfter_bind hx hs.kept.modeOk fun a t _ ht => hk a t (hs.congr ht)

theorem sameMode_stackAt (w : Width) (sp off spMask : Word) :
    Stays SameMode (stackAt w sp off spMask) :=
  sameMode_of_backstage (backstage_stackAt _ _ _ _)

theorem sameMode_abort (c : Prop) [Decidable c] : Stays SameMode (onlyIf c (stop Stop.aborted) : M Unit) :=
  stays_onlyIf (stays_stop _)

theorem modeAfter_setV86 {newflags : Word} (hvm : hasBit newflags VM = true) {k : Unit → M Unit}
    {s : CPUI386} (hs : InRings s) (hk : ∀ a, EntersV86 [] (k a)) :
    ModeAfter ((setFlags fun _ => newflags) >>= k) s := by
  have he : Entering [] { s with flags := newflags } :=
    ⟨hs.kept.widths.of_eq rfl rfl rfl rfl, hs.pe, hvm, fun h => absurd h List.not_mem_nil,
      fun h => absurd h List.not_mem_nil, fun _ h => absurd h List.not_mem_nil⟩
  exact wp_mono (hk () _ he) (fun _ _ h => h) (fun _ h => h.elim) fun _ h => h

theorem modeAfter_pmretV86 (opsz16 : Bool) (sp spMask : Word) (fr : ReturnFrame) {newflags : Word}
    (hvm : hasBit newflags VM = true) {s : CPUI386} (hs : InRings s) :
    ModeAfter (pmretV86 opsz16 sp spMask fr newflags) s := by
  unfold pmretV86
  refine modeAfter_get (modeAfter_rings (sameMode_abort _) hs fun _ t ht => ?_)
  refine modeAfter_rings (sameMode_abort _) ht fun _ t ht => ?_
  refine modeAfter_rings (sameMode_stackAt _ _ _ _) ht fun meml4 t ht => ?_
  refine modeAfter_rings (sameMode_stackAt _ _ _ _) ht fun meml5 t ht => ?_
  refine modeAfter_rings (sameMode_stackAt _ _ _ _) ht fun vmes t ht => ?_
  refine modeAfter_rings (sameMode_stackAt _ _ _ _) ht fun vmds t ht => ?_
  refine modeAfter_rings (sameMode_stackAt _ _ _ _) ht fun vmfs t ht => ?_
  refine modeAfter_rings (sameMode_stackAt _ _ _ _) ht fun vmgs t ht => ?_
  refine modeAfter_setV86 hvm ht fun _ => entersV86_try1 (entersV86_seg _ _ fun _ => ?_)
  refine entersV86_rest (keeps_sp _ _) fun _ => entersV86_rest (keeps_nextIp _) fun _ => ?_
  refine entersV86_rest (keeps_load32 _) fun _ => entersV86_try1 (entersV86_seg _ _ fun _ => ?_)
  refine entersV86_rest (keeps_load32 _) fun _ => entersV86_try1 (entersV86_seg _ _ fun _ => ?_)
  refine entersV86_rest (keeps_load32 _) fun _ => entersV86_try1 (entersV86_seg _ _ fun _ => ?_)
  refine entersV86_rest (keeps_load32 _) fun _ => entersV86_try1 (entersV86_seg _ _ fun _ => ?_)
  refine entersV86_rest (keeps_load32 _) fun _ => entersV86_seg _ _ fun _ => ?_
  refine entersV86_rest (keeps_load32 _) fun _ u hu => ?_
  refine wp_mono (keeps_sp _ _ u) (fun _ t ht => ?_) (fun _ h => h) fun _ _ => trivial
  exact (hu.congr ht).modeOk (by decide)

theorem modeAfter_pmretSwitch (opsz16 : Bool) (off : Word) (isiret : Bool) {s : CPUI386}
    (hs : InRings s) : ModeAfter (pmretSwitch opsz16 off isiret) s := by
  unfold pmretSwitch
  refine modeAfter_get ?_
  refine modeAfter_rings (sameMode_of_backstage (backstage_popFrame _ _ _ _)) hs fun fr t ht => ?_
  refine modeAfter_ite (fun h => modeAfter_pmretV86 _ _ _ _ h.2 ht) fun h => ?_
  refine ht.kept.after (kept_pmretProtected _ _ _ _ _ fun hi => ?_)
  exact Bool.eq_false_iff.mpr fun hv => h ⟨hi, hv⟩

theorem modeAfter_pmretFrame (opsz16 : Bool) (off : Word) (isiret : Bool) {s : CPUI386}
    (hs : InRings s) : ModeAfter (pmretFrame opsz16 off isiret) s := by
  unfold pmretFrame ModeAfter
  refine wp_bind_mono (modeAfter_pmretSwitch opsz16 off isiret hs) fun _ t ht => ?_
  exact ht.after (stays_onlyIf (modeOk_of_sameMode sameMode_dropMask))

theorem modeAfter_pmretTask {s : CPUI386} (hs : InRings s)
    (h : ∀ tss u, (∃ m t b, translate 1 .tr 0 2 0 s = .ok m t ∧ load16 m t = .ok b u ∧ b ≠ 0 ∧
      tss = b.setWidth 32) → NotV86Task tss .iret u) : ModeAfter pmretTask s := by
  unfold pmretTask
  refine modeAfter_bind (sameMode_of_backstage (backstage_translate _ _ _ _ _)) hs.kept.modeOk
    fun m t hm ht => ?_
  refine modeAfter_bind (sameMode_of_backstage (backstage_load16 _)) (hs.congr ht).kept.modeOk
    fun b u hb hu => ?_
  have hmode := ((hs.congr ht).congr hu).kept.modeOk
  refine modeAfter_guard hmode fun hne => ?_
  exact taskSwitch_modeOk hmode (h _ u ⟨m, t, b, hm, hb, hne, rfl⟩)

theorem modeAfter_pmret {s : CPUI386} (hs : ModeOk s) (hpe : hasBit s.cr0 1 = true)
    (opsz16 : Bool) (off : Word) {isiret : Bool} (hoff : isiret = false → hasBit s.flags VM = false)
    (h : isiret = true → ∀ tss u, ReturnSwitches s tss u → NotV86Task tss .iret u) :
    ModeAfter (pmret opsz16 off isiret) s := by
  unfold pmret
  refine modeAfter_get (modeAfter_ite (fun hi => ?_) fun hi => ?_)
  · refine modeAfter_guard hs fun hv => ?_
    have hv := Bool.eq_false_iff.mpr hv
    have hr : InRings s := ⟨hs.kept hv, hpe⟩
    refine modeAfter_ite (fun hnt => ?_) fun _ => modeAfter_pmretFrame _ _ _ hr
    exact modeAfter_pmretTask hr fun tss u hu => h hi tss u ⟨⟨hpe, hv⟩, hnt, hu⟩
  · exact modeAfter_pmretFrame _ _ _ ⟨hs.kept (hoff (Bool.eq_false_iff.mpr hi)), hpe⟩

theorem callIsrCheckCs_off {sel ext : Word} {s t : CPUI386} {tgt : IsrTarget}
    (h : callIsrCheckCs sel ext s = .ok tgt t) (ht : tgt ≠ .fromV86) :
    hasBit s.flags VM = false := by
  have hw : wp (callIsrCheckCs sel ext)
      (fun a _ => a ≠ .fromV86 → hasBit s.flags VM = false) (fun _ => True) (fun _ => True) s := by
    unfold callIsrCheckCs
    rw [wp_bind, wp_get]
    refine wp_bind_mono (wp_true _ _) fun _ _ _ => ?_
    refine wp_bind_mono (wp_true _ _) fun _ _ _ => ?_
    refine wp_bind_mono (wp_true _ _) fun _ _ _ => ?_
    refine wp_bind_mono (wp_true _ _) fun _ _ _ => ?_
    refine wp_bind_mono (wp_true _ _) fun _ _ _ => ?_
    refine wp_ite (fun _ => wp_ite ?_ ?_) fun _ => ?_
    · intro hv _
      exact Bool.eq_false_iff.mpr hv
    · intro _
      exact wp_bind_mono (wp_true _ _) fun _ _ _ hne => absurd rfl hne
    · rw [wp_bind]
      refine wp_onlyIf (fun _ => trivial) fun hc _ => ?_
      exact Bool.eq_false_iff.mpr fun hv => hc (Or.inl hv)
  exact wp_ok hw h ht

theorem kept_v86Tail (newcs newip : Word) (interrupt : Bool) :
    Stays (Carries (Kept True)) (do
      try1 (setSeg .ds 0)
      try1 (setSeg .es 0)
      try1 (setSeg .fs 0)
      try1 (setSeg .gs 0)
      setFlags fun f => f &&& ~~~(TF ||| RF ||| NT)
      try1 (setSeg .cs newcs)
      setIp newip
      onlyIf interrupt (setFlags fun f => f &&& ~~~IF)) := by
  refine stays_bind (kept_try1 (kept_setSeg _ _)) fun _ => ?_
  refine stays_bind (kept_try1 (kept_setSeg _ _)) fun _ => ?_
  refine stays_bind (kept_try1 (kept_setSeg _ _)) fun _ => ?_
  refine stays_bind (kept_try1 (kept_setSeg _ _)) fun _ => ?_
  refine stays_bind (kept_of_sameMode (sameMode_setFlags fun x => ?_)) fun _ => ?_
  · exact hasBit_and_other x (by decide)
  refine stays_bind (kept_try1 (kept_setSeg _ _)) fun _ => ?_
  refine stays_bind (kept_of_sameMode (sameMode_setIp _)) fun _ => ?_
  exact stays_onlyIf (kept_of_sameMode (sameMode_setFlags fun x => hasBit_and_other x (by decide)))

/-- From V86 mode the stack of ring 0 is loaded with V86 mode off; where it is bad, the flags are put
back. -/
theorem modeAfter_isrFromV86 (pusherr : Bool) (newcs newip : Word) (interrupt : Bool) {s : CPUI386}
    (hs : ModeOk s) : ModeAfter (isrFromV86 pusherr newcs newip interrupt) s := by
  unfold isrFromV86
  refine modeAfter_get (modeAfter_bind (sameMode_abort _) hs fun _ t _ ht => ?_)
  refine modeAfter_bind (sameMode_of_backstage (backstage_innerStack 0)) (hs.congr ht)
    fun new u _ hu => ?_
  have hsu := trans_of SameMode ht hu
  have hoff : Kept True (u.leaveV86 new.2) :=
    ⟨(hs.congr hsu).widths.of_eq rfl rfl rfl rfl, fun _ => hasBit_and_not _ _⟩
  have hset : Stays (Carries (Kept True)) (setSeg .ss new.1) := kept_setSeg .ss new.1
  have hboth := wp_and (hset (u.leaveV86 new.2)) (setSeg_spec .ss new.1 (u.leaveV86 new.2))
  unfold ModeAfter
  refine wp_bind_ok rfl (wp_bind_ok rfl ?_)
  rw [wp_bind]
  refine wp_catchFault (wp_mono hboth ?_ ?_ fun _ _ => trivial)
  · rintro _ v ⟨hv, -⟩
    refine (hv hoff).after (stays_bind (kept_of_sameMode ?_) fun _ => kept_v86Tail _ _ _)
    exact sameMode_pushV86Frame _ _ _
  · rintro v ⟨-, hv, -⟩
    have hm := hv.sameMode
    exact hs.congr ⟨hm.seg.trans hsu.seg, hm.cpl.trans hsu.cpl, hm.code16.trans hsu.code16,
      hm.spMask.trans hsu.spMask, rfl, hm.pe.trans hsu.pe⟩

theorem modeAfter_isrGate (w1 w2 : Word) (pusherr : Bool) (ext : Word) {s : CPUI386}
    (hs : ModeOk s) : ModeAfter (isrGate w1 w2 pusherr ext) s := by
  unfold isrGate
  refine modeAfter_get ?_
  refine modeAfter_bind (sameMode_of_backstage (backstage_callIsrCheckCs _ _)) hs
    fun tgt t hc ht => ?_
  have hoff : tgt ≠ .fromV86 → Kept True t := fun hne => (hs.kept (callIsrCheckCs_off hc hne)).congr ht
  cases tgt with
  | same =>
    refine (hoff (by decide)).after ?_
    exact stays_bind (kept_of_sameMode (sameMode_isrSame _ _)) fun _ => kept_enterHandler _ _ _
  | inner newpl =>
    refine (hoff (fun h => nomatch h)).after ?_
    exact stays_bind (kept_isrInner _ _ _) fun _ => kept_enterHandler _ _ _
  | fromV86 =>
    refine modeAfter_bind (sameMode_abort _) (hs.congr ht) fun _ u _ hu => ?_
    exact modeAfter_isrFromV86 _ _ _ _ ((hs.congr ht).congr hu)

theorem modeAfter_callIsr {s : CPUI386} (hs : ModeOk s) (no : Byte) (pusherr : Bool) (ext : Word)
    (h : ∀ tss u, IsrSwitches no ext s tss u → NotV86Task tss .call u) :
    ModeAfter (callIsr no pusherr ext) s := by
  unfold callIsr
  refine modeAfter_get (modeAfter_ite (fun hpe => ?_) fun hpe => ?_)
  · have hoff : hasBit s.flags VM = false :=
      Bool.eq_false_iff.mpr fun hv => hpe (hs.v86 hv).protected_
    exact (hs.kept hoff).after (kept_isrReal no)
  · refine modeAfter_bind (sameMode_of_backstage (backstage_isrReadGate _ _)) hs fun w t hw ht => ?_
    refine modeAfter_ite (fun hg => ?_) fun _ => modeAfter_isrGate _ _ _ _ (hs.congr ht)
    exact taskSwitch_modeOk (hs.congr ht) (h _ t ⟨not_not.mp hpe, w, hw, hg, rfl⟩)

theorem modeAfter_far (opsz16 : Bool) (ptr : FarPtr) {s : CPUI386} (hs : ModeOk s)
    {isjmp : Bool} (h : ∀ tss u, FarSwitches opsz16 ptr s tss u →
      NotV86Task tss (if isjmp then .jmp else .call) u)
    {real : Word × Word → CPUI386 → M Unit} (hreal : ∀ p t, Stays (Carries ModeOk) (real p t)) :
    ModeAfter (do
      let p ← ptr.load opsz16
      let t ← get
      if t.inProtected then pmcall opsz16 p.1 p.2 isjmp else real p t) s := by
  refine modeAfter_bind (sameMode_of_backstage (backstage_farPtr _ _)) hs fun p t hp ht => ?_
  refine modeAfter_get (modeAfter_ite (fun hprot => ?_) fun _ => (hs.congr ht).after (hreal p t))
  exact modeAfter_pmcall ((hs.congr ht).kept hprot.2) _ _ _ fun tss u hu =>
    h tss u ⟨p, t, hp, hprot, hu⟩

theorem modeAfter_jmpFar {opsz16 : Bool} {ptr : FarPtr} {s : CPUI386} (hs : ModeOk s)
    (h : ∀ tss u, FarSwitches opsz16 ptr s tss u → NotV86Task tss .jmp u) :
    ModeAfter (jmpFar opsz16 ptr) s := by
  have hreal : ∀ (p : Word × Word) (_ : CPUI386),
      Stays (Carries ModeOk) (do setSeg .cs p.2; setNextIp p.1) := fun p _ =>
    stays_bind (modeOk_setSeg _ _) fun _ => modeOk_of_sameMode (sameMode_setNextIp _)
  exact @modeAfter_far opsz16 ptr s hs true h _ hreal

theorem modeAfter_callFar {opsz16 : Bool} {ptr : FarPtr} {s : CPUI386} (hs : ModeOk s)
    (h : ∀ tss u, FarSwitches opsz16 ptr s tss u → NotV86Task tss .call u) :
    ModeAfter (callFar opsz16 ptr) s := by
  have hreal : ∀ (p : Word × Word) (t : CPUI386), Stays (Carries ModeOk) (do
      let meml1 ← stackSlot (opWidth opsz16) 2 (lreg32 t 4 - (opWidth opsz16).size)
      let meml2 ← stackSlot (opWidth opsz16) 2 (lreg32 t 4 - 2 * (opWidth opsz16).size)
      setSp (lreg32 t 4 - 2 * (opWidth opsz16).size) t.spMask
      storeSlots (opWidth opsz16) [meml1, meml2] [(t.seg .cs).sel, t.nextIp]
      setSeg .cs p.2
      setNextIp p.1) := by
    intro p t
    refine stays_bind (modeOk_of_backstage (backstage_stackSlot _ _ _)) fun meml1 => ?_
    refine stays_bind (modeOk_of_backstage (backstage_stackSlot _ _ _)) fun meml2 => ?_
    refine stays_bind (modeOk_of_sameMode (sameMode_setSp _ _)) fun _ => ?_
    refine stays_bind (modeOk_of_sameMode (sameMode_storeSlots _ _ _)) fun _ => ?_
    exact stays_bind (modeOk_setSeg _ _) fun _ => modeOk_of_sameMode (sameMode_setNextIp _)
  exact @modeAfter_far opsz16 ptr s hs false h _ hreal

theorem modeAfter_retFar {s : CPUI386} (hs : ModeOk s) (opsz16 : Bool) (n : Word) :
    ModeAfter (retFar opsz16 n) s := by
  unfold retFar
  refine modeAfter_get (modeAfter_ite (fun hp => ?_) fun _ => hs.after ?_)
  · exact modeAfter_pmret hs hp.1 _ _ (fun _ => hp.2) fun h => nomatch h
  · refine stays_bind (modeOk_of_backstage (backstage_stackSlot _ _ _)) fun meml1 => ?_
    refine stays_bind (modeOk_of_backstage (backstage_loadW _ _)) fun newip => ?_
    refine stays_bind (modeOk_of_backstage (backstage_stackSlot _ _ _)) fun meml2 => ?_
    refine stays_bind (modeOk_of_backstage (backstage_loadW _ _)) fun newcs => ?_
    refine stays_bind (modeOk_setSeg _ _) fun _ => ?_
    exact modeOk_of_sameMode (stays_bind (sameMode_setSp _ _) fun _ => sameMode_setNextIp _)

theorem loadW16_vm {m : OptAddr} {s t : CPUI386} {v : Word} (h : loadW m .b16 s = .ok v t) :
    v.getLsbD 17 = false := by
  have hw : wp (loadW m .b16) (fun v _ => v.getLsbD 17 = false) (fun _ => True) (fun _ => True) s :=
    wp_bind_mono (wp_true _ _) fun x _ _ => by
      rw [wp_pure, BitVec.getLsbD_setWidth]
      simp
  have hv := wp_ok hw h
  exact hv

theorem iretRealFlags_vm (s : CPUI386) {image : Word} (h : image.getLsbD 17 = false) :
    hasBit (s.iretRealFlags image) VM = hasBit s.flags VM := by
  unfold CPUI386.iretRealFlags
  refine (implemented_vm s.gen _).trans ?_
  have hhigh : (0xffff0000 : Word).getLsbD 17 = true := rfl
  split
  · rw [hasBit_VM, hasBit_VM, BitVec.getLsbD_or, BitVec.getLsbD_and, BitVec.getLsbD_and,
      BitVec.getLsbD_or, hhigh, h]
    simp
  · rw [hasBit_VM, hasBit_VM, BitVec.getLsbD_or, BitVec.getLsbD_and, hhigh, h]
    simp

theorem modeAfter_iretReal {s : CPUI386} (hs : ModeOk s) (opsz16 : Bool) :
    ModeAfter (iretReal opsz16) s := by
  unfold iretReal
  refine modeAfter_get (modeAfter_bind (sameMode_abort _) hs fun _ t _ h1 => ?_)
  refine modeAfter_bind (sameMode_of_backstage (backstage_stackSlot _ _ _)) (hs.congr h1)
    fun meml1 t _ h2 => ?_
  replace h2 := trans_of SameMode h1 h2
  refine modeAfter_bind (sameMode_of_backstage (backstage_loadW _ _)) (hs.congr h2)
    fun newip t _ h3 => ?_
  replace h3 := trans_of SameMode h2 h3
  refine modeAfter_bind (sameMode_of_backstage (backstage_stackSlot _ _ _)) (hs.congr h3)
    fun meml2 t _ h4 => ?_
  replace h4 := trans_of SameMode h3 h4
  refine modeAfter_bind (sameMode_of_backstage (backstage_loadW _ _)) (hs.congr h4)
    fun newcs t _ h5 => ?_
  replace h5 := trans_of SameMode h4 h5
  refine modeAfter_bind (sameMode_of_backstage (backstage_stackSlot _ _ _)) (hs.congr h5)
    fun meml3 t _ h6 => ?_
  replace h6 := trans_of SameMode h5 h6
  refine modeAfter_bind (sameMode_of_backstage (backstage_loadW _ _)) (hs.congr h6)
    fun image t himage h7 => ?_
  replace h7 := trans_of SameMode h6 h7
  have hnew : SameMode s { t with flags := s.iretRealFlags image } :=
    ⟨h7.seg, h7.cpl, h7.code16, h7.spMask, iretRealFlags_vm s (loadW16_vm himage), h7.pe⟩
  have hset := wp_and (modeOk_setSeg .cs newcs { t with flags := s.iretRealFlags image })
    (setSeg_spec .cs newcs { t with flags := s.iretRealFlags image })
  unfold ModeAfter
  refine wp_bind_ok rfl ?_
  rw [wp_bind]
  refine wp_catchFault (wp_mono hset ?_ ?_ fun _ _ => trivial)
  · rintro _ u ⟨hu, -⟩
    refine (hu (hs.congr hnew)).after (modeOk_of_sameMode ?_)
    refine stays_bind sameMode_dropMask fun _ => ?_
    exact stays_bind (sameMode_setSp _ _) fun _ => sameMode_setNextIp _
  · rintro u ⟨-, hu, -⟩
    have hm := hu.sameMode
    exact hs.congr ⟨hm.seg.trans h7.seg, hm.cpl.trans h7.cpl, hm.code16.trans h7.code16,
      hm.spMask.trans h7.spMask, rfl, hm.pe.trans h7.pe⟩

theorem modeAfter_iret {s : CPUI386} (hs : ModeOk s) (opsz16 : Bool)
    (h : ∀ tss u, ReturnSwitches s tss u → NotV86Task tss .iret u) :
    ModeAfter (iret opsz16) s := by
  unfold iret
  refine modeAfter_get (modeAfter_ite (fun hc => ?_) fun _ => modeAfter_iretReal hs _)
  exact modeAfter_pmret hs hc.1 _ _ (fun h => nomatch h) fun _ => h

/-- The frame has the address behind INT, and a fault puts `ip` back. -/
theorem modeAfter_int {s : CPUI386} (hs : ModeOk s) (no : Byte)
    (h : ∀ tss u, IsrSwitches no 0 { s with ip := s.nextIp } tss u → NotV86Task tss .call u) :
    ModeAfter (int no) s := by
  unfold int
  refine modeAfter_get (modeAfter_guard hs fun _ => ?_)
  have hip : ModeOk { s with ip := s.nextIp } := hs.congr ⟨rfl, rfl, rfl, rfl, rfl, rfl⟩
  unfold ModeAfter
  refine wp_bind_ok rfl (wp_catchFault ?_)
  refine wp_mono (modeAfter_callIsr hip no false 0 h) (fun _ _ ht => ht) ?_ fun _ h => h
  exact fun t ht => ht.congr ⟨rfl, rfl, rfl, rfl, rfl, rfl⟩

/-- What the processor does that concerns the mode. -/
inductive ModeEvent where
  | insn (i : SysInsn)
  | interrupt (no : Byte) (pusherr : Bool) (ext : Word)
  deriving DecidableEq, Repr

def ModeEvent.exec : ModeEvent → M Unit
  | insn i => i.exec
  | interrupt no pusherr ext => callIsr no pusherr ext

/-- The event, in `s`, comes to `taskSwitch tss kind` in `u`. -/
def ModeEvent.Switches : ModeEvent → CPUI386 → Word → SwitchType → CPUI386 → Prop
  | insn (.jmpFar opsz16 ptr), s, tss, kind, u => kind = .jmp ∧ FarSwitches opsz16 ptr s tss u
  | insn (.callFar opsz16 ptr), s, tss, kind, u => kind = .call ∧ FarSwitches opsz16 ptr s tss u
  | insn (.iret _), s, tss, kind, u => kind = .iret ∧ ReturnSwitches s tss u
  | insn (.int no), s, tss, kind, u =>
    kind = .call ∧ IsrSwitches no 0 { s with ip := s.nextIp } tss u
  | insn _, _, _, _, _ => False
  | interrupt no _ ext, s, tss, kind, u => kind = .call ∧ IsrSwitches no ext s tss u

/-- The event does not switch to a V86 task. -/
def ModeEvent.AvoidsV86Task (e : ModeEvent) (s : CPUI386) : Prop :=
  ∀ tss kind u, e.Switches s tss kind u → NotV86Task tss kind u

/-- Runs from a reset, with events that meet `ok`. The other instructions neither load segments nor
change the mode. -/
inductive ModeRun (ok : ModeEvent → CPUI386 → Prop) : CPUI386 → Prop where
  | reset (s : CPUI386) : ModeRun ok s.reset
  | resetPm (s : CPUI386) (startAddr : Word) : ModeRun ok (s.resetPm startAddr)
  | event {s s' : CPUI386} (e : ModeEvent) (hr : ModeRun ok s) (hok : ok e s)
      (h : EndsIn e.exec s s') : ModeRun ok s'
  | other {s s' : CPUI386} (hr : ModeRun ok s) (h : SameMode s s') : ModeRun ok s'

theorem reset_modeOk (s : CPUI386) : ModeOk s.reset := by
  have hcs : hasBit (1 <<< 22) segBig = false := by decide
  have hss : ¬ hasBit (1 <<< 22) segBig = true := by decide
  have hvm : hasBit 0x2 VM = false := by decide
  exact Kept.modeOk ⟨⟨iff_of_true rfl hcs, (if_neg hss).symm⟩, fun _ => hvm⟩

theorem resetPm_modeOk (s : CPUI386) (startAddr : Word) : ModeOk (s.resetPm startAddr) := by
  have hcs : ¬ hasBit segBig segBig = false := by decide
  have hss : hasBit segBig segBig = true := by decide
  have hvm : hasBit 0x2 VM = false := by decide
  exact Kept.modeOk ⟨⟨iff_of_false Bool.false_ne_true hcs, (if_pos hss).symm⟩, fun _ => hvm⟩

theorem sameMode_lgdt (opsz16 : Bool) (currSeg : SegReg) (addr : Word) :
    Stays SameMode (SysInsn.lgdt opsz16 currSeg addr).exec :=
  @sameMode_loadTable opsz16 currSeg addr (fun s t => { s with gdt := t })
    fun _ _ => ⟨rfl, rfl, rfl, rfl, rfl, rfl⟩

theorem sameMode_lidt (opsz16 : Bool) (currSeg : SegReg) (addr : Word) :
    Stays SameMode (SysInsn.lidt opsz16 currSeg addr).exec :=
  @sameMode_loadTable opsz16 currSeg addr (fun s t => { s with idt := t })
    fun _ _ => ⟨rfl, rfl, rfl, rfl, rfl, rfl⟩

theorem modeAfter_insn {s : CPUI386} (hs : ModeOk s) (i : SysInsn)
    (h : (ModeEvent.insn i).AvoidsV86Task s) : ModeAfter i.exec s := by
  cases i with
  | movSeg a src => exact hs.after (carries_movSeg a src)
  | popSeg opsz16 seg => exact hs.after (carries_popSeg opsz16 seg)
  | lseg opsz16 seg reg currSeg addr => exact hs.after (carries_lseg opsz16 seg reg currSeg addr)
  | jmpFar opsz16 ptr => exact modeAfter_jmpFar hs fun tss u hu => h tss .jmp u ⟨rfl, hu⟩
  | callFar opsz16 ptr => exact modeAfter_callFar hs fun tss u hu => h tss .call u ⟨rfl, hu⟩
  | retFar opsz16 n => exact modeAfter_retFar hs opsz16 n
  | iret opsz16 => exact modeAfter_iret hs opsz16 fun tss u hu => h tss .iret u ⟨rfl, hu⟩
  | int no => exact modeAfter_int hs no fun tss u hu => h tss .call u ⟨rfl, hu⟩
  | popf opsz16 => exact hs.after (modeOk_of_sameMode (sameMode_popf opsz16))
  | cli => exact hs.after (modeOk_of_sameMode (sameMode_setIF false))
  | sti => exact hs.after (modeOk_of_sameMode (sameMode_setIF true))
  | lgdt opsz16 currSeg addr => exact hs.after (modeOk_of_sameMode (sameMode_lgdt opsz16 currSeg addr))
  | lidt opsz16 currSeg addr => exact hs.after (modeOk_of_sameMode (sameMode_lidt opsz16 currSeg addr))
  | lldt src => exact hs.after (carries_loadSystemSeg .ldt src)
  | ltr src => exact hs.after (carries_loadSystemSeg .tr src)
  | movtc reg rm => exact modeAfter_movtc hs reg rm
  | movtd reg rm => exact hs.after (modeOk_of_sameMode (sameMode_movtd reg rm))
  | lmsw src => exact modeAfter_lmsw hs src
  | clts => exact hs.after (modeOk_of_sameMode sameMode_clts)
  | wrmsr => exact hs.after (modeOk_of_sameMode sameMode_wrmsr)
  | sysenter => exact modeAfter_sysenter hs
  | sysexit => exact modeAfter_sysexit hs

theorem modeAfter_event {s : CPUI386} (hs : ModeOk s) (e : ModeEvent) (h : e.AvoidsV86Task s) :
    ModeAfter e.exec s := by
  cases e with
  | insn i => exact modeAfter_insn hs i h
  | interrupt no pusherr ext =>
    exact modeAfter_callIsr hs no pusherr ext fun tss u hu => h tss .call u ⟨rfl, hu⟩

/-- In a run without a switch to a V86 task, what is cached of the mode is always right. -/
theorem mode_cached {s : CPUI386} (hr : ModeRun ModeEvent.AvoidsV86Task s) : ModeOk s := by
  induction hr with
  | reset s => exact reset_modeOk s
  | resetPm s startAddr => exact resetPm_modeOk s startAddr
  | event e _ hok h ih =>
    exact wp_endsIn (modeAfter_event ih e hok) h (fun _ _ ht => ht) fun _ ht => ht
  | other _ h ih => exact ih.congr h

/-- A GDT at 0x1000 with the TSSs 8 and 0x10; the EFLAGS of the second has VM, and its selectors
are zero. -/
def v86TaskMem : Nat → Byte
  | 0x1008 => 0x67
  | 0x100b => 0x20
  | 0x100d => 0x89
  | 0x1010 => 0x67
  | 0x1012 => 0x80
  | 0x1013 => 0x20
  | 0x1015 => 0x89
  | 0x20a4 => 0x02
  | 0x20a6 => 0x02
  | _ => 0

def flatCpu : CPUI386 := (cpui386New .i386 (fun _ => 0) 0x4000 false false).resetPm 0

/-- The guest has written its tables, and has the selector of its TSS in EAX. -/
def tablesCpu : CPUI386 :=
  { flatCpu with mem := v86TaskMem, gdt := ⟨0x1000, 0x17⟩, gpr := fun _ => 8 }

def taskCpu : CPUI386 := endState (SysInsn.ltr (.reg 0)).exec tablesCpu

def v86TaskCpu : CPUI386 := endState (SysInsn.jmpFar false (.imm 0 0x10)).exec taskCpu

/-- `x` returns or faults. -/
def ends {α : Type} (x : M α) (s : CPUI386) : Bool :=
  match x s with
  | .stop _ => false
  | _ => true

theorem endsIn_endState {α : Type} {x : M α} {s : CPUI386} (h : ends x s = true) :
    EndsIn x s (endState x s) := by
  unfold ends at h
  unfold EndsIn endState
  cases hx : x s with
  | ok a t => exact Or.inl ⟨a, rfl⟩
  | fault t => exact Or.inr rfl
  | stop why =>
    rw [hx] at h
    cases h

theorem taskCpu_run {ok : ModeEvent → CPUI386 → Prop} (h : ok (.insn (.ltr (.reg 0))) tablesCpu) :
    ModeRun ok taskCpu := by
  have hflat : ModeRun ok flatCpu := .resetPm _ 0
  have htables : ModeRun ok tablesCpu := .other hflat ⟨rfl, rfl, rfl, rfl, rfl, rfl⟩
  exact .event _ htables h (endsIn_endState (by decide +kernel))

/-- What `x` returns in `s`, if it does, meets `p`. -/
def returnsOnly {α : Type} (x : M α) (p : α → CPUI386 → Bool) (s : CPUI386) : Bool :=
  match x s with
  | .ok a t => p a t
  | _ => true

theorem of_returnsOnly {α : Type} {x : M α} {p : α → CPUI386 → Bool} {s t : CPUI386} {a : α}
    (h : returnsOnly x p s = true) (hx : x s = .ok a t) : p a t = true := by
  unfold returnsOnly at h
  rw [hx] at h
  exact h

def plainTask (tss : Word) (kind : SwitchType) (s : CPUI386) : Bool :=
  returnsOnly (beginSwitch tss kind)
    (fun _ t => returnsOnly (loadTss 0x24) (fun v _ => !hasBit v VM) t) s

theorem notV86Task_of_plain {tss : Word} {kind : SwitchType} {s : CPUI386}
    (h : plainTask tss kind s = true) : NotV86Task tss kind s := by
  intro t ht v u hu
  have hread := of_returnsOnly (p := fun _ t => returnsOnly _ _ t) h ht
  have hclear := of_returnsOnly (p := fun v _ => !hasBit v VM) hread hu
  exact (Bool.not_eq_true' _).mp hclear

/-- The same tables with flat segments 0x18 and 0x20 and VM clear in the second TSS. The stack of
that task, at 0x3000, has a frame for IRET with VM set. -/
def plainTaskMem : Nat → Byte
  | 0x1018 | 0x1019 | 0x1020 | 0x1021 => 0xff
  | 0x101d => 0x9b
  | 0x1025 => 0x93
  | 0x101e | 0x1026 => 0xcf
  | 0x20a6 => 0
  | 0x20b9 => 0x30
  | 0x20cc => 0x18
  | 0x20d0 => 0x20
  | 0x3001 => 0x01
  | 0x3005 => 0x10
  | 0x3008 | 0x300a => 0x02
  | 0x300d => 0x08
  | 0x3011 => 0x20
  | a => v86TaskMem a

def plainTablesCpu : CPUI386 :=
  { flatCpu with mem := plainTaskMem, gdt := ⟨0x1000, 0x27⟩, gpr := fun _ => 8 }

def ltrCpu : CPUI386 := endState (SysInsn.ltr (.reg 0)).exec plainTablesCpu

def switchedCpu : CPUI386 := endState (SysInsn.jmpFar false (.imm 0 0x10)).exec ltrCpu

def v86Cpu : CPUI386 := endState (SysInsn.iret false).exec switchedCpu

/-- A jump to another task, which returns to V86 mode. -/
theorem mode_cached_v86Cpu :
    (v86Cpu.seg .tr).sel = 0x10 ∧ hasBit v86Cpu.flags VM = true ∧ ModeOk v86Cpu := by
  have hflat : ModeRun ModeEvent.AvoidsV86Task flatCpu := .resetPm _ 0
  have htables : ModeRun ModeEvent.AvoidsV86Task plainTablesCpu :=
    .other hflat ⟨rfl, rfl, rfl, rfl, rfl, rfl⟩
  have hltr : ModeRun ModeEvent.AvoidsV86Task ltrCpu :=
    .event (.insn (.ltr (.reg 0))) htables (fun _ _ _ h => h.elim)
      (endsIn_endState (by decide +kernel))
  have hplain : returnsOnly (readDesc 0x10)
      (fun w u => (w.2 >>> 8) &&& 0xf == 9 && plainTask 0x10 .jmp u) ltrCpu = true := by
    decide +kernel
  have hjmp : (ModeEvent.insn (.jmpFar false (.imm 0 0x10))).AvoidsV86Task ltrCpu := by
    rintro tss kind u ⟨rfl, p, t, hload, -, -, w, hdesc, -, -, -, -, htss⟩
    cases hload
    obtain ⟨htype, htask⟩ := Bool.and_eq_true_iff.mp (of_returnsOnly hplain hdesc)
    rcases htss with ⟨-, rfl⟩ | ⟨hgate, -⟩
    · exact notV86Task_of_plain htask
    · rw [hgate] at htype
      cases htype
  have hswitched : ModeRun ModeEvent.AvoidsV86Task switchedCpu :=
    .event (.insn (.jmpFar false (.imm 0 0x10))) hltr hjmp (endsIn_endState (by decide +kernel))
  have hiret : (ModeEvent.insn (.iret false)).AvoidsV86Task switchedCpu := by
    rintro tss kind u ⟨-, -, hnt, -⟩
    have hclear : hasBit switchedCpu.flags NT = false := by decide +kernel
    rw [hclear] at hnt
    cases hnt
  refine ⟨by decide +kernel, by decide +kernel, mode_cached ?_⟩
  exact .event (.insn (.iret false)) hswitched hiret (endsIn_endState (by decide +kernel))

/-- The flags are loaded behind the segments, which so are loaded as descriptors: in V86 mode CPL
is 0. -/
theorem v86Task_breaks_mode :
    ModeRun (fun _ _ => True) v86TaskCpu ∧ hasBit v86TaskCpu.cr0 1 = true ∧
      hasBit v86TaskCpu.flags VM = true ∧ v86TaskCpu.cpl = 0 ∧ ¬ ModeOk v86TaskCpu := by
  have hcpl : v86TaskCpu.cpl = 0 := by decide +kernel
  have hvm : hasBit v86TaskCpu.flags VM = true := by decide +kernel
  refine ⟨?_, by decide +kernel, hvm, hcpl, fun h => ?_⟩
  · exact .event (.insn (.jmpFar false (.imm 0 0x10))) (taskCpu_run trivial) trivial
      (endsIn_endState (by decide +kernel))
  · have h3 := (h.v86 hvm).cpl
    rw [hcpl] at h3
    cases h3

end Winspire.Cpu
