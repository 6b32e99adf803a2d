import Winspire.Cpu.ModeCache

/-!
# The mode behind each instruction

Every instruction that loads segments or flags leaves the mode right, and so does the delivery of an
interrupt, as long as no task switch among them leads to a V86 task.
-/

namespace Winspire.Cpu

open Faulting

set_option autoImplicit false

/-- The mode is right in whatever state `x` ends. -/
def ModeAfter {α : Type} (x : M α) (s : CPUI386) : Prop :=
  wp x (fun _ t => ModeOk t) ModeOk (fun _ => True) s

section Rules

variable {α β : Type} {x : M α} {s : CPUI386}

theorem ModeOk.after (hs : ModeOk s) (hx : Stays (Carries ModeOk) x) : ModeAfter x s :=
  wp_mono (hx s) (fun _ _ h => h hs) (fun _ h => h hs) fun _ _ => trivial

theorem Kept.after (hs : Kept True s) (hx : Stays (Carries (Kept True)) x) : ModeAfter x s :=
  wp_mono (hx s) (fun _ _ h => (h hs).modeOk) (fun _ h => (h hs).modeOk) fun _ _ => trivial

theorem modeAfter_bind {k : α → M β} (hx : Stays SameMode x) (hs : ModeOk s)
    (hk : ∀ a t, x s = .ok a t → SameMode s t → ModeAfter (k a) t) : ModeAfter (x >>= k) s := by
  unfold ModeAfter
  rw [wp_bind]
  have hw := hx s
  unfold wp at hw ⊢
  cases h : x s with
  | ok a t =>
    rw [h] at hw
    exact hk a t h hw
  | fault t =>
    rw [h] at hw
    exact hs.congr hw
  | stop why => trivial

theorem modeAfter_get {k : CPUI386 → M α} (hk : ModeAfter (k s) s) : ModeAfter (get >>= k) s := hk

theorem modeAfter_guard {c : Prop} [Decidable c] {no : Nat} {err : Word} (hs : ModeOk s)
    (hx : ¬ c → ModeAfter x s) : ModeAfter (do onlyIf c (throwEx no err); x) s := by
  unfold ModeAfter
  rw [wp_bind]
  exact wp_onlyIf (fun _ => hs.congr ⟨rfl, rfl, rfl, rfl, rfl, rfl⟩) hx

theorem modeAfter_ite {c : Prop} [Decidable c] {y : M α} (hx : c → ModeAfter x s)
    (hy : ¬ c → ModeAfter y s) : ModeAfter (if c then x else y) s := wp_ite hx hy

theorem modeOk_of_sameMode (h : Stays SameMode x) : Stays (Carries ModeOk) x :=
  h.mono fun _ _ hm hs => hs.congr hm

theorem modeOk_of_backstage (h : Stays Backstage x) : Stays (Carries ModeOk) x :=
  modeOk_of_sameMode (sameMode_of_backstage h)

theorem sameMode_throwEx (no : Nat) (err : Word) : Stays SameMode (throwEx no err) :=
  sameMode_of_backstage (backstage_throwEx no err)

theorem sameMode_throw0 (no : Nat) : Stays SameMode (throw0 no) :=
  stays_bind (sameMode_rest fun _ => ⟨rfl, rfl, rfl, rfl, rfl, rfl⟩) fun _ => stays_fault

theorem sameMode_check (c : Prop) [Decidable c] (no : Nat) (err : Word) :
    Stays SameMode (onlyIf c (throwEx no err)) := stays_onlyIf (sameMode_throwEx no err)

end Rules

theorem real_base {sel : Word} (hsel : sel.toNat ≤ 0xffff) :
    (Segment.real sel).base.toNat = (Segment.real sel).sel.toNat * 16 := by
  change (sel <<< 4).toNat = sel.toNat * 16
  rw [BitVec.toNat_shiftLeft, Nat.shiftLeft_eq]
  omega

theorem loadReal_seg (s : CPUI386) (r : SegReg) (sel : Word) :
    (s.loadReal r sel).seg = (s.setSeg r (Segment.real sel)).seg := by cases r <;> rfl

theorem V86Ok.loadReal {s : CPUI386} (h : V86Ok s) (hv : hasBit s.flags VM = true) (r : SegReg)
    {sel : Word} (hsel : sel.toNat ≤ 0xffff) : V86Ok (s.loadReal r sel) := by
  have hbase : ∀ r' ∈ tssSegs, ((s.loadReal r sel).seg r').base.toNat =
      ((s.loadReal r sel).seg r').sel.toNat * 16 := by
    intro r' hr'
    rw [loadReal_seg]
    by_cases he : r' = r
    · subst he
      rw [setSeg_same]
      exact real_base hsel
    · rw [setSeg_other _ _ he]
      exact h.base r' hr'
  cases r with
  | cs =>
    refine ⟨h.protected_, ?_, rfl, h.spMask, hbase⟩
    change (if hasBit s.flags VM then 3 else 0) = 3
    rw [if_pos hv]
  | ss => exact ⟨h.protected_, h.cpl, h.code16, rfl, hbase⟩
  | es => exact ⟨h.protected_, h.cpl, h.code16, h.spMask, hbase⟩
  | ds => exact ⟨h.protected_, h.cpl, h.code16, h.spMask, hbase⟩
  | fs => exact ⟨h.protected_, h.cpl, h.code16, h.spMask, hbase⟩
  | gs => exact ⟨h.protected_, h.cpl, h.code16, h.spMask, hbase⟩
  | ldt => exact ⟨h.protected_, h.cpl, h.code16, h.spMask, hbase⟩
  | tr => exact ⟨h.protected_, h.cpl, h.code16, h.spMask, hbase⟩

theorem low16_le (sel : Word) : (sel &&& 0xffff).toNat ≤ 0xffff := by
  rw [BitVec.toNat_and]
  exact Nat.and_le_right

theorem modeOk_setSeg (r : SegReg) (sel : Word) : Stays (Carries ModeOk) (setSeg r sel) := by
  intro s
  refine wp_mono (setSeg_spec r sel s) ?_ ?_ (fun _ _ => trivial)
  · rintro _ t ⟨u, hu, ⟨rfl, -⟩ | ⟨w1, w2, rfl, -, hv⟩⟩ hs
    · have hs' := hs.congr hu.sameMode
      refine ⟨hs'.widths.loadReal r _, fun hv => ?_⟩
      rw [loadReal_flags] at hv
      exact (hs'.v86 hv).loadReal hv r (low16_le sel)
    · have hs' := hs.congr hu.sameMode
      refine ⟨hs'.widths.loadDesc r _ _ _, fun hv' => ?_⟩
      rw [loadDesc_flags, hu.sameMode.vm] at hv'
      exact absurd hv' hv
  · rintro t ⟨ht, -⟩ hs
    exact hs.congr ht.sameMode

theorem backstage_translateW (w : Width) (rwm : Nat) (seg : SegReg) (addr : Word) :
    Stays Backstage (translateW w rwm seg addr) := by
  cases w with
  | b8 => exact stays_get fun _ => backstage_translate _ _ _ _ _
  | b16 => exact stays_get fun _ => backstage_translate _ _ _ _ _
  | b32 => exact stays_get fun _ => backstage_translate _ _ _ _ _

theorem backstage_locate (src : Operand) : Stays Backstage src.locate := by
  cases src with
  | reg i => exact stays_pure _
  | mem seg addr =>
    exact stays_bind (stays_get fun _ => backstage_translate _ _ _ _ _) fun _ => stays_pure _

theorem backstage_loadLocated (l : Located) : Stays Backstage l.load := by
  cases l with
  | reg i => exact stays_get fun _ => stays_pure _
  | mem m => exact stays_bind (backstage_load16 _) fun _ => stays_pure _

theorem backstage_farPtr (opsz16 : Bool) (ptr : FarPtr) : Stays Backstage (ptr.load opsz16) := by
  cases ptr with
  | imm off sel => exact stays_pure _
  | mem seg addr =>
    refine stays_bind (backstage_translateW _ _ _ _) fun _ => ?_
    refine stays_bind (stays_get fun _ => backstage_translate _ _ _ _ _) fun _ => ?_
    refine stays_bind (backstage_loadW _ _) fun _ => ?_
    exact stays_bind (backstage_load16 _) fun _ => stays_pure _

theorem backstage_stackSlot (w : Width) (rwm : Nat) (addr : Word) :
    Stays Backstage (stackSlot w rwm addr) := stays_get fun _ => backstage_translateW _ _ _ _

theorem carries_movSeg (a : SegReg) (src : Operand) : Stays (Carries ModeOk) (movSeg a src) := by
  refine stays_bind (modeOk_of_backstage (backstage_locate src)) fun l => ?_
  refine stays_bind (stays_onlyIf (modeOk_of_sameMode (sameMode_throw0 _))) fun _ => ?_
  exact stays_bind (modeOk_of_backstage (backstage_loadLocated l)) fun v => modeOk_setSeg a v

theorem carries_popSeg (opsz16 : Bool) (seg : SegReg) :
    Stays (Carries ModeOk) (popSeg opsz16 seg) := by
  refine stays_get fun s => stays_get fun s' => ?_
  refine stays_bind (modeOk_of_backstage (backstage_stackSlot _ _ _)) fun meml => ?_
  refine stays_bind (modeOk_of_backstage (backstage_loadW _ _)) fun v => ?_
  exact stays_bind (modeOk_setSeg _ _) fun _ => modeOk_of_sameMode (sameMode_setSp _ _)

theorem sameMode_sreg16 (i : Fin 8) (v : Word) : Stays SameMode (sreg16 i v) :=
  sameMode_rest fun _ => ⟨rfl, rfl, rfl, rfl, rfl, rfl⟩

theorem carries_lseg (opsz16 : Bool) (seg : SegReg) (reg : Fin 8) (currSeg : SegReg) (addr : Word) :
    Stays (Carries ModeOk) (lseg opsz16 seg reg currSeg addr) := by
  refine stays_bind (modeOk_of_backstage (backstage_translateW _ _ _ _)) fun meml1 => ?_
  refine stays_bind (modeOk_of_backstage (stays_get fun _ => backstage_translate _ _ _ _ _))
    fun meml2 => ?_
  refine stays_bind (modeOk_of_backstage (backstage_loadW _ _)) fun r => ?_
  refine stays_bind (modeOk_of_backstage (backstage_load16 _)) fun v => ?_
  refine stays_bind (modeOk_setSeg _ _) fun _ => ?_
  exact stays_ite (modeOk_of_sameMode (sameMode_sreg16 _ _))
    (modeOk_of_sameMode (sameMode_sreg32 _ _))

theorem carries_loadSystemSeg (seg : SegReg) (src : Operand) :
    Stays (Carries ModeOk) (loadSystemSeg seg src) := by
  refine stays_bind (modeOk_of_backstage (backstage_locate src)) fun l => stays_get fun s => ?_
  refine stays_bind (modeOk_of_sameMode (sameMode_check _ _ _)) fun _ => ?_
  exact stays_bind (modeOk_of_backstage (backstage_loadLocated l)) fun v => modeOk_setSeg seg v

theorem hasBit_VM (x : Word) : hasBit x VM = x.getLsbD 17 := hasBit_twoPow x 17

theorem eflagsMask_vm (g : Gen) : g.eflagsMask.getLsbD 17 = true := by cases g <;> rfl

/-- The bits that no generation has are dropped, and bit 1 is always set. -/
theorem implemented_vm (g : Gen) (x : Word) :
    hasBit ((x &&& g.eflagsMask) ||| 0x2) VM = hasBit x VM := by
  have h2 : (0x2 : Word).getLsbD 17 = false := rfl
  rw [hasBit_VM, hasBit_VM, BitVec.getLsbD_or, BitVec.getLsbD_and, eflagsMask_vm, h2, Bool.and_true,
    Bool.or_false]

theorem blend_vm {m : Word} (hm : m.getLsbD 17 = true) (x y : Word) :
    hasBit ((x &&& m) ||| (y &&& ~~~m)) VM = hasBit x VM := by
  rw [hasBit_VM, hasBit_VM, BitVec.getLsbD_or, BitVec.getLsbD_and, BitVec.getLsbD_and,
    BitVec.getLsbD_not, hm]
  simp

theorem popf_vm (gen : Gen) (opsz16 pe : Bool) (cpl : Nat) (v : Word) (s : LazyFlags) :
    hasBit (s.popf gen opsz16 pe cpl v).flags VM = hasBit s.flags VM := by
  have hkept := LazyFlags.popfKept_vm pe cpl s
  unfold LazyFlags.popf
  refine (implemented_vm gen _).trans ?_
  cases opsz16 with
  | false => exact blend_vm hkept _ _
  | true =>
    have hhigh : (0xffff0000 ||| s.popfKept pe cpl).getLsbD 17 = true := by
      rw [BitVec.getLsbD_or, hkept, Bool.or_true]
    change hasBit (s.flags &&& (0xffff0000 ||| s.popfKept pe cpl) |||
      (v.setWidth 16).setWidth 32 &&& ~~~(s.popfKept pe cpl)) VM = hasBit s.flags VM
    rw [hasBit_VM, hasBit_VM, BitVec.getLsbD_or, BitVec.getLsbD_and, BitVec.getLsbD_and,
      BitVec.getLsbD_not, hkept, hhigh]
    simp

theorem sameMode_popf (opsz16 : Bool) : Stays SameMode (popf opsz16) := by
  refine stays_get fun s => stays_bind (sameMode_check _ _ _) fun _ => ?_
  refine stays_bind (sameMode_of_backstage (backstage_stackSlot _ _ _)) fun meml => ?_
  refine stays_bind (sameMode_setSp _ _) fun _ => ?_
  refine stays_bind (sameMode_of_backstage (backstage_loadW _ _)) fun image => ?_
  exact sameMode_rest fun s => ⟨rfl, rfl, rfl, rfl, popf_vm _ _ _ _ _ _, rfl⟩

theorem sameMode_setIF (on : Bool) : Stays SameMode (setIF on) := by
  refine stays_get fun s => stays_bind (sameMode_check _ _ _) fun _ => ?_
  refine sameMode_setFlags fun x => ?_
  cases on with
  | false => exact hasBit_and_other x (by decide)
  | true => exact hasBit_or_other x (by decide)

theorem sameMode_loadTable (opsz16 : Bool) (currSeg : SegReg) (addr : Word)
    {set : CPUI386 → DescTable → CPUI386} (hset : ∀ s t, SameMode s (set s t)) :
    Stays SameMode (loadTable opsz16 currSeg addr set) := by
  refine stays_get fun s => stays_bind (sameMode_check _ _ _) fun _ => ?_
  refine stays_bind (sameMode_of_backstage (stays_get fun _ => backstage_translate _ _ _ _ _))
    fun meml1 => ?_
  refine stays_bind (sameMode_of_backstage (stays_get fun _ => backstage_translate _ _ _ _ _))
    fun meml2 => ?_
  refine stays_bind (sameMode_of_backstage (backstage_load16 _)) fun limit => ?_
  refine stays_bind (sameMode_of_backstage (backstage_load32 _)) fun base => ?_
  exact sameMode_rest fun s => hset s _

theorem sameMode_movtd (reg rm : Fin 8) : Stays SameMode (movtd reg rm) :=
  sameMode_rest fun _ => ⟨rfl, rfl, rfl, rfl, rfl, rfl⟩

theorem sameMode_clts : Stays SameMode clts :=
  sameMode_rest fun s => ⟨rfl, rfl, rfl, rfl, rfl, hasBit_and_other s.cr0 (by decide)⟩

theorem sameMode_wrmsr : Stays SameMode wrmsr := by
  refine stays_get fun s => stays_bind (sameMode_check _ _ _) fun _ => ?_
  refine stays_ite (sameMode_rest fun _ => ⟨rfl, rfl, rfl, rfl, rfl, rfl⟩) ?_
  refine stays_ite (sameMode_rest fun _ => ⟨rfl, rfl, rfl, rfl, rfl, rfl⟩) ?_
  exact stays_ite (sameMode_rest fun _ => ⟨rfl, rfl, rfl, rfl, rfl, rfl⟩) (sameMode_throwEx _ _)

theorem ModeOk.off {s : CPUI386} (hs : ModeOk s) (hcpl : ¬ s.cpl ≠ 0) : Kept True s := by
  refine hs.kept ?_
  cases hv : hasBit s.flags VM with
  | false => rfl
  | true => exact absurd ((hs.v86 hv).cpl.symm.trans (not_not.mp hcpl)) (by decide)

theorem modeAfter_cpl0 {s : CPUI386} (hs : ModeOk s) {no : Nat} {err : Word} {x : M Unit}
    (hx : Kept True s → ModeAfter x s) :
    ModeAfter (do onlyIf (s.cpl ≠ 0) (throwEx no err); x) s :=
  modeAfter_guard hs fun hcpl => hx (hs.off hcpl)

theorem CPUI386.movCr0_widths {s : CPUI386} (h : Kept True s) (v : Word) :
    Kept True (s.movCr0 v) := by
  unfold CPUI386.movCr0
  split
  · exact ⟨h.widths.of_eq rfl rfl rfl rfl, h.off⟩
  · exact ⟨h.widths.of_eq rfl rfl rfl rfl, h.off⟩

theorem modeAfter_movtc {s : CPUI386} (hs : ModeOk s) (reg rm : Fin 8) :
    ModeAfter (movtc reg rm) s := by
  refine modeAfter_cpl0 (s := s) hs fun hk => ?_
  have hkeep : ∀ t : CPUI386, t.seg = s.seg → t.code16 = s.code16 → t.spMask = s.spMask →
      t.flags = s.flags → ModeOk t := by
    intro t hseg hc hm hf
    exact Kept.modeOk ⟨hk.widths.of_eq hc hm (congrFun hseg _) (congrFun hseg _),
      fun h => by rw [hf]; exact hk.off h⟩
  unfold ModeAfter
  split
  · exact (CPUI386.movCr0_widths hk _).modeOk
  · exact hkeep _ rfl rfl rfl rfl
  · exact hkeep _ rfl rfl rfl rfl
  · exact hs
  · exact hkeep _ rfl rfl rfl rfl

theorem modeAfter_lmsw {s : CPUI386} (hs : ModeOk s) (src : Operand) :
    ModeAfter (lmsw src) s := by
  refine modeAfter_bind (sameMode_of_backstage (backstage_locate src)) hs fun l t _ ht => ?_
  refine modeAfter_cpl0 (hs.congr ht) fun hk => hk.after ?_
  refine stays_bind (kept_of_backstage (backstage_loadLocated l)) fun v => ?_
  exact stays_modify fun s hs => ⟨hs.widths.of_eq rfl rfl rfl rfl, hs.off⟩

theorem sysenterSegs_widths (s : CPUI386) {pl : Nat} (hpl : pl = 0 ∨ pl = 3) (cs : Word) :
    WidthsOk (s.sysenterSegs pl cs) := by
  rcases hpl with rfl | rfl
  · have hcs : ¬ hasBit (segBig ||| 0x5b ||| ((0 : Word) <<< 5)) segBig = false := by decide
    have hss : hasBit (segBig ||| 0x53 ||| ((0 : Word) <<< 5)) segBig = true := by decide
    exact ⟨iff_of_false Bool.false_ne_true hcs, (if_pos hss).symm⟩
  · have hcs : ¬ hasBit (segBig ||| 0x5b ||| ((3 : Word) <<< 5)) segBig = false := by decide
    have hss : hasBit (segBig ||| 0x53 ||| ((3 : Word) <<< 5)) segBig = true := by decide
    exact ⟨iff_of_false Bool.false_ne_true hcs, (if_pos hss).symm⟩

theorem modeAfter_sysenter {s : CPUI386} (hs : ModeOk s) : ModeAfter sysenter s := by
  unfold ModeAfter sysenter
  rw [wp_bind, wp_get, wp_bind]
  refine wp_onlyIf ?_ ?_
  · intro _
    exact hs.congr ⟨rfl, rfl, rfl, rfl, rfl, rfl⟩
  · intro _
    have hw := sysenterSegs_widths { s with flags := s.flags &&& ~~~(VM ||| IF) } (Or.inl rfl)
      s.sysenter.cs
    refine Kept.modeOk ⟨hw.of_eq rfl rfl rfl rfl, fun _ => ?_⟩
    change hasBit (s.flags &&& ~~~(VM ||| IF)) VM = false
    rw [hasBit_false_iff, BitVec.and_assoc]
    exact BitVec.and_zero

theorem modeAfter_sysexit {s : CPUI386} (hs : ModeOk s) : ModeAfter sysexit s := by
  unfold ModeAfter sysexit
  rw [wp_bind, wp_get, wp_bind]
  refine wp_onlyIf ?_ ?_
  · intro _
    exact hs.congr ⟨rfl, rfl, rfl, rfl, rfl, rfl⟩
  · intro h
    have hk := hs.off fun hc => h (Or.inr (Or.inr hc))
    have hw := sysenterSegs_widths s (Or.inr rfl) (s.sysenter.cs + 16)
    exact Kept.modeOk ⟨hw.of_eq rfl rfl rfl rfl, hk.off⟩

section Calls

variable {vm : Prop}

theorem kept_check (c : Prop) [Decidable c] (no : Nat) (err : Word) :
    Stays (Carries (Kept vm)) (onlyIf c (throwEx no err)) :=
  kept_of_sameMode (sameMode_check c no err)

theorem kept_loadCs (sel ip : Word) :
    Stays (Carries (Kept vm)) (do try1 (setSeg .cs sel); setNextIp ip) :=
  stays_bind (kept_try1 (kept_setSeg _ _)) fun _ => kept_of_sameMode (sameMode_setNextIp _)

theorem sameMode_pushReturn (w : Width) : Stays SameMode (pushReturn w) := by
  refine stays_get fun s => ?_
  refine stays_bind (sameMode_of_backstage (backstage_slotsBelow _ _ _ _ _)) fun slots => ?_
  exact stays_bind (sameMode_setSp _ _) fun _ => sameMode_storeSlots _ _ _

theorem sameMode_pushGateReturn (w : Width) : Stays SameMode (pushGateReturn w) := by
  refine stays_get fun s => ?_
  refine stays_bind (sameMode_of_backstage (backstage_slotsBelow _ _ _ _ _)) fun slots => ?_
  exact stays_bind (sameMode_storeSlots _ _ _) fun _ => sameMode_setSp _ _

theorem sameMode_pushInnerReturn (w : Width) (oldss oldsp : Word) (params : List Word) (wc : Nat) :
    Stays SameMode (pushInnerReturn w oldss oldsp params wc) := by
  refine stays_get fun s => ?_
  refine stays_bind (keeps_try1 (sameMode_of_backstage (backstage_slotsBelow _ _ _ _ _))).stays
    fun slots => ?_
  refine stays_bind (sameMode_of_backstage (backstage_storeParams _ _ _ _ _ _).stays) fun _ => ?_
  refine stays_get fun s => ?_
  exact stays_bind (sameMode_storeSlots _ _ _) fun _ => sameMode_setSp _ _

theorem kept_callInner (w : Width) (newdpl wc : Nat) (isjmp : Bool) :
    Stays (Carries (Kept vm)) (callInner w newdpl wc isjmp) := by
  refine stays_get fun s => ?_
  refine stays_bind (kept_of_backstage (backstage_loadParams _ _ _ _)) fun params => ?_
  refine stays_bind (kept_of_backstage (backstage_innerStack _)) fun new => ?_
  refine stays_bind (kept_of_sameMode (sameMode_sreg32 _ _)) fun _ => ?_
  refine stays_bind (kept_setSeg _ _) fun _ => ?_
  exact stays_onlyIf (kept_of_sameMode (sameMode_pushInnerReturn _ _ _ _ _))

theorem kept_pmcallSegment (opsz16 : Bool) (addr sel w2 : Word) (isjmp : Bool) :
    Stays (Carries (Kept vm)) (pmcallSegment opsz16 addr sel w2 isjmp) := by
  refine stays_get fun s => ?_
  refine stays_bind (kept_of_backstage (backstage_pmcallCheckCs _ _)) fun _ => ?_
  refine stays_bind (stays_onlyIf (kept_of_sameMode (sameMode_pushReturn _))) fun _ => ?_
  exact kept_loadCs _ _

theorem kept_pmcallGate (w1 w2 : Word) (isjmp : Bool) :
    Stays (Carries (Kept vm)) (pmcallGate w1 w2 isjmp) := by
  refine stays_get fun s => stays_bind (kept_check _ _ _) fun _ => ?_
  refine stays_bind (kept_of_backstage (backstage_readDesc2 _)) fun neww2 => ?_
  refine stays_bind (kept_check _ _ _) fun _ => stays_bind (kept_check _ _ _) fun _ => ?_
  refine stays_bind (kept_check _ _ _) fun _ => stays_ite ?_ ?_
  · exact stays_bind (kept_callInner _ _ _ _) fun _ => kept_loadCs _ _
  · refine stays_bind (stays_onlyIf (kept_of_sameMode (sameMode_pushGateReturn _))) fun _ => ?_
    exact kept_loadCs _ _

end Calls

end Winspire.Cpu
