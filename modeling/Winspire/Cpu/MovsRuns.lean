import Winspire.Cpu.Alike
import Winspire.Cpu.StringRuns

/-!
# REP MOVS, element by element

A chunk translates both operands once and then copies. Against elements that translate them again,
its machine may differ in the translation caches, and in what a device that takes strings has seen.
-/

namespace Winspire.Cpu

open Faulting Pages

set_option autoImplicit false

section Elements

variable {s t : CPUI386} {w : Width} {a16 : Bool} {seg : SegReg} {dir : Word}
  {ip : Word → Word} {yield : Bool → Bool}

end Elements

/-- The operands of an element, both translated. With `loose` the caches need not be the same, but
the element must leave the tables alone; with `deaf` a device may take strings. -/
structure MovsOperands (loose deaf : Bool) (w : Width) (a16 : Bool) (seg : SegReg) (back : Bool)
    (s : CPUI386) (ms md : OptAddr) : Prop where
  again : loose = false → translateW w 1 seg (lregA a16 s 6) s = .ok ms s
  tables : loose = true → hasBit s.cr0 cr0PG = true → ∀ v t u, loadW ms w s = .ok v t →
    storeW md v w t = .ok () u → TablesKept t u
  unoffered : deaf = false → s.offersString back ms.addr1 md.addr1 w.size = false
  device : deaf = true → s.cb.iomemWriteString.isSome = true → inIomem md.addr1 = true →
    s.cb.iomemWrite w = true

/-- Translating the destination does not change what is copied. -/
def MovsApart (w : Width) (a16 : Bool) (seg : SegReg) (s : CPUI386) : Prop :=
  ∀ ms t, translateW w 1 seg (lregA a16 s 6) s = .ok ms t →
    ∃ v t', loadW ms w t = .ok v t' ∧
      ∀ md u, translateW w 2 .es (lregA a16 t 7) t = .ok md u → ∃ u', loadW ms w u = .ok v u'

/-- The condition on each element of MOVS. -/
structure MovsFit (loose deaf : Bool) (w : Width) (a16 : Bool) (seg : SegReg) (back : Bool)
    (s : CPUI386) : Prop where
  steady : MovsSteady w a16 seg back s
  plain : deaf = true → ∀ ms t, translateW w 1 seg (lregA a16 s 6) s = .ok ms t →
    t.iomemReader w (mapBiosAlias ms.addr1) = none
  operands : ∀ ms t md u, translateW w 1 seg (lregA a16 s 6) s = .ok ms t →
    translateW w 2 .es (lregA a16 s 7) t = .ok md u → MovsOperands loose deaf w a16 seg back u ms md

/-- Both operands of the element are aligned. -/
def BothLined (w : Width) (a16 : Bool) (seg : SegReg) (s : CPUI386) : Prop :=
  Lined w (s.elemAddr a16 seg 6) ∧ Lined w (s.elemAddr a16 .es 7)

/-- Unaligned elements are copied one by one. -/
def MovsRound (loose deaf : Bool) (w : Width) (a16 : Bool) (seg : SegReg) (back : Bool)
    (s : CPUI386) : Prop :=
  MovsFit loose deaf w a16 seg back s ∧
    (BothLined w a16 seg s ∨ MovsApart w a16 seg s)

section Related

variable {loose deaf : Bool} {s t : CPUI386} {w : Width} {a16 back : Bool} {seg : SegReg}
  {dir addr : Word} {rwm : Nat} {ms md m : OptAddr}

theorem Same.gpr (h : Same loose deaf s t) : s.gpr = t.gpr := by rw [h.rest]

theorem Same.lregA (h : Same loose deaf s t) (i : Fin 8) : lregA a16 s i = lregA a16 t i := by
  rw [lregA_eq, lregA_eq, h.gpr]

theorem Same.cb (h : Same loose deaf s t) : s.cb = t.cb := by rw [h.rest]

theorem Same.elemAddr (h : Same loose deaf s t) (i : Fin 8) :
    s.elemAddr a16 seg i = t.elemAddr a16 seg i := by
  unfold CPUI386.elemAddr
  rw [h.lregA, h.rest]

theorem Same.reader (h : Same loose deaf s t) (w : Width) (a : Word) :
    s.iomemReader w a = t.iomemReader w a := same_seesDevices.reader h w a

theorem iomemReader_cached {w' : Width} (hc : Cached s t) (a : Word) :
    t.iomemReader w' a = s.iomemReader w' a := by
  rw [hc.rest]
  rfl

theorem Cached.cb (hc : Cached s t) : t.cb = s.cb := by rw [hc.rest]

theorem translateW_cached (hrwm : rwm = 1 ∨ rwm = 2) (ha : s.Aligned)
    (h : translateW w rwm seg addr s = .ok m t) : Cached s t :=
  (wp_ok (translateW_settled ha hrwm) h).2.1

/-- What a source must be like for a load from related states. -/
theorem Same.quiet (h : Same loose deaf s t)
    (hp : deaf = true → t.iomemReader w (mapBiosAlias ms.addr1) = none) : Quiet w ms s t := by
  cases deaf with
  | false => exact Or.inl (h.devices rfl)
  | true => exact Or.inr ((h.reader w _).trans (hp rfl))

theorem Alike.translate (h : Alike loose deaf s t) (hrwm : rwm = 1 ∨ rwm = 2) {u : CPUI386}
    (hs : translateW w rwm seg addr s = .ok m u) :
    ∃ u', translateW w rwm seg addr t = .ok m u' ∧ Alike loose deaf u u' := by
  have hrel := rel_translateW h hrwm w seg addr
  rw [hs] at hrel
  exact hrel.ok_left

theorem MovsOperands.alike (h : Alike loose deaf s t)
    (hp : deaf = true → t.iomemReader w (mapBiosAlias ms.addr1) = none)
    (ho : MovsOperands loose deaf w a16 seg back t ms md) :
    MovsOperands loose deaf w a16 seg back s ms md where
  again hl := by
    subst hl
    have hs := h.toSame.around
    have hb : Blind (CPUI386.around id id id fun _ => s.io)
        (translateW w 1 seg (lregA a16 t 6)) := blind_around_translateW _ _ _ _
    have hrun := hb.ok (ho.again rfl)
    rw [← hs, ← h.toSame.lregA] at hrun
    exact hrun
  tables hl hpg v u u' hload hstore := by
    have hcr0 : s.cr0 = t.cr0 := by rw [h.rest]
    rw [hcr0] at hpg
    have hrel := rel_loadW_alike h (h.toSame.quiet hp)
    rw [hload] at hrel
    obtain ⟨v1, hload', h1⟩ := hrel.ok_left
    have hrel' : (storeW md v w u).Rel (Same loose deaf) (Same loose deaf) (storeW md v w v1) :=
      couples_storeW same_seesDevices md v w u v1 h1.toSame
    rw [hstore] at hrel'
    obtain ⟨v2, hstore', h2⟩ := hrel'.ok_left
    exact h1.toSame.tablesKept.trans
      ((ho.tables hl hpg v v1 v2 hload' hstore').trans h2.symm.tablesKept)
  unoffered hd := by
    have hoff := ho.unoffered hd
    unfold CPUI386.offersString at hoff ⊢
    rw [h.rest]
    exact hoff
  device hd := by
    rw [h.toSame.cb]
    exact ho.device hd

theorem MovsFit.alike (h : Alike loose deaf s t) (hf : MovsFit loose deaf w a16 seg back t) :
    MovsFit loose deaf w a16 seg back s where
  steady := by
    have hst := hf.steady
    unfold MovsSteady at hst ⊢
    rw [h.toSame.elemAddr, h.toSame.elemAddr, h.toSame.lregA, h.toSame.gpr]
    exact hst
  plain hd ms u hs := by
    rw [h.toSame.lregA] at hs
    obtain ⟨u', hs', hu⟩ := h.translate (Or.inl rfl) hs
    rw [hu.toSame.reader]
    exact hf.plain hd ms u' hs'
  operands ms u md v hs hd := by
    rw [h.toSame.lregA] at hs hd
    obtain ⟨u', hs', hu⟩ := h.translate (Or.inl rfl) hs
    obtain ⟨v', hd', hv⟩ := hu.translate (Or.inr rfl) hd
    refine (hf.operands ms u' md v' hs' hd').alike hv fun hdeaf => ?_
    rw [iomemReader_cached (translateW_cached (Or.inr rfl) hu.right.aligned hd')]
    exact hf.plain hdeaf ms u' hs'

theorem Alike.load (h : Alike loose deaf s t)
    (hp : deaf = true → t.iomemReader w (mapBiosAlias ms.addr1) = none) {v : Word} {u : CPUI386}
    (hl : loadW ms w t = .ok v u) : ∃ u', loadW ms w s = .ok v u' := by
  have hrel := rel_loadW_alike h (h.toSame.quiet hp)
  rw [hl] at hrel
  obtain ⟨u', hl', -⟩ := hrel.ok_right
  exact ⟨u', hl'⟩

theorem MovsApart.alike (h : Alike loose deaf s t) (hf : MovsFit loose deaf w a16 seg back t)
    (ha : MovsApart w a16 seg t) : MovsApart w a16 seg s := by
  intro ms u hs
  rw [h.toSame.lregA] at hs
  obtain ⟨u', hs', hu⟩ := h.translate (Or.inl rfl) hs
  obtain ⟨v, t', hload, hcond⟩ := ha ms u' hs'
  have hplain := fun hdeaf => hf.plain hdeaf ms u' hs'
  obtain ⟨u1, hload'⟩ := hu.load hplain hload
  refine ⟨v, u1, hload', fun md x hd => ?_⟩
  rw [hu.toSame.lregA] at hd
  obtain ⟨x', hd', hx⟩ := hu.translate (Or.inr rfl) hd
  obtain ⟨y, hagain⟩ := hcond md x' hd'
  refine hx.load (fun hdeaf => ?_) hagain
  rw [iomemReader_cached (translateW_cached (Or.inr rfl) hu.right.aligned hd')]
  exact hplain hdeaf

theorem MovsRound.alike (h : Alike loose deaf s t) (hr : MovsRound loose deaf w a16 seg back t) :
    MovsRound loose deaf w a16 seg back s := by
  refine ⟨hr.1.alike h, ?_⟩
  unfold BothLined
  rw [h.toSame.elemAddr, h.toSame.elemAddr]
  exact hr.2.imp_right fun ha => ha.alike h hr.1

end Related

section Again

variable {loose deaf : Bool} {s t u x : CPUI386} {w : Width} {a16 back : Bool} {seg : SegReg}
  {dir addr : Word} {v : Word} {rwm n : Nat} {ms md m : OptAddr}

theorem Sound.translate (h : Sound loose s) (hrwm : rwm = 1 ∨ rwm = 2)
    (hs : translateW w rwm seg addr s = .ok m t) : Sound loose t := by
  have hself : Alike loose false s s := h.alike
  obtain ⟨t', -, ht⟩ := hself.translate hrwm hs
  exact ht.left

/-- The state after both translations, and the one where the source is held again. -/
structure Twice (loose : Bool) (w : Width) (a16 : Bool) (seg : SegReg) (s u x : CPUI386)
    (ms md : OptAddr) : Prop where
  alike : Alike loose false x u
  again : translateW w 1 seg (lregA a16 u 6) u = .ok ms x
  source : x.Settled w 1 seg (lregA a16 x 6) ms
  dest : x.Settled w 2 .es (lregA a16 x 7) md
  ahead : ∀ dir, movsAhead w a16 seg dir s = movsMove w a16 dir ms md u
  kept : TablesKept s u
  gpr : u.gpr = s.gpr
  seg : u.seg = s.seg
  cr0 : u.cr0 = s.cr0

structure Unmoved (loose : Bool) (s t : CPUI386) : Prop where
  cr0 : t.cr0 = s.cr0
  tables : loose = true → hasBit s.cr0 cr0PG = true → TablesKept s t

theorem Unmoved.trans (h : Unmoved loose s t) (h' : Unmoved loose t u) : Unmoved loose s u where
  cr0 := h'.cr0.trans h.cr0
  tables hl hpg := by
    have hpg' := hpg
    rw [← h.cr0] at hpg'
    exact (h.tables hl hpg).trans (h'.tables hl hpg')

theorem Touches.cr0 (h : Touches s t) : t.cr0 = s.cr0 := by
  unfold Touches at h
  rw [h]

end Again

section Copies

variable {loose deaf : Bool} {s t u x : CPUI386} {w : Width} {a16 back : Bool} {seg : SegReg}
  {dir : Word} {n : Nat} {ms md : OptAddr}

end Copies

section Unaligned

variable {loose deaf : Bool} {s t u x : CPUI386} {w : Width} {a16 back : Bool} {seg : SegReg}
  {dir v : Word} {n : Nat} {ms md : OptAddr}

theorem size_dvd (w : Width) : w.bits / 8 ∣ 2 ^ 16 ∧ w.bits / 8 ∣ 2 ^ 32 := by
  cases w <;> decide

end Unaligned

section Rounds

variable {loose deaf : Bool} {s t u x : CPUI386} {w : Width} {a16 back : Bool} {seg : SegReg}
  {slice : Nat} {ms md : OptAddr}

theorem Twice.elemAddr (ht : Twice loose w a16 seg s u x ms md) (sg : SegReg) (i : Fin 8) :
    s.elemAddr a16 sg i = x.elemAddr a16 sg i := by
  rw [ht.alike.toSame.elemAddr]
  unfold CPUI386.elemAddr
  rw [lregA_eq, lregA_eq, ht.gpr, ht.seg]

end Rounds

end Winspire.Cpu
