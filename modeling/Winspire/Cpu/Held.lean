import Winspire.Cpu.Lookup

/-!
# Translations again

A translation leaves its page in a fast table. While the page stays there, translating another
address of it changes nothing and reads no guest memory.
-/

namespace Winspire.Cpu

open Faulting Pages

set_option autoImplicit false

namespace CPUI386

/-- A fast table answers for the page, and no mark is missing. -/
inductive Held (s : CPUI386) (lpgno : Word) (cpl : Nat) (xaddr : Word) : Nat → Prop where
  | read (hit : s.ReadHit lpgno cpl)
      (hx : (s.dtlbRead (lpgno.toNat % dtlbFastSlots)).xaddr = xaddr) : Held s lpgno cpl xaddr 1
  | readWrite (miss : ¬ s.ReadHit lpgno cpl) (hit : s.WriteHit lpgno cpl)
      (hx : (s.dtlbWrite (lpgno.toNat % dtlbFastSlots)).xaddr = xaddr) : Held s lpgno cpl xaddr 1
  | write (hit : s.WriteHit lpgno cpl)
      (hd : (s.dtlbWrite (lpgno.toNat % dtlbFastSlots)).dirty = true)
      (hx : (s.dtlbWrite (lpgno.toNat % dtlbFastSlots)).xaddr = xaddr) : Held s lpgno cpl xaddr 2

end CPUI386

section Held

variable {s s' : CPUI386} {rwm cpl : Nat} {lpgno laddr x : Word}

theorem CPUI386.Held.run (h : s.Held lpgno cpl x rwm) (laddr : Word) :
    translateLpgnoFast rwm lpgno laddr cpl s = .ok (x ^^^ laddr) s := by
  unfold translateLpgnoFast
  rw [get_bind_run]
  cases h with
  | read hit hx =>
    refine (congrFun (if_pos ⟨rfl, hit⟩) s).trans ?_
    rw [hx]
    rfl
  | readWrite miss hit hx =>
    refine (congrFun (if_neg fun h => miss h.2) s).trans ?_
    refine (congrFun (if_pos ⟨rfl, hit⟩) s).trans ?_
    rw [hx]
    rfl
  | write hit hd hx =>
    refine (congrFun (if_neg fun h => absurd h.1 (by decide)) s).trans ?_
    refine (congrFun (if_neg fun h => absurd h.1 (by decide)) s).trans ?_
    refine (congrFun (if_pos ⟨rfl, hit⟩) s).trans ?_
    simp only [hd, not_true, onlyIf, if_false]
    rw [hx]
    rfl

theorem CPUI386.Held.congr (h : s.Held lpgno cpl x rwm)
    (hr : s'.dtlbRead (lpgno.toNat % dtlbFastSlots) = s.dtlbRead (lpgno.toNat % dtlbFastSlots))
    (hw : s'.dtlbWrite (lpgno.toNat % dtlbFastSlots) = s.dtlbWrite (lpgno.toNat % dtlbFastSlots)) :
    s'.Held lpgno cpl x rwm := by
  have hread : s'.ReadHit lpgno cpl ↔ s.ReadHit lpgno cpl := by
    unfold CPUI386.ReadHit
    rw [hr]
  have hwrite : s'.WriteHit lpgno cpl ↔ s.WriteHit lpgno cpl := by
    unfold CPUI386.WriteHit
    rw [hw]
  cases h with
  | read hit hx => exact .read (hread.mpr hit) (by rw [hr]; exact hx)
  | readWrite miss hit hx =>
    exact .readWrite (hread.not.mpr miss) (hwrite.mpr hit) (by rw [hw]; exact hx)
  | write hit hd hx => exact .write (hwrite.mpr hit) (by rw [hw]; exact hd) (by rw [hw]; exact hx)

theorem CPUI386.Held.aligned (h : s.Held lpgno cpl x rwm) (ha : s.Aligned) (hn : lpgno ≠ noPage) :
    x &&& 0xfff = 0 := by
  cases h with
  | read hit hx =>
    rw [← hx]
    apply ha.read
    rw [hit.1]
    exact hn
  | readWrite miss hit hx =>
    rw [← hx]
    refine (ha.write _ ?_).2
    rw [hit.1]
    exact hn
  | write hit hd hx =>
    rw [← hx]
    refine (ha.write _ ?_).2
    rw [hit.1]
    exact hn

theorem markPteDirty_frame (ppte : Option Word) :
    wp (markPteDirty ppte) (fun _ s' => s' = { s with mem := s'.mem }) (fun _ => True)
      (fun _ => True) s := by
  cases ppte with
  | none => exact rfl
  | some a =>
    unfold markPteDirty
    rw [wp_bind]
    refine wp_pload8 ?_ (fun _ => trivial)
    intro _
    refine wp_ite ?_ ?_
    · intro _
      exact wp_pstore8 (fun _ => rfl) (fun _ => trivial)
    · intro _
      exact rfl

theorem translateLpgnoFill_held (hrwm : rwm = 1 ∨ rwm = 2) :
    wp (translateLpgnoFill rwm lpgno laddr cpl)
      (fun a s' => ∃ x, s'.Held lpgno cpl x rwm ∧ a = x ^^^ laddr) (fun _ => True)
      (fun _ => True) s := by
  unfold translateLpgnoFill
  refine wp_bind_mono (wp_true _ _) ?_
  intro ent t _
  refine wp_bind_mono (wp_true _ _) ?_
  intro _ u _
  refine wp_ite ?_ ?_
  · intro hb
    have h2 : rwm = 2 := by
      rcases hrwm with rfl | rfl
      · exact absurd hb (by decide)
      · rfl
    subst h2
    refine wp_bind_mono (wp_true _ _) ?_
    intro _ v _
    rw [wp_bind, wp_modify, wp_pure]
    refine ⟨ent.xaddr, .write ⟨?_, ?_⟩ ?_ ?_, rfl⟩ <;>
      simp only [CPUI386.fillDtlbWrite, Function.update_self]
  · intro hb
    have h1 : rwm = 1 := by
      rcases hrwm with rfl | rfl
      · rfl
      · exact absurd (by decide) hb
    subst h1
    rw [wp_bind, wp_modify, wp_pure]
    refine ⟨ent.xaddr, .read ⟨?_, ?_⟩ ?_, rfl⟩ <;>
      simp only [CPUI386.fillDtlbRead, Function.update_self]

theorem translateLpgnoFast_held (hrwm : rwm = 1 ∨ rwm = 2) :
    wp (translateLpgnoFast rwm lpgno laddr cpl)
      (fun a s' => ∃ x, s'.Held lpgno cpl x rwm ∧ a = x ^^^ laddr) (fun _ => True)
      (fun _ => True) s := by
  unfold translateLpgnoFast
  rw [wp_bind, wp_get]
  refine wp_ite ?_ ?_
  · rintro ⟨rfl, hit⟩
    rw [wp_pure]
    exact ⟨_, .read hit rfl, rfl⟩
  · intro hmiss
    refine wp_ite ?_ ?_
    · rintro ⟨rfl, hit⟩
      rw [wp_pure]
      exact ⟨_, .readWrite (fun h => hmiss ⟨rfl, h⟩) hit rfl, rfl⟩
    · intro _
      refine wp_ite ?_ (fun _ => translateLpgnoFill_held hrwm)
      rintro ⟨rfl, hit⟩
      rw [wp_bind]
      refine wp_onlyIf ?_ ?_
      · intro _
        refine wp_bind_mono (markPteDirty_frame _) ?_
        intro _ t ht
        rw [wp_modify, wp_pure, ht]
        refine ⟨_, .write ⟨?_, ?_⟩ ?_ rfl, ?_⟩
        · simp only [Function.update_self]
          exact hit.1
        · simp only [Function.update_self]
          exact hit.2
        · simp only [Function.update_self]
        · simp only [Function.update_self]
      · intro hd
        rw [wp_pure]
        exact ⟨_, .write hit (Decidable.not_not.mp hd) rfl, rfl⟩

end Held

/-- The operand at `laddr`, by fast tables alone. -/
structure CPUI386.HeldAt (s : CPUI386) (rwm : Nat) (laddr : Word) (size cpl : Nat) (m : OptAddr) :
    Prop where
  flat : hasBit s.cr0 cr0PG = false → m = ⟨laddr, none⟩
  first : hasBit s.cr0 cr0PG = true → s.Held (laddr >>> 12) cpl (m.addr1 ^^^ laddr) rwm
  inPage : ¬ Straddles laddr size → m.addr2 = none
  second : hasBit s.cr0 cr0PG = true → Straddles laddr size → ∃ x,
    s.Held (nextPage laddr) cpl x rwm ∧ m.addr2 = some (x ^^^ (nextPage laddr <<< 12))

section HeldAt

variable {s s' : CPUI386} {rwm size cpl : Nat} {laddr laddr' : Word} {m : OptAddr}

theorem CPUI386.HeldAt.run (h : s.HeldAt rwm laddr size cpl m) :
    translateLaddr rwm laddr size cpl s = .ok m s := by
  unfold translateLaddr
  rw [get_bind_run]
  by_cases hpg : hasBit s.cr0 cr0PG = true
  · rw [if_pos hpg, bind_run_ok ((h.first hpg).run laddr), xor_cancel]
    by_cases hst : Straddles laddr size
    · obtain ⟨x, hx, hm⟩ := h.second hpg hst
      refine (congrFun (if_pos hst) s).trans ?_
      refine (bind_run_ok (hx.run _)).trans ?_
      refine congrArg (fun a => Result.ok (OptAddr.mk m.addr1 a) s) hm.symm
    · refine (congrFun (if_neg hst) s).trans ?_
      rw [← h.inPage hst]
      rfl
  · rw [if_neg hpg]
    rw [h.flat (Bool.eq_false_of_not_eq_true hpg)]
    rfl

theorem CPUI386.HeldAt.congr (h : s.HeldAt rwm laddr size cpl m) (hr : s'.dtlbRead = s.dtlbRead)
    (hw : s'.dtlbWrite = s.dtlbWrite) (hc : s'.cr0 = s.cr0) : s'.HeldAt rwm laddr size cpl m where
  flat hpg := h.flat (by rw [← hc]; exact hpg)
  first hpg := (h.first (by rw [← hc]; exact hpg)).congr (by rw [hr]) (by rw [hw])
  inPage := h.inPage
  second hpg hst := by
    obtain ⟨x, hx, hm⟩ := h.second (by rw [← hc]; exact hpg) hst
    exact ⟨x, hx.congr (by rw [hr]) (by rw [hw]), hm⟩

theorem translateLaddr_held (ha : s.Aligned) (hrwm : rwm = 1 ∨ rwm = 2) :
    wp (translateLaddr rwm laddr size cpl) (fun m s' => s'.HeldAt rwm laddr size cpl m)
      (fun _ => True) (fun _ => True) s := by
  unfold translateLaddr
  rw [wp_bind, wp_get]
  refine wp_ite ?_ ?_
  · intro hpg
    rw [wp_bind]
    refine wp_mono (wp_and (translateLpgnoFast_lookup ha (ne_noPage_of_laddr laddr))
      (translateLpgnoFast_held hrwm)) ?_ (fun _ _ => trivial) (fun _ _ => trivial)
    rintro addr1 t ⟨⟨htr, -, -⟩, x, hx, rfl⟩
    refine wp_ite ?_ ?_
    · intro hst
      rw [wp_bind]
      refine wp_mono (wp_and (translateLpgnoFast_lookup htr.aligned (nextPage_ne_noPage laddr))
        (translateLpgnoFast_held hrwm)) ?_ (fun _ _ => trivial) (fun _ _ => trivial)
      rintro addr2 u ⟨⟨htr2, -, -⟩, x2, hx2, rfl⟩
      have hback := htr2.other (laddr >>> 12) (Ne.symm (nextPage_slot laddr))
      rw [wp_pure]
      refine ⟨?_, ?_, fun h => absurd hst h, fun _ _ => ⟨x2, hx2, rfl⟩⟩
      · intro hno
        rw [(htr.cached.trans htr2.cached).rest] at hno
        exact absurd (hpg.symm.trans hno) (by decide)
      · intro _
        rw [xor_cancel]
        exact hx.congr hback.read hback.write
    · intro hst
      rw [wp_pure]
      refine ⟨?_, ?_, fun _ => rfl, fun _ h => absurd h hst⟩
      · intro hno
        rw [htr.cached.rest] at hno
        exact absurd (hpg.symm.trans hno) (by decide)
      · intro _
        rw [xor_cancel]
        exact hx
  · intro hpg
    rw [wp_pure]
    exact ⟨fun _ => rfl, fun h => absurd h hpg, fun _ => rfl, fun h => absurd h hpg⟩

theorem xor_sub {x a b : Word} (hx : x &&& 0xfff = 0) (h : a >>> 12 = b >>> 12) :
    x ^^^ b = (x ^^^ a) + (b - a) := by
  have hx0 : offset 12 x = 0 := by
    rw [offset_and, hx]
    rfl
  have key : ∀ c d : Word, page 12 c = page 12 d → offset 12 c ≤ offset 12 d →
      x ^^^ d = (x ^^^ c) + (d - c) := by
    intro c d hp hle
    have hd : d = c + BitVec.ofNat 32 (offset 12 d - offset 12 c) := by
      apply BitVec.eq_of_toNat_eq
      have hlt : offset 12 c + (offset 12 d - offset 12 c) < 2 ^ 12 := by
        rw [Nat.add_sub_cancel' hle]
        exact offset_lt d
      rw [toNat_add_of_lt (by decide) hlt, toNat_eq (k := 12) d, toNat_eq (k := 12) c, hp]
      omega
    have hlt : offset 12 c + (offset 12 d - offset 12 c) < 2 ^ 12 := by
      rw [Nat.add_sub_cancel' hle]
      exact offset_lt d
    have hsub : d - c = BitVec.ofNat 32 (offset 12 d - offset 12 c) := by
      generalize BitVec.ofNat 32 (offset 12 d - offset 12 c) = e at hd
      rw [hd]
      bv_omega
    rw [hsub, ← xor_add (by decide) hx0 hlt, ← hd]
  have hp : page 12 a = page 12 b := by rw [page_lshr, page_lshr, h]
  rcases Nat.le_total (offset 12 a) (offset 12 b) with hle | hle
  · exact key a b hp hle
  · have hk := key b a hp.symm hle
    rw [hk]
    generalize x ^^^ b = y
    bv_omega

theorem CPUI386.HeldAt.move (h : s.HeldAt rwm laddr size cpl m) (ha : s.Aligned)
    (hp : laddr >>> 12 = laddr' >>> 12) (hs : ¬ Straddles laddr size)
    (hs' : ¬ Straddles laddr' size) :
    s.HeldAt rwm laddr' size cpl { m with addr1 := m.addr1 + (laddr' - laddr) } where
  flat hpg := by
    rw [h.flat hpg]
    congr 1
    bv_omega
  first hpg := by
    have hf := h.first hpg
    have hx := hf.aligned ha (ne_noPage_of_laddr laddr)
    have hm := xor_sub hx hp
    rw [xor_cancel] at hm
    simp only [← hm, xor_cancel, ← hp]
    exact hf
  inPage _ := h.inPage hs
  second _ hst := absurd hst hs'

end HeldAt

theorem translateW_run (w : Width) (rwm : Nat) (seg : SegReg) (addr : Word) (s : CPUI386) :
    translateW w rwm seg addr s =
      (segcheck seg >>= fun _ =>
        translateLaddr rwm ((s.seg seg).base + addr) (w.bits / 8) s.cpl) s := by
  cases w with
  | b8 => rfl
  | b16 => rfl
  | b32 => rfl

/-- The operand is held, and its segment may be used. -/
structure CPUI386.Settled (s : CPUI386) (w : Width) (rwm : Nat) (seg : SegReg) (addr : Word)
    (m : OptAddr) : Prop where
  usable : ¬ NullSegment s seg
  held : s.HeldAt rwm ((s.seg seg).base + addr) (w.bits / 8) s.cpl m

section Settled

variable {s s' : CPUI386} {w : Width} {rwm : Nat} {seg : SegReg} {addr addr' : Word} {m : OptAddr}

theorem segcheck_run (h : ¬ NullSegment s seg) : segcheck seg s = .ok () s := by
  unfold segcheck
  rw [get_bind_run]
  exact congrFun (if_neg h) s

theorem CPUI386.Settled.run (h : s.Settled w rwm seg addr m) :
    translateW w rwm seg addr s = .ok m s := by
  rw [translateW_run, bind_run_ok (segcheck_run h.usable)]
  exact h.held.run

theorem CPUI386.Settled.congr (h : s.Settled w rwm seg addr m) (hr : s'.dtlbRead = s.dtlbRead)
    (hw : s'.dtlbWrite = s.dtlbWrite) (hc : s'.cr0 = s.cr0) (hseg : s'.seg = s.seg)
    (hcpl : s'.cpl = s.cpl) : s'.Settled w rwm seg addr m where
  usable := by
    rw [nullSegment_congr hc hseg]
    exact h.usable
  held := by
    rw [hseg, hcpl]
    exact h.held.congr hr hw hc

theorem CPUI386.Settled.move (h : s.Settled w rwm seg addr m) (ha : s.Aligned)
    (hp : ((s.seg seg).base + addr) >>> 12 = ((s.seg seg).base + addr') >>> 12)
    (hs : ¬ Straddles ((s.seg seg).base + addr) (w.bits / 8))
    (hs' : ¬ Straddles ((s.seg seg).base + addr') (w.bits / 8)) :
    s.Settled w rwm seg addr' { m with addr1 := m.addr1 + (addr' - addr) } where
  usable := h.usable
  held := by
    have hm := h.held.move ha hp hs hs'
    have hd : (s.seg seg).base + addr' - ((s.seg seg).base + addr) = addr' - addr := by bv_omega
    rw [hd] at hm
    exact hm

theorem wp_translateW {post : OptAddr → CPUI386 → Prop} {flt : CPUI386 → Prop} {stp : Stop → Prop}
    (hn : NullSegment s seg → flt { s with excno := exGP, excerr := 0 })
    (h : ¬ NullSegment s seg →
      wp (translateLaddr rwm ((s.seg seg).base + addr) (w.bits / 8) s.cpl) post flt stp s) :
    wp (translateW w rwm seg addr) post flt stp s := by
  have hseg : wp (segcheck seg >>= fun _ =>
      translateLaddr rwm ((s.seg seg).base + addr) (w.bits / 8) s.cpl) post flt stp s := by
    rw [wp_bind]
    exact wp_segcheck hn h
  unfold wp at hseg ⊢
  rw [translateW_run]
  exact hseg

theorem translateW_settled (ha : s.Aligned) (hrwm : rwm = 1 ∨ rwm = 2) :
    wp (translateW w rwm seg addr)
      (fun m s' => s'.Settled w rwm seg addr m ∧ Cached s s' ∧ s'.Aligned) (fun _ => True)
      (fun _ => True) s := by
  refine wp_translateW (fun _ => trivial) ?_
  intro hseg
  refine wp_mono (wp_and (translateLaddr_operand ha) (translateLaddr_held ha hrwm)) ?_
    (fun _ _ => trivial) (fun _ _ => trivial)
  rintro m t ⟨⟨hc, hat, -, -⟩, hm⟩
  refine ⟨⟨?_, ?_⟩, hc, hat⟩
  · rw [hc.rest]
    exact hseg
  · have hs : t.seg = s.seg := by rw [hc.rest]
    have hcpl : t.cpl = s.cpl := by rw [hc.rest]
    rw [hs, hcpl]
    exact hm

end Settled

end Winspire.Cpu
