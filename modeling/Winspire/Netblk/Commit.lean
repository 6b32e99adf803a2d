import Winspire.Netblk.Drain

/-!
# Draining commits

`netblk_drain_writes` under any pattern of failures: what it may change, and, when no run of
the table fails, that the image ends up with the newest data of every sector.
-/

namespace Winspire.Netblk

open Interaction

set_option autoImplicit false

/-- What holds after a drain, whatever failed. -/
structure DrainPost (mayFail : Request → Prop) (bn : BlockDeviceNet) (l : Link)
    (r : Int × BlockDeviceNet) (l' : Link) : Prop where
  frame : ∃ buffer writeSectors tbl flushes, r.2 = bn.withWrites buffer writeSectors tbl flushes
  side : WriteSideAt l'.disk r.2
  ext : Extends mayFail l l'
  rc : r.1 = 0 ∨ r.1 = -1
  empty : r.1 = 0 → r.2.writeback = [] ∧ r.2.writeSectors = 0

/-- The image has become what the guest should see. -/
structure Committed (bn : BlockDeviceNet) (l : Link) (r : Int × BlockDeviceNet) (l' : Link) :
    Prop where
  rc : r.1 = 0
  image : ∀ x, l'.disk.image x = bn.contents l.disk.image x
  newest : ∀ x v, bn.newest x = some v → carried l'.log x v

/-- No WRITE of a run gathered from the table can fail. -/
def TableSafe (mayFail : Request → Prop) : Prop := ∀ lba data, ¬mayFail (.write .table lba data)

theorem newest_of_no_pending {bn : BlockDeviceNet} (h : bn.writeSectors = 0) (x : Nat) :
    bn.newest x = dirtyData bn.writeback x := by
  rw [BlockDeviceNet.newest, pendingAt_zero h, Option.or_none]

theorem WriteSide.dirty_lt {ro : Bool} {count x : Nat} {bn : BlockDeviceNet} {v : Sector}
    (h : WriteSide ro count bn) (hd : dirtyData bn.writeback x = some v) : x < count := by
  obtain ⟨e, he, _⟩ := Option.map_eq_some_iff.mp hd
  have hhit := List.find?_some he
  have hin := h.table_in e (List.mem_of_find?_eq_some he)
  rwa [((hits_iff e x).mp hhit).2] at hin

theorem WriteSide.ready_of_dirty {ro : Bool} {count x : Nat} {bn : BlockDeviceNet} {v : Sector}
    (h : WriteSide ro count bn) (hd : dirtyData bn.writeback x = some v) :
    bn.writebackReady = true := by
  cases hr : bn.writebackReady with
  | true => rfl
  | false =>
    rw [h.notReady hr] at hd
    exact absurd hd (by simp)

theorem WriteSide.cleared {ro : Bool} {count : Nat} {bn : BlockDeviceNet}
    (h : WriteSide ro count bn) (buffer : Nat → Sector) (flushes : Nat) :
    WriteSide ro count (bn.withWrites buffer 0 [] flushes) where
  nbSectors_eq := h.nbSectors_eq
  sectorCount_lt := h.sectorCount_lt
  pending_le := Nat.zero_le _
  pending_in := fun hne => absurd rfl hne
  table_le := Nat.zero_le _
  table_in := by simp [BlockDeviceNet.withWrites]
  unique := List.Pairwise.nil
  notReady := fun _ => rfl
  ready_enabled := h.ready_enabled
  writable := h.writable
  held_writable := by simp [BlockDeviceNet.withWrites]

theorem WriteSide.counted {ro : Bool} {count : Nat} {bn : BlockDeviceNet}
    (h : WriteSide ro count bn) (flushes : Nat) :
    WriteSide ro count { bn with writebackFlushes := flushes } :=
  ⟨h.nbSectors_eq, h.sectorCount_lt, h.pending_le, h.pending_in, h.table_le, h.table_in, h.unique,
    h.notReady, h.ready_enabled, h.writable, h.held_writable⟩

theorem WriteSide.gathered {ro : Bool} {count sector run run' : Nat} {bn bn' : BlockDeviceNet}
    (h : WriteSide ro count bn) (hg : Gathered bn sector run bn' run') :
    WriteSide ro count bn' := by
  have hlen := hg.length
  have hsec := hg.sectors
  have hu := hg.unique
  obtain ⟨buffer, tbl, rfl⟩ := hg.frame
  refine ⟨h.nbSectors_eq, h.sectorCount_lt, h.pending_le, h.pending_in, ?_, ?_, hu, ?_,
    h.ready_enabled, h.writable, ?_⟩
  · rw [hlen]
    exact h.table_le
  · intro e he
    have hmem : e.sector ∈ bn.writeback.map (·.sector) := hsec ▸ List.mem_map_of_mem he
    obtain ⟨e', he', heq⟩ := List.mem_map.mp hmem
    rw [← heq]
    exact h.table_in e' he'
  · intro hr
    rw [h.notReady hr] at hlen
    exact List.eq_nil_of_length_eq_zero hlen
  · rintro (hne | hne)
    · exact h.held_writable (Or.inl hne)
    · refine h.held_writable (Or.inr fun hnil => hne ?_)
      rw [hnil] at hlen
      exact List.eq_nil_of_length_eq_zero hlen

theorem tableRequest_admitted {d : Disk} {bn bn' : BlockDeviceNet} {sector run : Nat} {v : Sector}
    (h : WriteSideAt d bn) (hd : dirtyData bn.writeback sector = some v)
    (hg : Gathered bn sector 0 bn' run) (hpos : run ≠ 0) (hle : run ≤ netblkWriteBufferSectors) :
    d.admits (.write .table sector (slice bn'.writeBuffer 0 run)) := by
  have hlast := h.dirty_lt (hg.copied (run - 1) (by omega) (by omega))
  have hne : bn.writeback ≠ [] := by
    intro hnil
    rw [hnil] at hd
    exact absurd hd (by simp)
  refine ⟨h.writable (h.held_writable (Or.inr hne)).2, ?_, ?_, ?_⟩
  · simpa using Nat.pos_of_ne_zero hpos
  · simpa [netblkMaxSectors, netblkWriteBufferSectors] using hle
  · rw [length_slice]
    omega

/-- Writing a gathered run to the image leaves the same newest data. -/
theorem gathered_image {bn bn' : BlockDeviceNet} {sector run : Nat}
    (hg : Gathered bn sector 0 bn' run) (image : Nat → Sector) (x : Nat) :
    (dirtyData bn'.writeback x).getD (blit image sector (slice bn'.writeBuffer 0 run) x) =
      (dirtyData bn.writeback x).getD (image x) := by
  rw [hg.cleaned, Nat.add_zero, blit_slice_apply]
  by_cases hx : sector ≤ x ∧ x < sector + run
  · have hcopy := hg.copied (x - sector) (by omega) (by omega)
    rw [show sector + (x - sector) = x by omega] at hcopy
    rw [if_pos hx, if_pos hx, hcopy, Nat.zero_add]
    rfl
  · rw [if_neg hx, if_neg hx]

theorem gathered_carried {bn bn' : BlockDeviceNet} {sector run : Nat}
    (hg : Gathered bn sector 0 bn' run) {x : Nat} {v : Sector}
    (hd : dirtyData bn.writeback x = some v) (hd' : dirtyData bn'.writeback x ≠ some v)
    (log : List (Request × Bool)) :
    carried ((.write .table sector (slice bn'.writeBuffer 0 run), true) :: log) x v := by
  rw [hg.cleaned, Nat.add_zero] at hd'
  split at hd'
  · rename_i hx
    have hcopy := hg.copied (x - sector) (by omega) (by omega)
    rw [show sector + (x - sector) = x by omega, hd] at hcopy
    refine ⟨_, _, _, List.mem_cons_self, hx.1, ?_⟩
    rw [List.getElem?_eq_getElem (by simp; omega), getElem_slice, Nat.zero_add]
    exact hcopy.symm
  · exact absurd hd hd'

theorem drainLoop_done {mayFail : Request → Prop} {bn : BlockDeviceNet} {l : Link}
    (h : WriteSideAt l.disk bn) (hp : bn.writeSectors = 0) (hbest : netblkBestDirty bn = none) :
    DrainPost mayFail bn l (0, { bn with writeback := [] }) l ∧
      Committed bn l (0, { bn with writeback := [] }) l := by
  have hframe : { bn with writeback := [] } =
      bn.withWrites bn.writeBuffer 0 [] bn.writebackFlushes := by
    rw [BlockDeviceNet.withWrites, ← hp]
  have hclean := netblkBestDirty_none hbest fun e he => by
    have hlt := h.table_in e he
    have hcount := h.sectorCount_lt
    omega
  constructor
  · refine ⟨⟨_, _, _, _, hframe⟩, ?_, Extends.refl l, Or.inl rfl, fun _ => ⟨rfl, hp⟩⟩
    rw [hframe]
    exact h.cleared _ _
  · refine ⟨rfl, fun x => ?_, fun x v hv => ?_⟩
    · rw [BlockDeviceNet.contents, newest_of_no_pending hp, hclean x]
      rfl
    · rw [newest_of_no_pending hp, hclean x] at hv
      exact absurd hv (by simp)

/-- A round that sends its run, followed by the rest of the loop. -/
theorem drainLoop_round {mayFail : Request → Prop} {bn bn' : BlockDeviceNet} {sector run : Nat}
    {l l'' : Link} {r : Int × BlockDeviceNet} (hp : bn.writeSectors = 0)
    (hg : Gathered bn sector 0 bn' run)
    (hpost : DrainPost mayFail { bn' with writebackFlushes := bn'.writebackFlushes + 1 }
      ⟨l.disk.after (.write .table sector (slice bn'.writeBuffer 0 run)),
        (.write .table sector (slice bn'.writeBuffer 0 run), true) :: l.log⟩ r l'')
    (hcommit : TableSafe mayFail →
      Committed { bn' with writebackFlushes := bn'.writebackFlushes + 1 }
        ⟨l.disk.after (.write .table sector (slice bn'.writeBuffer 0 run)),
          (.write .table sector (slice bn'.writeBuffer 0 run), true) :: l.log⟩ r l'') :
    DrainPost mayFail bn l r l'' ∧ (TableSafe mayFail → Committed bn l r l'') := by
  have hext : Extends mayFail l l'' := (Extends.ok l _).trans hpost.ext
  have hp' : bn'.writeSectors = 0 := by
    obtain ⟨buffer, tbl, rfl⟩ := hg.frame
    exact hp
  constructor
  · obtain ⟨buffer, writeSectors, tbl, flushes, hframe⟩ := hpost.frame
    obtain ⟨buffer', tbl', rfl⟩ := hg.frame
    exact ⟨⟨buffer, writeSectors, tbl, flushes, hframe⟩, hpost.side, hext, hpost.rc, hpost.empty⟩
  · intro hsafe
    have hc := hcommit hsafe
    refine ⟨hc.rc, fun x => ?_, fun x v hv => ?_⟩
    · rw [hc.image x, BlockDeviceNet.contents, BlockDeviceNet.contents, newest_of_no_pending hp,
        @newest_of_no_pending { bn' with writebackFlushes := bn'.writebackFlushes + 1 } hp']
      exact gathered_image hg l.disk.image x
    · rw [newest_of_no_pending hp] at hv
      by_cases hstill : dirtyData bn'.writeback x = some v
      · apply hc.newest x v
        rw [@newest_of_no_pending { bn' with writebackFlushes := bn'.writebackFlushes + 1 } hp']
        exact hstill
      · exact hpost.ext.carried (gathered_carried hg hv hstill l.log)

theorem wp_netblkDrainLoop {mayFail : Request → Prop} (fuel : Nat) {bn : BlockDeviceNet} {l : Link}
    (h : WriteSideAt l.disk bn) (hp : bn.writeSectors = 0)
    (hfuel : dirtyCount bn.writeback ≤ fuel) :
    wp (link mayFail) (netblkDrainLoop fuel bn) (fun r l' =>
      DrainPost mayFail bn l r l' ∧ (TableSafe mayFail → Committed bn l r l')) l := by
  induction fuel generalizing bn l with
  | zero =>
    unfold netblkDrainLoop
    cases hbest : netblkBestDirty bn with
    | none => exact (drainLoop_done h hp hbest).imp_right fun hc _ => hc
    | some sector =>
      obtain ⟨v, hv⟩ := netblkBestDirty_some hbest
      have hpos := dirtyCount_pos_of_dirtyData hv
      omega
  | succ fuel ih =>
    unfold netblkDrainLoop
    cases hbest : netblkBestDirty bn with
    | none => exact (drainLoop_done h hp hbest).imp_right fun hc _ => hc
    | some sector =>
      obtain ⟨v, hv⟩ := netblkBestDirty_some hbest
      have hspec := netblkGatherRun_spec sector netblkWriteBufferSectors 0 bn h.unique
      have hpos : 0 < (netblkGatherRun sector netblkWriteBufferSectors 0 bn).2 :=
        netblkGatherRun_pos h.unique h.notReady hv
      simp only
      generalize netblkGatherRun sector netblkWriteBufferSectors 0 bn = gathered at hspec hpos ⊢
      obtain ⟨bn', run⟩ := gathered
      obtain ⟨hg, hle⟩ := hspec
      have hside := h.gathered hg
      have hp' : bn'.writeSectors = 0 := by
        obtain ⟨buffer, tbl, rfl⟩ := hg.frame
        exact hp
      simp only at hpos hle ⊢
      rw [if_neg (by omega)]
      apply wp_request (tableRequest_admitted h hv hg (by omega) (by omega))
      · have hcount : dirtyCount bn'.writeback + run = dirtyCount bn.writeback := hg.count
        have hrec := @ih { bn' with writebackFlushes := bn'.writebackFlushes + 1 }
          ⟨l.disk.after (.write .table sector (slice bn'.writeBuffer 0 run)),
            (.write .table sector (slice bn'.writeBuffer 0 run), true) :: l.log⟩
          (hside.counted _) hp' (by simp only; omega)
        exact wp_mono hrec fun r l'' ⟨hpost, hcommit⟩ => drainLoop_round hp hg hpost hcommit
      · intro hmay img
        refine ⟨⟨?_, ?_, Extends.failed l img hmay, Or.inr rfl, fun hrc => absurd hrc (by simp)⟩,
          fun hsafe => absurd hmay (hsafe _ _)⟩
        · obtain ⟨buffer, tbl, rfl⟩ := hg.frame
          exact ⟨buffer, bn.writeSectors, tbl, bn.writebackFlushes, rfl⟩
        · exact (Extends.failed l img hmay).writeSide hside

theorem WriteSide.flushed {ro : Bool} {count : Nat} {bn : BlockDeviceNet}
    (h : WriteSide ro count bn) : WriteSide ro count { bn with writeSectors := 0 } where
  nbSectors_eq := h.nbSectors_eq
  sectorCount_lt := h.sectorCount_lt
  pending_le := Nat.zero_le _
  pending_in := fun hne => absurd rfl hne
  table_le := h.table_le
  table_in := h.table_in
  unique := h.unique
  notReady := h.notReady
  ready_enabled := h.ready_enabled
  writable := h.writable
  held_writable := fun hor => h.held_writable (hor.imp_left fun hne => absurd rfl hne)

theorem flushed_contents (bn : BlockDeviceNet) (image : Nat → Sector) (x : Nat) :
    { bn with writeSectors := 0 }.contents
        (blit image bn.writeSector (slice bn.writeBuffer 0 bn.writeSectors)) x =
      bn.contents image x := by
  rw [BlockDeviceNet.contents, BlockDeviceNet.contents, newest_of_no_pending rfl,
    BlockDeviceNet.newest, pending_image]
  cases dirtyData bn.writeback x <;> rfl

/-- A pending buffer that failed to go out hides whatever it left in the image. -/
theorem damaged_contents (bn : BlockDeviceNet) (d : Disk) (img : Nat → Sector) (x : Nat) :
    bn.contents (d.damage img (pendingRequest bn)).image x = bn.contents d.image x := by
  rw [BlockDeviceNet.contents, BlockDeviceNet.contents]
  cases hn : bn.newest x with
  | some v => rfl
  | none =>
    have hpend : bn.pendingAt x = none := by
      rw [BlockDeviceNet.newest, Option.or_eq_none_iff] at hn
      exact hn.2
    have hout : ¬(bn.writeSector ≤ x ∧ x < bn.writeSector + bn.writeSectors) := by
      intro hin
      rw [pendingAt_eq, if_pos hin] at hpend
      exact absurd hpend (by simp)
    simp only [Disk.damage, pendingRequest, Option.getD_none, length_slice, blit_slice_apply,
      if_neg hout]

/-- A drain that fails although no run of the table can: the pending buffer did not go out. -/
structure Untouched (mayFail : Request → Prop) (bn : BlockDeviceNet) (l : Link)
    (r : Int × BlockDeviceNet) (l' : Link) : Prop where
  may : mayFail (pendingRequest bn)
  rc : r.1 = -1
  same : r.2 = bn
  pending : bn.writeSectors ≠ 0
  contents : ∀ x, bn.contents l'.disk.image x = bn.contents l.disk.image x

theorem committed_of_flushed {bn : BlockDeviceNet} {l l'' : Link} {r : Int × BlockDeviceNet}
    {mayFail : Request → Prop}
    (hext : Extends mayFail ⟨l.disk.after (pendingRequest bn), (pendingRequest bn, true) :: l.log⟩ l'')
    (hc : Committed { bn with writeSectors := 0 }
      ⟨l.disk.after (pendingRequest bn), (pendingRequest bn, true) :: l.log⟩ r l'') :
    Committed bn l r l'' := by
  refine ⟨hc.rc, fun x => ?_, fun x v hv => ?_⟩
  · rw [hc.image x]
    exact flushed_contents bn l.disk.image x
  · rw [BlockDeviceNet.newest, Option.or_eq_some_iff] at hv
    rcases hv with hd | ⟨_, hpend⟩
    · apply hc.newest x v
      rw [newest_of_no_pending rfl]
      exact hd
    · exact hext.carried (pending_carried hpend l.log)

/-- The pending buffer did not go out: the client still holds all it held. -/
theorem drain_failed {mayFail : Request → Prop} {bn : BlockDeviceNet} {l : Link}
    (h : WriteSideAt l.disk bn) (hne : bn.writeSectors ≠ 0) (hmay : mayFail (pendingRequest bn))
    (img : Nat → Sector) :
    DrainPost mayFail bn l (-1, bn)
        ⟨l.disk.damage img (pendingRequest bn), (pendingRequest bn, false) :: l.log⟩ ∧
      Untouched mayFail bn l (-1, bn)
        ⟨l.disk.damage img (pendingRequest bn), (pendingRequest bn, false) :: l.log⟩ := by
  have hext := Extends.failed l img hmay
  refine ⟨⟨⟨_, _, _, _, rfl⟩, hext.writeSide h, hext, Or.inr rfl, fun hrc => absurd hrc (by simp)⟩,
    hmay, rfl, rfl, hne, fun x => damaged_contents bn l.disk img x⟩

/-- The table is empty: the drain is the flush of the pending buffer. -/
theorem wp_drain_pending {mayFail : Request → Prop} {bn : BlockDeviceNet} {l : Link}
    (h : WriteSideAt l.disk bn) (htbl : bn.writeback = []) :
    wp (link mayFail) (netblkFlushWrites bn) (fun r l' => DrainPost mayFail bn l r l' ∧
      (TableSafe mayFail → Committed bn l r l' ∨ Untouched mayFail bn l r l')) l := by
  have hclean : ∀ x, dirtyData bn.writeback x = none := by
    intro x
    rw [htbl]
    rfl
  apply wp_netblkFlushWrites h
  · intro hz
    refine ⟨⟨⟨_, _, _, _, rfl⟩, h, Extends.refl l, Or.inl rfl, fun _ => ⟨htbl, hz⟩⟩, fun _ => ?_⟩
    refine Or.inl ⟨rfl, fun x => ?_, fun x v hv => ?_⟩
    · rw [BlockDeviceNet.contents, newest_of_no_pending hz, hclean x]
      rfl
    · rw [newest_of_no_pending hz, hclean x] at hv
      exact absurd hv (by simp)
  · intro _
    have hext : Extends mayFail l _ := Extends.ok l (pendingRequest bn)
    refine ⟨⟨⟨_, _, _, _, rfl⟩, hext.writeSide h.flushed, hext, Or.inl rfl,
      fun _ => ⟨htbl, rfl⟩⟩, fun _ => Or.inl ?_⟩
    refine ⟨rfl, fun x => ?_, fun x v hv => ?_⟩
    · rw [← flushed_contents bn l.disk.image x, BlockDeviceNet.contents, newest_of_no_pending rfl,
        hclean x]
      rfl
    · rw [BlockDeviceNet.newest, hclean x, Option.none_or] at hv
      exact pending_carried hv l.log
  · intro hne hmay img
    exact (drain_failed h hne hmay img).imp_right fun hu _ => Or.inr hu

theorem wp_netblkDrainWrites {mayFail : Request → Prop} {bn : BlockDeviceNet} {l : Link}
    (h : WriteSideAt l.disk bn) :
    wp (link mayFail) (netblkDrainWrites bn) (fun r l' => DrainPost mayFail bn l r l' ∧
      (TableSafe mayFail → Committed bn l r l' ∨ Untouched mayFail bn l r l')) l := by
  unfold netblkDrainWrites
  split
  · rename_i hempty
    apply wp_drain_pending h
    rcases hempty with hr | hlen
    · exact h.notReady (by simpa using hr)
    · exact List.eq_nil_of_length_eq_zero hlen
  · rw [wp_bind]
    apply wp_netblkFlushWrites h
    · intro hz
      have hloop := @wp_netblkDrainLoop mayFail bn.writeback.length bn l h hz
        (dirtyCount_le_length _)
      exact wp_mono hloop fun r l' hr => hr.imp_right fun hc hsafe => Or.inl (hc hsafe)
    · intro _
      have hext : Extends mayFail l _ := Extends.ok l (pendingRequest bn)
      have hloop := @wp_netblkDrainLoop mayFail bn.writeback.length _ _
        (hext.writeSide h.flushed) rfl (dirtyCount_le_length _)
      refine wp_mono hloop fun r l' ⟨hpost, hcommit⟩ => ⟨?_, fun hsafe => Or.inl ?_⟩
      · obtain ⟨buffer, writeSectors, tbl, flushes, hframe⟩ := hpost.frame
        exact ⟨⟨buffer, writeSectors, tbl, flushes, hframe⟩, hpost.side, hext.trans hpost.ext,
          hpost.rc, hpost.empty⟩
      · exact committed_of_flushed hpost.ext (hcommit hsafe)
    · intro hne hmay img
      exact (drain_failed h hne hmay img).imp_right fun hu _ => Or.inr hu

end Winspire.Netblk
