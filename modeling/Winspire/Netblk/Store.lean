import Winspire.Netblk.Commit

/-!
# Storing writes

What `netblk_write_async` does to the disk the guest sees, and to the data the client holds
for it. Each step of the client lays some new data over the disk (`Advance`), drains lay
nothing over it, and steps compose.
-/

namespace Winspire.Netblk

open Interaction

set_option autoImplicit false

/-- `w` has been laid over the disk the guest sees, and everything the client held or was given
is held still, unless a request has carried it. -/
structure Moves (w : Nat → Option Sector) (bn : BlockDeviceNet) (l : Link) (bn' : BlockDeviceNet)
    (l' : Link) : Prop where
  contents : ∀ x, bn'.contents l'.disk.image x = (w x).getD (bn.contents l.disk.image x)
  held : ∀ x v, (w x).or (bn.newest x) = some v → bn'.newest x = some v ∨ carried l'.log x v

structure WriteFrame (bn bn' : BlockDeviceNet) : Prop where
  readOnly : bn'.readOnly = bn.readOnly
  writable : bn'.writable = bn.writable
  maxSectors : bn'.maxSectors = bn.maxSectors
  prefetchSectors : bn'.prefetchSectors = bn.prefetchSectors
  nbSectors : bn'.nbSectors = bn.nbSectors
  readCache : bn'.readCache = bn.readCache
  readCacheNext : bn'.readCacheNext = bn.readCacheNext
  writebackEnabled : bn'.writebackEnabled = bn.writebackEnabled
  ready : bn.writebackReady = true → bn'.writebackReady = true

/-- What holds of every step of the write side, whatever fails. -/
structure Steady (mayFail : Request → Prop) (bn : BlockDeviceNet) (l : Link)
    (bn' : BlockDeviceNet) (l' : Link) : Prop where
  side : WriteSideAt l'.disk bn'
  ext : Extends mayFail l l'
  frame : WriteFrame bn bn'

structure Advance (mayFail : Request → Prop) (w : Nat → Option Sector) (bn : BlockDeviceNet)
    (l : Link) (bn' : BlockDeviceNet) (l' : Link) : Prop extends
    Steady mayFail bn l bn' l' where
  moves : Moves w bn l bn' l'

def nothing : Nat → Option Sector := fun _ => none

theorem overlay_nil_eq (a : Nat) : overlay a ([] : List Sector) = nothing :=
  funext (overlay_nil a)

theorem WriteFrame.refl (bn : BlockDeviceNet) : WriteFrame bn bn :=
  ⟨rfl, rfl, rfl, rfl, rfl, rfl, rfl, rfl, id⟩

theorem WriteFrame.trans {bn bn' bn'' : BlockDeviceNet} (h : WriteFrame bn bn')
    (h' : WriteFrame bn' bn'') : WriteFrame bn bn'' where
  readOnly := h'.readOnly.trans h.readOnly
  writable := h'.writable.trans h.writable
  maxSectors := h'.maxSectors.trans h.maxSectors
  prefetchSectors := h'.prefetchSectors.trans h.prefetchSectors
  nbSectors := h'.nbSectors.trans h.nbSectors
  readCache := h'.readCache.trans h.readCache
  readCacheNext := h'.readCacheNext.trans h.readCacheNext
  writebackEnabled := h'.writebackEnabled.trans h.writebackEnabled
  ready := fun hr => h'.ready (h.ready hr)

theorem WriteFrame.canWrite {bn bn' : BlockDeviceNet} (h : WriteFrame bn bn') (hw : bn.canWrite) :
    bn'.canWrite :=
  ⟨h.readOnly.trans hw.1, h.writable.trans hw.2⟩

theorem WriteFrame.withWrites (bn : BlockDeviceNet) (buffer : Nat → Sector) (writeSectors : Nat)
    (tbl : List WritebackEntry) (flushes : Nat) :
    WriteFrame bn (bn.withWrites buffer writeSectors tbl flushes) :=
  ⟨rfl, rfl, rfl, rfl, rfl, rfl, rfl, rfl, id⟩

section Compose
variable {mayFail : Request → Prop} {w w' : Nat → Option Sector} {bn bn' bn'' : BlockDeviceNet}
  {l l' l'' : Link}

theorem Moves.refl (bn : BlockDeviceNet) (l : Link) : Moves nothing bn l bn l :=
  ⟨fun _ => rfl, fun _ _ h => Or.inl h⟩

theorem Moves.trans (h : Moves w bn l bn' l') (hext : Extends mayFail l' l'')
    (h' : Moves w' bn' l' bn'' l'') :
    Moves (fun x => (w' x).or (w x)) bn l bn'' l'' := by
  refine ⟨fun x => ?_, fun x v hv => ?_⟩
  · rw [h'.contents, h.contents]
    cases w' x <;> rfl
  · cases hw : w' x with
    | some u =>
      rw [hw] at hv
      refine h'.held x v ?_
      rw [hw]
      exact hv
    | none =>
      rw [hw, Option.none_or] at hv
      rcases h.held x v hv with hn | hc
      · refine h'.held x v ?_
        rw [hw, Option.none_or]
        exact hn
      · exact Or.inr (hext.carried hc)

theorem Moves.after_nothing (h : Moves nothing bn l bn' l') (hext : Extends mayFail l' l'')
    (h' : Moves w' bn' l' bn'' l'') : Moves w' bn l bn'' l'' := by
  have htrans := h.trans hext h'
  simpa [nothing] using htrans

theorem Moves.then_nothing (h : Moves w bn l bn' l') (hext : Extends mayFail l' l'')
    (h' : Moves nothing bn' l' bn'' l'') : Moves w bn l bn'' l'' := by
  have htrans := h.trans hext h'
  simpa [nothing] using htrans

theorem Steady.refl (h : WriteSideAt l.disk bn) : Steady mayFail bn l bn l :=
  ⟨h, Extends.refl l, WriteFrame.refl bn⟩

theorem Steady.trans (h : Steady mayFail bn l bn' l') (h' : Steady mayFail bn' l' bn'' l'') :
    Steady mayFail bn l bn'' l'' :=
  ⟨h'.side, h.ext.trans h'.ext, h.frame.trans h'.frame⟩

end Compose

theorem committed_moves {mayFail : Request → Prop} {bn : BlockDeviceNet} {l l' : Link}
    {r : Int × BlockDeviceNet} (hpost : DrainPost mayFail bn l r l') (hc : Committed bn l r l') :
    Moves nothing bn l r.2 l' := by
  obtain ⟨htbl, hzero⟩ := hpost.empty hc.rc
  refine ⟨fun x => ?_, fun x v hv => Or.inr (hc.newest x v hv)⟩
  rw [BlockDeviceNet.contents, newest_of_no_pending hzero, htbl]
  exact hc.image x

theorem untouched_moves {mayFail : Request → Prop} {bn : BlockDeviceNet} {l l' : Link}
    {r : Int × BlockDeviceNet} (hu : Untouched mayFail bn l r l') : Moves nothing bn l r.2 l' := by
  rw [hu.same]
  exact ⟨hu.contents, fun x v hv => Or.inl hv⟩

/-- What a drain does. Only a failed run of the table loses data. -/
structure Drained (mayFail : Request → Prop) (bn : BlockDeviceNet) (l : Link)
    (r : Int × BlockDeviceNet) (l' : Link) : Prop extends Steady mayFail bn l r.2 l' where
  rc : r.1 = 0 ∨ r.1 = -1
  empty : r.1 = 0 → r.2.writeback = [] ∧ r.2.writeSectors = 0
  moves : TableSafe mayFail → Moves nothing bn l r.2 l'
  failed : TableSafe mayFail → r.1 = -1 → mayFail (pendingRequest bn)

theorem wp_drain {mayFail : Request → Prop} {bn : BlockDeviceNet} {l : Link}
    (h : WriteSideAt l.disk bn) :
    wp (link mayFail) (netblkDrainWrites bn) (fun r l' => Drained mayFail bn l r l') l := by
  refine wp_mono (wp_netblkDrainWrites h) fun r l' ⟨hpost, hor⟩ => ?_
  have hframe : WriteFrame bn r.2 := by
    obtain ⟨buffer, writeSectors, tbl, flushes, heq⟩ := hpost.frame
    rw [heq]
    exact WriteFrame.withWrites bn buffer writeSectors tbl flushes
  refine ⟨⟨hpost.side, hpost.ext, hframe⟩, hpost.rc, hpost.empty, fun hsafe => ?_,
    fun hsafe hrc => ?_⟩
  · rcases hor hsafe with hc | hu
    · exact committed_moves hpost hc
    · exact untouched_moves hu
  · rcases hor hsafe with hc | hu
    · exact absurd (hc.rc.symm.trans hrc) (by decide)
    · exact hu.may

theorem Drained.some_mayFail {mayFail : Request → Prop} {bn : BlockDeviceNet} {l l' : Link}
    {r : Int × BlockDeviceNet} (h : Drained mayFail bn l r l') (hrc : r.1 = -1) :
    ∃ q, mayFail q := by
  by_cases hsafe : TableSafe mayFail
  · exact ⟨_, h.failed hsafe hrc⟩
  · simp only [TableSafe, not_forall, not_not] at hsafe
    obtain ⟨lba, data, hmay⟩ := hsafe
    exact ⟨_, hmay⟩

theorem flushed_moves (bn : BlockDeviceNet) (l : Link) :
    Moves nothing bn l { bn with writeSectors := 0 }
      ⟨l.disk.after (pendingRequest bn), (pendingRequest bn, true) :: l.log⟩ := by
  refine ⟨fun x => flushed_contents bn l.disk.image x, fun x v hv => ?_⟩
  rw [nothing, Option.none_or, BlockDeviceNet.newest, Option.or_eq_some_iff] at hv
  rcases hv with hd | ⟨_, hpend⟩
  · refine Or.inl ?_
    rw [newest_of_no_pending rfl]
    exact hd
  · exact Or.inr (pending_carried hpend l.log)

theorem wp_flush_advance {mayFail : Request → Prop} {bn : BlockDeviceNet} {l : Link}
    (h : WriteSideAt l.disk bn) :
    wp (link mayFail) (netblkFlushWrites bn) (fun r l' => Advance mayFail nothing bn l r.2 l' ∧
      (r.1 = 0 ∧ r.2 = { bn with writeSectors := 0 } ∨
        r.1 = -1 ∧ r.2 = bn ∧ mayFail (pendingRequest bn))) l := by
  apply wp_netblkFlushWrites h
  · intro hz
    refine ⟨⟨Steady.refl h, Moves.refl bn l⟩, Or.inl ⟨rfl, ?_⟩⟩
    rw [← hz]
  · intro _
    have hext : Extends mayFail l _ := Extends.ok l (pendingRequest bn)
    exact ⟨⟨⟨hext.writeSide h.flushed, hext, ⟨rfl, rfl, rfl, rfl, rfl, rfl, rfl, rfl, id⟩⟩,
      flushed_moves bn l⟩, Or.inl ⟨rfl, rfl⟩⟩
  · intro _ hmay img
    have hext := Extends.failed l img hmay
    exact ⟨⟨⟨hext.writeSide h, hext, WriteFrame.refl bn⟩,
      fun x => damaged_contents bn l.disk img x, fun x v hv => Or.inl hv⟩, Or.inr ⟨rfl, rfl, hmay⟩⟩

/-- A sector put into the table, over whatever the client held for it. -/
theorem put_moves {bn : BlockDeviceNet} {tbl : List WritebackEntry} {x : Nat} {v : Sector}
    (h : ∀ y, dirtyData tbl y = if y = x then some v else dirtyData bn.writeback y) (l : Link)
    (stored : Nat) :
    Moves (overlay x [v]) bn l { bn with writeback := tbl, storedSectors := stored } l := by
  have hnewest : ∀ y, { bn with writeback := tbl, storedSectors := stored }.newest y =
      (overlay x [v] y).or (bn.newest y) := by
    intro y
    rw [BlockDeviceNet.newest, BlockDeviceNet.newest, h y, overlay_singleton]
    split <;> rfl
  refine ⟨fun y => ?_, fun y u hu => Or.inl ((hnewest y).trans hu)⟩
  rw [BlockDeviceNet.contents, hnewest, BlockDeviceNet.contents]
  cases overlay x [v] y <;> rfl

/-- A changed table that keeps to the disk and to one dirty entry for each sector. -/
theorem WriteSide.retable {ro : Bool} {count : Nat} {bn : BlockDeviceNet} {tbl : List WritebackEntry}
    (h : WriteSide ro count bn) (hready : bn.writebackReady = true) (hw : bn.canWrite)
    (hlen : tbl.length ≤ netblkWritebackSectors) (hin : ∀ e ∈ tbl, e.sector < count)
    (hu : DirtyUnique tbl) (stored : Nat) :
    WriteSide ro count { bn with writeback := tbl, storedSectors := stored } where
  nbSectors_eq := h.nbSectors_eq
  sectorCount_lt := h.sectorCount_lt
  pending_le := h.pending_le
  pending_in := h.pending_in
  table_le := hlen
  table_in := hin
  unique := hu
  notReady := fun hr => absurd (hready.symm.trans hr) (by simp)
  ready_enabled := h.ready_enabled
  writable := h.writable
  held_writable := fun _ => hw

theorem overwrite_advance {mayFail : Request → Prop} {bn : BlockDeviceNet} {l : Link} {x idx : Nat}
    (h : WriteSideAt l.disk bn) (hready : bn.writebackReady = true)
    (hfind : netblkWritebackFind bn x = some idx) (v : Sector) :
    Advance mayFail (overlay x [v]) bn l { bn with
      writeback := bn.writeback.set idx ⟨x, v, true⟩
      storedSectors := bn.storedSectors + 1 } l := by
  obtain ⟨pre, e, post, htbl, hlen, he, hpre⟩ := netblkWritebackFind_some hfind
  have hset : bn.writeback.set idx ⟨x, v, true⟩ = pre ++ ⟨x, v, true⟩ :: post := by
    rw [htbl, ← hlen]
    simp
  obtain ⟨hdirty, hsector⟩ := (hits_iff e x).mp he
  have hw := h.held_writable (Or.inr (by rw [htbl]; simp))
  have hle := h.table_le
  have hu := h.unique
  have hin := h.table_in
  rw [htbl] at hle hu hin
  rw [hset]
  refine ⟨⟨h.retable hready hw (by simpa using hle) ?_ ?_ _, Extends.refl l,
    ⟨rfl, rfl, rfl, rfl, rfl, rfl, rfl, rfl, id⟩⟩, put_moves (fun y => ?_) l _⟩
  · intro f hf
    rcases List.mem_append.mp hf with hf | hf
    · exact hin f (List.mem_append_left _ hf)
    · rcases List.mem_cons.mp hf with rfl | hf
      · have hlt := hin e (by simp)
        rwa [hsector] at hlt
      · exact hin f (List.mem_append_right _ (List.mem_cons_of_mem _ hf))
  · exact dirtyUnique_replace hsector.symm (fun _ => hdirty) hu
  · rw [dirtyData_overwrite he hpre v y, htbl]

theorem push_advance {mayFail : Request → Prop} {bn : BlockDeviceNet} {l : Link} {x : Nat}
    (h : WriteSideAt l.disk bn) (hready : bn.writebackReady = true)
    (hw : bn.canWrite) (hx : x < l.disk.sectorCount)
    (hroom : bn.writeback.length < netblkWritebackSectors)
    (hclean : dirtyData bn.writeback x = none) (v : Sector) :
    Advance mayFail (overlay x [v]) bn l { bn with
      writeback := bn.writeback ++ [⟨x, v, true⟩]
      storedSectors := bn.storedSectors + 1 } l := by
  refine ⟨⟨h.retable hready hw (by simpa using Nat.succ_le_of_lt hroom) ?_
    (dirtyUnique_push h.unique hclean v) _, Extends.refl l,
    ⟨rfl, rfl, rfl, rfl, rfl, rfl, rfl, rfl, id⟩⟩, put_moves (fun y => dirtyData_push hclean v y) l _⟩
  intro e he
  rcases List.mem_append.mp he with he | he
  · exact h.table_in e he
  · obtain rfl := List.mem_singleton.mp he
    exact hx

/-- Either nothing can fail, or the table has room for all of the request. -/
def StoreSafe (mayFail : Request → Prop) (bn : BlockDeviceNet) (left : Nat) : Prop :=
  (∀ q, ¬mayFail q) ∨ bn.writeback.length + left ≤ netblkWritebackSectors

structure LoopPost (mayFail : Request → Prop) (safe : Prop) (w : Nat → Option Sector)
    (bn : BlockDeviceNet) (l : Link) (r : Int × BlockDeviceNet) (l' : Link) : Prop extends
    Steady mayFail bn l r.2 l' where
  rc : r.1 = 1 ∨ r.1 = -1
  stored : safe → r.1 = 1 ∧ Moves w bn l r.2 l'

theorem wp_netblkStoreLoop {mayFail : Request → Prop} {sectorNum : Nat} {buf : Nat → Sector}
    (left s : Nat) {bn : BlockDeviceNet} {l : Link} (h : WriteSideAt l.disk bn)
    (hready : bn.writebackReady = true) (hw : bn.canWrite)
    (hin : sectorNum + s + left ≤ l.disk.sectorCount) :
    wp (link mayFail) (netblkStoreLoop sectorNum buf left s bn) (fun r l' =>
      LoopPost mayFail (StoreSafe mayFail bn left) (overlay (sectorNum + s) (slice buf s left))
        bn l r l') l := by
  induction left generalizing s bn l with
  | zero =>
    refine ⟨Steady.refl h, Or.inl rfl, fun _ => ⟨rfl, ?_⟩⟩
    rw [slice_zero, overlay_nil_eq]
    exact Moves.refl bn l
  | succ left ih =>
    -- the rest of the loop, once sector `s` is in the table
    have hrest : ∀ (bn' : BlockDeviceNet) (l' : Link), Steady mayFail bn l bn' l' →
        (StoreSafe mayFail bn (left + 1) → StoreSafe mayFail bn' left ∧
          Moves (overlay (sectorNum + s) [buf s]) bn l bn' l') →
        wp (link mayFail) (netblkStoreLoop sectorNum buf left (s + 1) bn') (fun r l' =>
          LoopPost mayFail (StoreSafe mayFail bn (left + 1))
            (overlay (sectorNum + s) (slice buf s (left + 1))) bn l r l') l' := by
      intro bn' l' hput hmoves
      have hrec := ih (s + 1) hput.side (hput.frame.ready hready) (hput.frame.canWrite hw)
        (by rw [hput.ext.sectorCount]; omega)
      refine wp_mono hrec fun r l'' hpost => ⟨hput.trans hpost.toSteady, hpost.rc, fun hsafe => ?_⟩
      obtain ⟨hsafe', hm⟩ := hmoves hsafe
      obtain ⟨hrc, hm'⟩ := hpost.stored hsafe'
      refine ⟨hrc, ?_⟩
      rw [slice_succ]
      simpa only [← overlay_cons, ← Nat.add_assoc] using hm.trans hpost.ext hm'
    unfold netblkStoreLoop
    cases hfind : netblkWritebackFind bn (sectorNum + s) with
    | some idx =>
      have hput : Advance mayFail _ bn l _ l := overwrite_advance h hready hfind (buf s)
      refine hrest _ _ hput.toSteady fun hsafe => ⟨hsafe.imp_right fun hroom => ?_, hput.moves⟩
      simp only [List.length_set]
      omega
    | none =>
      have hclean := netblkWritebackFind_none h.notReady hfind
      simp only
      by_cases hfull : netblkWritebackSectors ≤ bn.writeback.length
      · rw [if_pos hfull, wp_bind]
        have hnever : StoreSafe mayFail bn (left + 1) → ∀ q, ¬mayFail q := by
          rintro (hnever | hroom)
          · exact hnever
          · omega
        refine wp_mono (wp_drain h) fun r l' hdrain => ?_
        obtain ⟨rc, bn'⟩ := r
        rcases hdrain.rc with hrc | hrc
        · obtain ⟨htbl, _⟩ := hdrain.empty hrc
          simp only at hrc htbl ⊢
          rw [hrc, if_neg (by decide)]
          have hput : Advance mayFail (overlay (sectorNum + s) [buf s]) bn' l' _ l' :=
            push_advance hdrain.side (hdrain.frame.ready hready) (hdrain.frame.canWrite hw)
              (by rw [hdrain.ext.sectorCount]; omega) (by rw [htbl]; decide) (by rw [htbl]; rfl)
              (buf s)
          refine hrest _ _ (hdrain.toSteady.trans hput.toSteady) fun hsafe => ?_
          have hquiet := hnever hsafe
          exact ⟨Or.inl hquiet,
            (hdrain.moves fun _ _ => hquiet _).after_nothing hput.ext hput.moves⟩
        · simp only at hrc ⊢
          rw [hrc, if_pos (by decide)]
          refine ⟨hdrain.toSteady, Or.inr rfl, fun hsafe => ?_⟩
          have hquiet := hnever hsafe
          exact absurd (hdrain.failed (fun _ _ => hquiet _) hrc) (hquiet _)
      · rw [if_neg hfull]
        have hput : Advance mayFail (overlay (sectorNum + s) [buf s]) bn l _ l :=
          push_advance h hready hw (by omega) (by omega) hclean (buf s)
        refine hrest _ _ hput.toSteady fun hsafe => ⟨hsafe.imp_right fun hroom => ?_, hput.moves⟩
        simp only [List.length_append, List.length_singleton]
        omega

section Append
variable {bn : BlockDeviceNet} {sectorNum n : Nat} {buf : Nat → Sector}
  (hnext : bn.writeSectors = 0 ∨ bn.writeSector + bn.writeSectors = sectorNum)
include hnext

theorem appended_pendingAt (x : Nat) :
    (bn.appended sectorNum buf n).pendingAt x =
      (overlay sectorNum (slice buf 0 n) x).or (bn.pendingAt x) := by
  have hstart : (bn.appended sectorNum buf n).writeSector + bn.writeSectors = sectorNum := by
    unfold BlockDeviceNet.appended
    rcases hnext with hz | heq
    · simp [hz]
    · by_cases hz : bn.writeSectors = 0
      · simp [hz]
      · simp [hz, heq]
  have hwas : bn.writeSectors ≠ 0 → (bn.appended sectorNum buf n).writeSector = bn.writeSector := by
    intro hne
    simp [BlockDeviceNet.appended, hne]
  rw [pendingAt_eq, pendingAt_eq, overlay_slice]
  generalize hw : (bn.appended sectorNum buf n).writeSector = start at hstart hwas
  simp only [BlockDeviceNet.appended, blit_slice_apply]
  by_cases hx : sectorNum ≤ x ∧ x < sectorNum + n
  · rw [if_pos (by omega), if_pos (by omega), if_pos hx, Option.some_or,
      show x - start - bn.writeSectors = x - sectorNum by omega]
  · rw [if_neg hx, Option.none_or]
    by_cases hold : bn.writeSector ≤ x ∧ x < bn.writeSector + bn.writeSectors
    · have heq := hwas (by omega)
      rw [if_pos (by omega), if_neg (by omega), if_pos hold, heq]
    · rw [if_neg (by by_cases hz : bn.writeSectors = 0 <;> omega), if_neg hold]

theorem appended_keeps (hempty : n = 0 ∨ bn.writeback = []) {x : Nat} {v : Sector}
    (hv : bn.newest x = some v) : (bn.appended sectorNum buf n).newest x = some v := by
  rw [BlockDeviceNet.newest, appended_pendingAt hnext, overlay_slice]
  rw [BlockDeviceNet.newest] at hv
  change ((dirtyData bn.writeback x).or _) = some v
  rcases hempty with rfl | htbl
  · rw [if_neg (by omega), Option.none_or]
    exact hv
  · rw [htbl, dirtyData_nil, Option.none_or, pendingAt_eq] at hv
    rw [htbl, dirtyData_nil, Option.none_or, if_neg, Option.none_or, pendingAt_eq]
    · exact hv
    · intro hx
      split at hv
      · omega
      · exact absurd hv (by simp)

theorem appended_advance {mayFail : Request → Prop} {l : Link} (h : WriteSideAt l.disk bn)
    (hw : bn.canWrite) (hin : sectorNum + n ≤ l.disk.sectorCount)
    (hle : bn.writeSectors + n ≤ netblkWriteBufferSectors) (hempty : n = 0 ∨ bn.writeback = []) :
    Advance mayFail (overlay sectorNum (slice buf 0 n)) bn l (bn.appended sectorNum buf n) l := by
  have hnewest : ∀ x, (bn.appended sectorNum buf n).newest x =
      (overlay sectorNum (slice buf 0 n) x).or (bn.newest x) := by
    intro x
    rw [BlockDeviceNet.newest, appended_pendingAt hnext, BlockDeviceNet.newest]
    change (dirtyData bn.writeback x).or _ = _
    rcases hempty with rfl | htbl
    · rw [slice_zero, overlay_nil, Option.none_or, Option.none_or]
    · rw [htbl, dirtyData_nil, Option.none_or, Option.none_or]
  refine ⟨⟨?_, Extends.refl l, ⟨rfl, rfl, rfl, rfl, rfl, rfl, rfl, rfl, id⟩⟩, fun x => ?_,
    fun x v hv => Or.inl ((hnewest x).trans hv)⟩
  · refine ⟨h.nbSectors_eq, h.sectorCount_lt, hle, fun _ => ?_, h.table_le, h.table_in, h.unique,
      h.notReady, h.ready_enabled, h.writable, fun _ => hw⟩
    unfold BlockDeviceNet.appended
    simp only
    split <;> omega
  · rw [BlockDeviceNet.contents, hnewest, BlockDeviceNet.contents]
    cases overlay sectorNum (slice buf 0 n) x <;> rfl

end Append

/-- What a write call does to the client, apart from the read cache. -/
structure WritePost (mayFail : Request → Prop) (safe : Prop) (w : Nat → Option Sector)
    (bn : BlockDeviceNet) (l : Link) (r : Int × BlockDeviceNet) (l' : Link) : Prop where
  steady : Steady mayFail bn l r.2 l'
  rc : r.1 = 0 ∨ r.1 = -1
  stored : safe → r.1 = 0 → Moves w bn l r.2 l'
  kept : safe → r.1 = -1 → ∀ x v, bn.newest x = some v → r.2.newest x = some v ∨ carried l'.log x v

section Write
variable {mayFail : Request → Prop} {sectorNum n : Nat} {buf : Nat → Sector}

theorem appended_full {bn : BlockDeviceNet} {l : Link} (h : WriteSideAt l.disk bn)
    (hnext : bn.writeSectors = 0 ∨ bn.writeSector + bn.writeSectors = sectorNum)
    (hw : bn.canWrite) (hin : sectorNum + n ≤ l.disk.sectorCount)
    (hle : bn.writeSectors + n ≤ netblkWriteBufferSectors) (hempty : n = 0 ∨ bn.writeback = []) :
    wp (link mayFail) (if (bn.appended sectorNum buf n).writeSectors ≥ netblkWriteBufferSectors
        then netblkFlushWrites (bn.appended sectorNum buf n)
        else .ret (0, bn.appended sectorNum buf n))
      (fun r l' => WritePost mayFail True (overlay sectorNum (slice buf 0 n)) bn l r l') l := by
  have happ : Advance mayFail (overlay sectorNum (slice buf 0 n)) bn l
      (bn.appended sectorNum buf n) l := appended_advance hnext h hw hin hle hempty
  split
  · refine wp_mono (wp_flush_advance happ.side) fun r l' ⟨hadv, hor⟩ => ?_
    refine ⟨happ.toSteady.trans hadv.toSteady, hor.imp And.left And.left,
      fun _ _ => happ.moves.then_nothing hadv.ext hadv.moves, fun _ _ x v hv => ?_⟩
    exact hadv.moves.held x v (appended_keeps hnext hempty hv)
  · exact ⟨happ.toSteady, Or.inl rfl, fun _ _ => happ.moves, fun _ hrc => absurd hrc (by simp)⟩

theorem wp_netblkBufferWrite {bn : BlockDeviceNet} {l : Link} (h : WriteSideAt l.disk bn)
    (hw : bn.canWrite) (hin : sectorNum + n ≤ l.disk.sectorCount)
    (hle : n ≤ netblkWriteBufferSectors) (hempty : n = 0 ∨ bn.writeback = []) :
    wp (link mayFail) (netblkBufferWrite bn sectorNum buf n)
      (fun r l' => WritePost mayFail True (overlay sectorNum (slice buf 0 n)) bn l r l') l := by
  unfold netblkBufferWrite
  split
  · rw [wp_bind]
    refine wp_mono (wp_flush_advance h) fun r l' ⟨hadv, hor⟩ => ?_
    obtain ⟨rc, bn'⟩ := r
    rcases hor with ⟨hrc, hbn⟩ | ⟨hrc, hbn, _⟩
    · simp only at hrc hbn hadv ⊢
      rw [hrc, if_neg (by decide)]
      have hrest := @appended_full mayFail sectorNum n buf bn' l' hadv.side (Or.inl (by rw [hbn]))
        (hadv.frame.canWrite hw) (hadv.ext.sectorCount ▸ hin) (by rw [hbn]; simpa using hle)
        (by rw [hbn]; exact hempty)
      refine wp_mono hrest fun r l'' hpost => ⟨hadv.toSteady.trans hpost.steady, hpost.rc,
        fun hs hrc => hadv.moves.after_nothing hpost.steady.ext (hpost.stored hs hrc),
        fun hs hrc x v hv => ?_⟩
      rcases hadv.moves.held x v hv with hn | hc
      · exact hpost.kept hs hrc x v hn
      · exact Or.inr (hpost.steady.ext.carried hc)
    · simp only at hrc hbn hadv ⊢
      rw [hrc, if_pos (by decide)]
      exact ⟨hadv.toSteady, Or.inr rfl, fun _ hz => absurd hz (by simp),
        fun _ _ x v hv => hadv.moves.held x v hv⟩
  · rename_i hfits
    apply appended_full h _ hw hin _ hempty
    · omega
    · omega

theorem Steady.allocated {bn : BlockDeviceNet} {l : Link} (h : WriteSideAt l.disk bn)
    (hen : bn.writebackEnabled = true) :
    Steady mayFail bn l { bn with writebackReady := true } l where
  side := ⟨h.nbSectors_eq, h.sectorCount_lt, h.pending_le, h.pending_in, h.table_le, h.table_in,
    h.unique, fun hr => absurd hr (by simp), fun _ => hen, h.writable, h.held_writable⟩
  ext := Extends.refl l
  frame := ⟨rfl, rfl, rfl, rfl, rfl, rfl, rfl, rfl, fun _ => rfl⟩

/-- The table takes the request, or the call has not changed anything and the table is empty. -/
theorem wp_netblkStoreWrite {bn : BlockDeviceNet} {l : Link} (h : WriteSideAt l.disk bn)
    (hw : bn.canWrite) (hin : sectorNum + n ≤ l.disk.sectorCount)
    (hle : n ≤ netblkWritebackSectors) :
    wp (link mayFail) (netblkStoreWrite bn sectorNum buf n) (fun r l' =>
      (r.1 = 0 ∧ r.2 = bn ∧ l' = l ∧ (n = 0 ∨ bn.writeback = [])) ∨
      LoopPost mayFail (bn.writebackReady = true → n ≠ 0 → ∀ q, ¬mayFail q)
        (overlay sectorNum (slice buf 0 n)) bn l r l') l := by
  unfold netblkStoreWrite
  split
  · rename_i hor
    refine Or.inl ⟨rfl, rfl, rfl, ?_⟩
    rcases hor with hen | hn
    · refine Or.inr (h.notReady ?_)
      cases hr : bn.writebackReady with
      | false => rfl
      | true => exact absurd (h.ready_enabled hr) hen
    · exact Or.inl hn
  · rename_i hand
    have hen : bn.writebackEnabled = true := by
      by_contra hne
      exact hand (Or.inl hne)
    have hn : n ≠ 0 := fun hz => hand (Or.inr hz)
    unfold netblkAllocWrites
    rw [if_neg (by simp [hen])]
    cases hready : bn.writebackReady with
    | true =>
      simp only [if_true, Prog.ret_bind, not_true, if_false]
      have hloop := @wp_netblkStoreLoop mayFail sectorNum buf n 0 bn l h hready hw (by omega)
      refine wp_mono hloop fun r l' hpost => Or.inr ⟨hpost.toSteady, hpost.rc, fun hsafe => ?_⟩
      exact hpost.stored (Or.inl (hsafe trivial hn))
    | false =>
      have htbl := h.notReady hready
      simp only [Bool.false_eq_true, if_false]
      intro ok l' hl
      obtain rfl : l' = l := hl
      cases ok with
      | false =>
        refine Or.inl ⟨rfl, ?_, rfl, Or.inr htbl⟩
        rw [← hready]
      | true =>
        have halloc : Steady mayFail bn l' _ l' := Steady.allocated h hen
        have hloop := @wp_netblkStoreLoop mayFail sectorNum buf n 0 _ l' halloc.side rfl hw
          (by omega)
        refine wp_mono hloop fun r l'' hpost =>
          Or.inr ⟨halloc.trans hpost.toSteady, hpost.rc, fun _ => ?_⟩
        obtain ⟨hrc, hmoves⟩ := hpost.stored (Or.inr (by simpa [htbl] using hle))
        exact ⟨hrc, hmoves.contents, hmoves.held⟩

theorem netblkInvalidate_eq (bn : BlockDeviceNet) (sectorNum n : Nat) :
    netblkInvalidate bn sectorNum n =
      { bn with readCache := (netblkInvalidate bn sectorNum n).readCache } := by
  unfold netblkInvalidate
  split <;> rfl

theorem WriteSide.recached {ro : Bool} {count : Nat} {bn : BlockDeviceNet}
    (h : WriteSide ro count bn) (cache : List ReadWindow) :
    WriteSide ro count { bn with readCache := cache } :=
  ⟨h.nbSectors_eq, h.sectorCount_lt, h.pending_le, h.pending_in, h.table_le, h.table_in, h.unique,
    h.notReady, h.ready_enabled, h.writable, h.held_writable⟩

theorem wp_netblkWriteAsync {bn : BlockDeviceNet} {l : Link} {n : Int} (h : WriteSideAt l.disk bn)
    (hmax : bn.maxSectors ≤ netblkMaxSectors) :
    wp (link mayFail) (netblkWriteAsync bn sectorNum buf n) (fun r l' =>
      (r = (-1, bn) ∧ l' = l) ∨
      (0 ≤ n ∧ sectorNum + n.toNat ≤ bn.nbSectors ∧
        WritePost mayFail (bn.writebackReady = true → n ≠ 0 → ∀ q, ¬mayFail q)
          (overlay sectorNum (slice buf 0 n.toNat)) (netblkInvalidate bn sectorNum n.toNat)
          l r l')) l := by
  unfold netblkWriteAsync
  split
  · exact Or.inl ⟨rfl, rfl⟩
  · rename_i hguard
    simp only [not_or, not_lt, not_not, gt_iff_lt] at hguard
    obtain ⟨hro, hwritable, hpos, hn, hsector, hfits⟩ := hguard
    have hnb := h.nbSectors_eq
    have hw : bn.canWrite := ⟨by simpa using hro, hwritable⟩
    lift n to Nat using hpos with m
    rw [netblkInvalidate_eq]
    generalize (netblkInvalidate bn sectorNum (m : Int).toNat).readCache = cache
    have hside := h.recached cache
    simp only [Int.toNat_natCast, netblkMaxSectors] at hmax ⊢
    have hin : sectorNum + m ≤ l.disk.sectorCount := by omega
    have hm : m ≤ netblkWriteBufferSectors := by
      simp only [netblkWriteBufferSectors]
      omega
    have hm' : m ≤ netblkWritebackSectors := by
      simp only [netblkWriteBufferSectors, netblkWritebackSectors] at hm ⊢
      omega
    rw [if_pos hm', wp_bind]
    refine wp_mono (wp_netblkStoreWrite hside hw hin hm') fun r l' hstore => ?_
    obtain ⟨rc, bn'⟩ := r
    rcases hstore with ⟨hrc, hbn, rfl, hempty⟩ | hpost
    · simp only at hrc hbn ⊢
      rw [hrc, if_neg (by decide), if_neg (by omega), hbn]
      refine wp_mono (wp_netblkBufferWrite hside hw hin hm hempty) fun r l'' hpost => ?_
      exact Or.inr ⟨by omega, by omega, hpost.steady, hpost.rc, fun _ => hpost.stored trivial,
        fun _ => hpost.kept trivial⟩
    · have hne : rc ≠ 0 := by
        rcases hpost.rc with hrc | hrc <;> simp only at hrc <;> omega
      simp only
      rw [if_pos hne]
      refine Or.inr ⟨by omega, by omega, hpost.toSteady, Or.inl rfl, fun hsafe _ => ?_,
        fun _ hrc => absurd hrc (by simp)⟩
      exact (hpost.stored fun hr hne => hsafe hr (by simpa using hne)).2

end Write

end Winspire.Netblk
