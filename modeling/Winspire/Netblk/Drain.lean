import Winspire.Netblk.Disk
import Winspire.Netblk.Table

/-!
# What a drain does

The write side of the client holds sectors in two places: the pending write buffer and the
dirty table, the table being newer. The invariant `WriteSide` survives every failure. A drain
in which no run of the table fails moves both into the image in the right order.
-/

namespace Winspire.Netblk

open Interaction

set_option autoImplicit false

/-- What the pending write buffer holds for a sector. -/
def BlockDeviceNet.pendingAt (bn : BlockDeviceNet) (x : Nat) : Option Sector :=
  if bn.writeSector ≤ x ∧ x < bn.writeSector + bn.writeSectors
  then some (bn.writeBuffer (x - bn.writeSector)) else none

/-- The newest data the client still holds for a sector. -/
def BlockDeviceNet.newest (bn : BlockDeviceNet) (x : Nat) : Option Sector :=
  (dirtyData bn.writeback x).or (bn.pendingAt x)

def BlockDeviceNet.contents (bn : BlockDeviceNet) (image : Nat → Sector) (x : Nat) : Sector :=
  (bn.newest x).getD (image x)

/-- The test `netblk_write_async` and `netblk_flush` start with. -/
def BlockDeviceNet.canWrite (bn : BlockDeviceNet) : Prop :=
  bn.readOnly = false ∧ bn.writable = true

structure WriteSide (readOnly : Bool) (sectorCount : Nat) (bn : BlockDeviceNet) : Prop where
  nbSectors_eq : bn.nbSectors = sectorCount
  sectorCount_lt : sectorCount < 2 ^ 54
  pending_le : bn.writeSectors ≤ netblkWriteBufferSectors
  pending_in : bn.writeSectors ≠ 0 → bn.writeSector + bn.writeSectors ≤ sectorCount
  table_le : bn.writeback.length ≤ netblkWritebackSectors
  table_in : ∀ e ∈ bn.writeback, e.sector < sectorCount
  unique : DirtyUnique bn.writeback
  notReady : bn.writebackReady = false → bn.writeback = []
  ready_enabled : bn.writebackReady = true → bn.writebackEnabled = true
  writable : bn.writable = true → readOnly = false
  held_writable : bn.writeSectors ≠ 0 ∨ bn.writeback ≠ [] → bn.canWrite

abbrev WriteSideAt (d : Disk) (bn : BlockDeviceNet) : Prop :=
  WriteSide d.cfg.readOnly d.sectorCount bn

/-- A WRITE that succeeded put `v` into sector `x`. -/
def carried (log : List (Request × Bool)) (x : Nat) (v : Sector) : Prop :=
  ∃ site lba data, (Request.write site lba data, true) ∈ log ∧ lba ≤ x ∧ data[x - lba]? = some v

/-- The link goes on: the same server, more requests, and only those that may fail failed. -/
structure Extends (mayFail : Request → Prop) (l l' : Link) : Prop where
  cfg : l'.disk.cfg = l.disk.cfg
  sectorCount : l'.disk.sectorCount = l.disk.sectorCount
  log : ∃ new, l'.log = new ++ l.log ∧ ∀ e ∈ new, e.2 = false → mayFail e.1

namespace Extends
variable {mayFail : Request → Prop} {l l' l'' : Link}

theorem refl (l : Link) : Extends mayFail l l := ⟨rfl, rfl, [], rfl, by simp⟩

theorem trans (h : Extends mayFail l l') (h' : Extends mayFail l' l'') :
    Extends mayFail l l'' := by
  obtain ⟨new, hnew, hfail⟩ := h.log
  obtain ⟨new', hnew', hfail'⟩ := h'.log
  refine ⟨h'.cfg.trans h.cfg, h'.sectorCount.trans h.sectorCount, new' ++ new, ?_, ?_⟩
  · rw [hnew', hnew, List.append_assoc]
  · intro e he
    rcases List.mem_append.mp he with he | he
    · exact hfail' e he
    · exact hfail e he

theorem ok (l : Link) (q : Request) :
    Extends mayFail l ⟨l.disk.after q, (q, true) :: l.log⟩ := by
  refine ⟨by simp, by simp, [(q, true)], rfl, ?_⟩
  intro e he
  obtain rfl := List.mem_singleton.mp he
  exact fun h => absurd h (by simp)

theorem failed (l : Link) (img : Nat → Sector) {q : Request} (h : mayFail q) :
    Extends mayFail l ⟨l.disk.damage img q, (q, false) :: l.log⟩ := by
  refine ⟨by simp, by simp, [(q, false)], rfl, ?_⟩
  intro e he
  obtain rfl := List.mem_singleton.mp he
  exact fun _ => h

theorem mem (h : Extends mayFail l l') {e : Request × Bool} (he : e ∈ l.log) : e ∈ l'.log := by
  obtain ⟨new, hnew, _⟩ := h.log
  rw [hnew]
  exact List.mem_append_right _ he

theorem carried (h : Extends mayFail l l') {x : Nat} {v : Sector}
    (hc : Netblk.carried l.log x v) : Netblk.carried l'.log x v := by
  obtain ⟨site, lba, data, hmem, hrest⟩ := hc
  exact ⟨site, lba, data, h.mem hmem, hrest⟩

theorem writeSide {bn : BlockDeviceNet} (h : Extends mayFail l l') (hbn : WriteSideAt l.disk bn) :
    WriteSideAt l'.disk bn := by
  unfold WriteSideAt
  rw [h.cfg, h.sectorCount]
  exact hbn

end Extends

def pendingRequest (bn : BlockDeviceNet) : Request :=
  .write .pending bn.writeSector (slice bn.writeBuffer 0 bn.writeSectors)

theorem pendingRequest_admitted {d : Disk} {bn : BlockDeviceNet} (h : WriteSideAt d bn)
    (hne : bn.writeSectors ≠ 0) : d.admits (pendingRequest bn) := by
  have hin := h.pending_in hne
  have hle := h.pending_le
  refine ⟨h.writable (h.held_writable (Or.inl hne)).2, ?_, ?_, ?_⟩
  · simpa using Nat.pos_of_ne_zero hne
  · simpa [netblkMaxSectors, netblkWriteBufferSectors] using hle
  · simpa using hin

theorem wp_netblkFlushWrites {mayFail : Request → Prop} {bn : BlockDeviceNet} {l : Link}
    {Q : Int × BlockDeviceNet → Link → Prop} (h : WriteSideAt l.disk bn)
    (hempty : bn.writeSectors = 0 → Q (0, bn) l)
    (hok : bn.writeSectors ≠ 0 → Q (0, { bn with writeSectors := 0 })
      ⟨l.disk.after (pendingRequest bn), (pendingRequest bn, true) :: l.log⟩)
    (hfail : bn.writeSectors ≠ 0 → mayFail (pendingRequest bn) → ∀ img, Q (-1, bn)
      ⟨l.disk.damage img (pendingRequest bn), (pendingRequest bn, false) :: l.log⟩) :
    wp (link mayFail) (netblkFlushWrites bn) Q l := by
  unfold netblkFlushWrites
  split
  · rename_i hz
    exact hempty hz
  · rename_i hne
    apply wp_request (pendingRequest_admitted h hne)
    · exact hok hne
    · exact hfail hne

theorem pendingAt_eq (bn : BlockDeviceNet) (x : Nat) :
    bn.pendingAt x = if bn.writeSector ≤ x ∧ x < bn.writeSector + bn.writeSectors
      then some (bn.writeBuffer (x - bn.writeSector)) else none := rfl

theorem pendingAt_zero {bn : BlockDeviceNet} (h : bn.writeSectors = 0) (x : Nat) :
    bn.pendingAt x = none := by
  rw [pendingAt_eq, if_neg (by omega)]

theorem pending_image (bn : BlockDeviceNet) (image : Nat → Sector) (x : Nat) :
    blit image bn.writeSector (slice bn.writeBuffer 0 bn.writeSectors) x =
      (bn.pendingAt x).getD (image x) := by
  rw [blit_slice_apply, pendingAt_eq]
  split
  · rw [Nat.zero_add]; rfl
  · rfl

theorem pending_carried {bn : BlockDeviceNet} {x : Nat} {v : Sector} (h : bn.pendingAt x = some v)
    (log : List (Request × Bool)) : carried ((pendingRequest bn, true) :: log) x v := by
  rw [pendingAt_eq] at h
  split at h
  · rename_i hx
    refine ⟨_, _, _, List.mem_cons_self, hx.1, ?_⟩
    rw [List.getElem?_eq_getElem (by simp; omega), getElem_slice, Nat.zero_add]
    exact h
  · exact absurd h (by simp)

/-- The part of the state a drain works on. -/
def BlockDeviceNet.withWrites (bn : BlockDeviceNet) (buffer : Nat → Sector) (writeSectors : Nat)
    (writeback : List WritebackEntry) (flushes : Nat) : BlockDeviceNet :=
  { bn with
    writeBuffer := buffer
    writeSectors := writeSectors
    writeback := writeback
    writebackFlushes := flushes }

structure Gathered (bn : BlockDeviceNet) (sector run : Nat) (bn' : BlockDeviceNet) (run' : Nat) :
    Prop where
  frame : ∃ buffer tbl, bn' = { bn with writeBuffer := buffer, writeback := tbl }
  length : bn'.writeback.length = bn.writeback.length
  sectors : bn'.writeback.map (·.sector) = bn.writeback.map (·.sector)
  unique : DirtyUnique bn'.writeback
  run_le : run ≤ run'
  kept : ∀ i < run, bn'.writeBuffer i = bn.writeBuffer i
  copied : ∀ i, run ≤ i → i < run' → dirtyData bn.writeback (sector + i) = some (bn'.writeBuffer i)
  cleaned : ∀ x, dirtyData bn'.writeback x =
    if sector + run ≤ x ∧ x < sector + run' then none else dirtyData bn.writeback x
  count : dirtyCount bn'.writeback + (run' - run) = dirtyCount bn.writeback

theorem gathered_refl {bn : BlockDeviceNet} (hu : DirtyUnique bn.writeback) (sector run : Nat) :
    Gathered bn sector run bn run where
  frame := ⟨_, _, rfl⟩
  length := rfl
  sectors := rfl
  unique := hu
  run_le := Nat.le_refl _
  kept := fun _ _ => rfl
  copied := fun i h₁ h₂ => absurd h₁ (by omega)
  cleaned := fun x => by rw [if_neg (by omega)]
  count := by omega

theorem netblkWritebackFind_some {bn : BlockDeviceNet} {x idx : Nat}
    (h : netblkWritebackFind bn x = some idx) :
    ∃ pre e post, bn.writeback = pre ++ e :: post ∧ pre.length = idx ∧ e.hits x = true ∧
      dirtyData pre x = none := by
  unfold netblkWritebackFind at h
  split at h
  · exact findIdx_split h
  · exact absurd h (by simp)

theorem netblkWritebackFind_none {bn : BlockDeviceNet} {x : Nat}
    (hready : bn.writebackReady = false → bn.writeback = [])
    (h : netblkWritebackFind bn x = none) : dirtyData bn.writeback x = none := by
  unfold netblkWritebackFind at h
  split at h
  · exact findIdx_none h
  · rename_i hr
    rw [hready (by simpa using hr)]
    rfl

theorem gathered_step {bn : BlockDeviceNet} {sector run run' : Nat} {bn' : BlockDeviceNet}
    {pre post : List WritebackEntry} {e : WritebackEntry} (htbl : bn.writeback = pre ++ e :: post)
    (hu : DirtyUnique bn.writeback) (he : e.hits (sector + run) = true)
    (hpre : dirtyData pre (sector + run) = none)
    (h : Gathered { bn with
      writeBuffer := blit bn.writeBuffer run [e.data]
      writeback := pre ++ { e with dirty := false } :: post } sector (run + 1) bn' run') :
    Gathered bn sector run bn' run' := by
  have hclean := dirtyData_clean (htbl ▸ hu) he hpre
  have hcount := dirtyCount_clean pre post ((hits_iff e _).mp he).1
  obtain ⟨buffer, tbl, rfl⟩ := h.frame
  have hrun := h.run_le
  constructor
  · exact ⟨buffer, tbl, rfl⟩
  · rw [h.length, htbl]
    simp
  · rw [h.sectors, htbl]
    simp
  · exact h.unique
  · omega
  · intro i hi
    rw [h.kept i (by omega)]
    exact blit_apply_of_lt _ _ hi
  · intro i hlo hhi
    by_cases hi : i = run
    · subst hi
      have hcell := blit_apply_add bn.writeBuffer i [e.data] (j := 0) (by simp)
      simp only [Nat.add_zero, List.getElem_cons_zero] at hcell
      rw [h.kept i (by omega), htbl, dirtyData_entry he hpre]
      exact congrArg some hcell.symm
    · have hrest := h.copied i (by omega) hhi
      rw [hclean, if_neg (by omega)] at hrest
      rw [htbl]
      exact hrest
  · intro x
    rw [h.cleaned, htbl, hclean]
    by_cases hx : x = sector + run
    · subst hx
      rw [if_neg (by omega), if_pos rfl, if_pos (by omega)]
    · by_cases hin : sector + (run + 1) ≤ x ∧ x < sector + run'
      · rw [if_pos hin, if_pos (by omega)]
      · rw [if_neg hin, if_neg hx, if_neg (by omega)]
  · have hc := h.count
    simp only at hc
    rw [htbl]
    simp only
    omega

theorem netblkGatherRun_hit {sector run idx : Nat} {bn : BlockDeviceNet} (left : Nat)
    (hfind : netblkWritebackFind bn (sector + run) = some idx) :
    ∃ pre e post, bn.writeback = pre ++ e :: post ∧ e.hits (sector + run) = true ∧
      dirtyData pre (sector + run) = none ∧
      netblkGatherRun sector (left + 1) run bn =
        netblkGatherRun sector left (run + 1) { bn with
          writeBuffer := blit bn.writeBuffer run [e.data]
          writeback := pre ++ { e with dirty := false } :: post } := by
  obtain ⟨pre, e, post, htbl, hlen, he, hpre⟩ := netblkWritebackFind_some hfind
  have hget : bn.writeback[idx]? = some e := by
    rw [htbl, ← hlen]
    simp
  have hset : bn.writeback.set idx { e with dirty := false } =
      pre ++ { e with dirty := false } :: post := by
    rw [htbl, ← hlen]
    simp
  refine ⟨pre, e, post, htbl, he, hpre, ?_⟩
  rw [netblkGatherRun, hfind]
  simp only [hget, hset]

theorem netblkGatherRun_spec (sector left run : Nat) (bn : BlockDeviceNet)
    (hu : DirtyUnique bn.writeback) :
    Gathered bn sector run (netblkGatherRun sector left run bn).1
        (netblkGatherRun sector left run bn).2 ∧
      (netblkGatherRun sector left run bn).2 ≤ run + left := by
  induction left generalizing run bn with
  | zero => exact ⟨gathered_refl hu sector run, Nat.le_refl _⟩
  | succ left ih =>
    cases hfind : netblkWritebackFind bn (sector + run) with
    | none =>
      rw [netblkGatherRun, hfind]
      exact ⟨gathered_refl hu sector run, by simp⟩
    | some idx =>
      obtain ⟨pre, e, post, htbl, he, hpre, hstep⟩ := netblkGatherRun_hit left hfind
      rw [hstep]
      rw [htbl] at hu
      have hrec := ih (run + 1) { bn with
        writeBuffer := blit bn.writeBuffer run [e.data]
        writeback := pre ++ { e with dirty := false } :: post }
        (dirtyUnique_replace (e := e) rfl (fun h => absurd h (by simp)) hu)
      refine ⟨gathered_step htbl (htbl ▸ hu) he hpre hrec.1, ?_⟩
      have hle := hrec.2
      omega

theorem netblkGatherRun_pos {sector left : Nat} {bn : BlockDeviceNet} {v : Sector}
    (hu : DirtyUnique bn.writeback) (hready : bn.writebackReady = false → bn.writeback = [])
    (hd : dirtyData bn.writeback sector = some v) :
    0 < (netblkGatherRun sector (left + 1) 0 bn).2 := by
  cases hfind : netblkWritebackFind bn (sector + 0) with
  | none =>
    have hno := netblkWritebackFind_none hready hfind
    rw [Nat.add_zero, hd] at hno
    exact absurd hno (by simp)
  | some idx =>
    obtain ⟨pre, e, post, htbl, he, hpre, hstep⟩ := netblkGatherRun_hit left hfind
    rw [hstep]
    rw [htbl] at hu
    have hspec := netblkGatherRun_spec sector left (0 + 1) { bn with
      writeBuffer := blit bn.writeBuffer 0 [e.data]
      writeback := pre ++ { e with dirty := false } :: post }
      (dirtyUnique_replace (e := e) rfl (fun h => absurd h (by simp)) hu)
    exact hspec.1.run_le

end Winspire.Netblk
