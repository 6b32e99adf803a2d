import Winspire.Netblk.Socket

/-!
# What the guest may rely on

Durability of flushed writes, truthful acknowledgements, nothing lost by a failed drain, and
reads that see earlier writes; the last three only under a condition, each with the run that
shows why.
-/

namespace Winspire.Netblk

open Interaction

set_option autoImplicit false

/-- A run on a link that fails the requests in `refuse`. -/
def play {α : Type} (refuse : Request → Bool) (p : NetProg α) (disk : Disk) : α × Link :=
  exec (answer refuse) p ⟨disk, []⟩

theorem play_runs {α : Type} {mayFail : Request → Prop} (refuse : Request → Bool)
    (h : ∀ q, refuse q = true → mayFail q) (p : NetProg α) (disk : Disk) :
    Runs (link mayFail) p ⟨disk, []⟩ (play refuse p disk).1 (play refuse p disk).2 :=
  exec_runs id (answer_link h) p ⟨disk, []⟩

theorem play_socket {α : Type} {mayFail : Request → Prop} (refuse : Request → Bool)
    (h : ∀ q, refuse q = true → mayFail q) (p : NetProg α) (disk : Disk) :
    Runs (socket mayFail) p (Link.open ⟨disk, []⟩) (play refuse p disk).1
      (play refuse p disk).2.open :=
  exec_runs Link.open (answer_socket h) p ⟨disk, []⟩

section Play
variable {settings : NetSettings} {d disk : Disk} {faults : Faults}
  {guard : BlockDeviceNet → Disk → NetCall → Prop} {hist : List Step} {bn : BlockDeviceNet}

theorem allocAll_runs (mayFail : Request → Prop) (k : Nat) (l : Link) :
    Runs (link mayFail) (allocAll k) l true l := by
  induction k with
  | zero => exact .ret true l
  | succ k ih =>
    have hok : link mayFail l .alloc true l := rfl
    exact .ask hok ih

theorem request_runs {α : Type} (mayFail : Request → Prop) {q : Request} {l l' : Link} {a : α}
    {k : Option Response → NetProg α} (hadm : l.disk.admits q)
    (hk : Runs (link mayFail) (k (some (l.disk.reply q))) ⟨l.disk.after q, (q, true) :: l.log⟩ a l') :
    Runs (link mayFail) (.ask (.request q) k) l a l' := by
  have hok : link mayFail l (.request q) (some (l.disk.reply q))
      ⟨l.disk.after q, (q, true) :: l.log⟩ := Or.inl ⟨hadm, rfl, rfl⟩
  exact .ask hok hk

theorem netblkPing_runs (mayFail : Request → Prop) (bn : BlockDeviceNet) (info : PingInfo) (l : Link) :
    ∃ l', Runs (link mayFail) (netblkPing bn info) l 0 l' := by
  have hus : link mayFail l .netWaitUs (0 : UInt64) l := rfl
  exact ⟨_, .ask hus (request_runs mayFail trivial (.ret _ _))⟩

theorem init_runs (mayFail : Request → Prop) (settings : NetSettings) (h : d.sectorCount ≠ 0) :
    ∃ log, Runs (link mayFail) (blockDeviceInitNet settings) ⟨d, []⟩
      (some (helloDevice settings d)) ⟨d, log⟩ := by
  have hlba : UInt64.ofNat d.sectorCount ≠ 0 := by
    intro hz
    have hnat := congrArg UInt64.toNat hz
    have hlt := d.sectorCount_lt
    rw [UInt64.toNat_ofNat', Nat.mod_eq_of_lt (by omega)] at hnat
    exact h hnat
  have hhello : ¬((d.reply (.hello settings.profile)).header.count ≠ 512 ∨
      (d.reply (.hello settings.profile)).header.lba = 0) := by
    rintro (hc | hl)
    · exact hc rfl
    · exact hlba hl
  have hrun : ∃ bn l, Runs (link mayFail) (blockDeviceInitNet settings) ⟨d, []⟩ (some bn) l := by
    obtain ⟨l, hping⟩ := netblkPing_runs mayFail
      { readOnly := settings.readOnly
        readCache := List.replicate netblkReadCacheWindows {}
        writeBuffer := fun _ _ => 0
        writebackEnabled := settings.writeback.all (· ≠ 0) } {}
      ⟨d, [(.hello settings.profile, true)]⟩
    apply Exists.intro
    apply Exists.intro
    apply (allocAll_runs _ _ _).bind
    simp only [not_true, if_false]
    rw [request_bind]
    apply request_runs
    · exact trivial
    · simp only
      rw [if_neg hhello]
      exact hping.bind (.ret _ _)
  obtain ⟨bn, l, hrun⟩ := hrun
  obtain ⟨hdisk, _, hnone | hsome⟩ := hrun.post (wp_blockDeviceInitNet settings ⟨d, []⟩)
  · exact absurd hnone (by simp)
  · obtain rfl := Option.some.inj hsome
    obtain ⟨disk, log⟩ := l
    obtain rfl : disk = d := hdisk
    exact ⟨log, hrun⟩

theorem Session.start (settings : NetSettings) (faults : Faults)
    (guard : BlockDeviceNet → Disk → NetCall → Prop) (h : d.sectorCount ≠ 0) :
    Session settings d faults guard [] (helloDevice settings d) d := by
  obtain ⟨log, hrun⟩ := init_runs (fun _ => True) settings h
  exact .fresh hrun

theorem Session.next (hs : Session settings d faults guard hist bn disk) (call : NetCall)
    (hguard : guard bn disk call) (refuse : Request → Bool)
    (hrefuse : ∀ q, refuse q = true → faults bn call q) :
    Session settings d faults guard
      (⟨call, (play refuse (call.run bn) disk).1.1, (play refuse (call.run bn) disk).2.log⟩ :: hist)
      (play refuse (call.run bn) disk).1.2 (play refuse (call.run bn) disk).2.disk :=
  .step hs hguard (play_runs refuse hrefuse (call.run bn) disk)

variable {inv : Socket → Prop} {l : Link}

theorem SocketSession.start (settings : NetSettings) (faults : Faults) (inv : Socket → Prop)
    (h : d.sectorCount ≠ 0) :
    ∃ log, SocketSession settings d faults inv [] (helloDevice settings d) (Link.open ⟨d, log⟩) := by
  obtain ⟨log, hrun⟩ := init_runs (fun _ => False) settings h
  exact ⟨log, .fresh (hrun.map faultless_socket)⟩

theorem SocketSession.next (hs : SocketSession settings d faults inv hist bn l.open)
    (hinv : inv l.open) (call : NetCall) (refuse : Request → Bool)
    (hrefuse : ∀ q, refuse q = true → faults bn call q) :
    SocketSession settings d faults inv
      (⟨call, (play refuse (call.run bn) l.disk).1.1,
        (play refuse (call.run bn) l.disk).2.log⟩ :: hist)
      (play refuse (call.run bn) l.disk).1.2 (play refuse (call.run bn) l.disk).2.open :=
  .step hs hinv (play_socket refuse hrefuse (call.run bn) l.disk)

theorem open_inStep (l : Link) : l.open.InStep := ⟨rfl, rfl⟩

end Play

def noneFail : Request → Bool := fun _ => false

def allFail : Request → Bool := fun _ => true

def offTableFail : Request → Bool
  | .write .table _ _ => false
  | _ => true

theorem noneFail_faults {mayFail : Request → Prop} (q : Request) (h : noneFail q = true) :
    mayFail q := absurd h (by simp [noneFail])

theorem not_carried_of_failed {log : List (Request × Bool)} (h : log.all (fun e => !e.2) = true)
    (x : Nat) (v : Sector) : ¬carried log x v := by
  rintro ⟨site, lba, data, hmem, _⟩
  exact absurd (List.all_eq_true.mp h _ hmem) (by simp)

/-- A blank image of 4096 sectors. -/
def blankDisk : Disk := ⟨defaultConfig, 4096, fun _ _ => 0, by decide⟩

def ones : Nat → Sector := fun _ _ => 1

/-- One sector written, through the table or with write-back switched off. -/
def oneWrite (settings : NetSettings) : (CallResult × BlockDeviceNet) × Link :=
  play noneFail (NetCall.run (helloDevice settings blankDisk) (.write 5 ones 1)) blankDisk

theorem oneWrite_session (settings : NetSettings) (faults : Faults)
    (guard : BlockDeviceNet → Disk → NetCall → Prop)
    (hguard : guard (helloDevice settings blankDisk) blankDisk (.write 5 ones 1)) :
    Session settings blankDisk faults guard
      [⟨.write 5 ones 1, (oneWrite settings).1.1, (oneWrite settings).2.log⟩]
      (oneWrite settings).1.2 (oneWrite settings).2.disk :=
  (Session.start settings faults guard (by decide)).next _ hguard noneFail noneFail_faults

theorem oneWrite_socket (settings : NetSettings) (faults : Faults) {inv : Socket → Prop}
    (hinv : ∀ l, inv (Link.open l)) :
    SocketSession settings blankDisk faults inv
      [⟨.write 5 ones 1, (oneWrite settings).1.1, (oneWrite settings).2.log⟩]
      (oneWrite settings).1.2 (oneWrite settings).2.open := by
  obtain ⟨log, hstart⟩ := SocketSession.start settings faults inv (d := blankDisk) (by decide)
  exact hstart.next (hinv _) _ noneFail noneFail_faults

theorem noFaults_gentle (bn : BlockDeviceNet) (call : NetCall) : Gentle (noFaults bn call) bn call := by
  cases call with
  | write sectorNum buf n => exact fun _ _ _ hq => hq
  | _ => exact fun _ _ hq => hq

/-- After a flush that succeeds, the image is the initial one with every write of the session
applied in order, and the client holds nothing back. -/
theorem netblkFlush_durable {settings : NetSettings} {d disk : Disk} {hist : List Step}
    {bn bn' : BlockDeviceNet} {l : Link}
    (hs : Session settings d noFaults anyCall hist bn disk)
    (hrc : ∀ st ∈ hist, st.result.rc = 0)
    (hrun : Runs faultless (netblkFlush bn) ⟨disk, []⟩ (0, bn') l) :
    (∀ x, l.disk.image x = imageAfter d.image hist x) ∧ bn'.writeback = [] ∧ bn'.writeSectors = 0 := by
  obtain ⟨_, hmoves, hempty⟩ := hrun.post (wp_netblkFlush hs.inv.side)
  obtain ⟨htbl, hzero⟩ := hempty rfl
  refine ⟨fun x => ?_, htbl, hzero⟩
  have hx := (hmoves fun _ _ hq => hq).contents x
  rw [BlockDeviceNet.contents, newest_of_no_pending hzero, htbl] at hx
  have hcontents := hs.contents noFaults_gentle hrc x
  exact hx.trans hcontents

def twos : Nat → Sector := fun _ _ => 2

/-- Three sectors written from sector 5 on. -/
def threeWritten : (CallResult × BlockDeviceNet) × Link :=
  play noneFail (NetCall.run (helloDevice {} blankDisk) (.write 5 ones 3)) blankDisk

/-- Then four from sector 7 on. -/
def overwritten : (CallResult × BlockDeviceNet) × Link :=
  play noneFail (NetCall.run threeWritten.1.2 (.write 7 twos 4)) threeWritten.2.disk

theorem overwritten_session :
    Session {} blankDisk noFaults anyCall
      [⟨.write 7 twos 4, overwritten.1.1, overwritten.2.log⟩,
        ⟨.write 5 ones 3, threeWritten.1.1, threeWritten.2.log⟩]
      overwritten.1.2 overwritten.2.disk :=
  ((Session.start {} noFaults anyCall (by decide)).next (.write 5 ones 3) trivial noneFail
    noneFail_faults).next (.write 7 twos 4) trivial noneFail noneFail_faults

theorem netblkFlush_durable_overwritten :
    (play noneFail (netblkFlush overwritten.1.2) overwritten.2.disk).2.disk.image 6 = ones 1 ∧
      (play noneFail (netblkFlush overwritten.1.2) overwritten.2.disk).2.disk.image 7 = twos 0 ∧
      (play noneFail (netblkFlush overwritten.1.2) overwritten.2.disk).2.disk.image 10 = twos 3 := by
  have hrun : Runs faultless (netblkFlush overwritten.1.2) ⟨overwritten.2.disk, []⟩
      (0, (play noneFail (netblkFlush overwritten.1.2) overwritten.2.disk).1.2) _ :=
    play_runs noneFail noneFail_faults _ _
  have himage := (netblkFlush_durable overwritten_session
    (List.forall_mem_cons.mpr ⟨rfl, List.forall_mem_cons.mpr ⟨rfl, by simp⟩⟩) hrun).1
  exact ⟨himage 6, himage 7, himage 10⟩

/-- Faults that lose nothing: any request but the WRITE of a run of the table, and none during a
write that finds the table in use. -/
def sparingFaults : Faults
  | bn, .write _ _ n, _ => ¬(bn.writebackReady = true ∧ n ≠ 0)
  | _, _, .write .table _ _ => False
  | _, _, _ => True

theorem sparingFaults_gentle (bn : BlockDeviceNet) (call : NetCall) :
    Gentle (sparingFaults bn call) bn call := by
  cases call with
  | write sectorNum buf n => exact fun hready hn _ hq => hq ⟨hready, hn⟩
  | _ => exact fun _ _ hq => hq

/-- A drain that fails still holds the last acknowledged data of every sector that no request has
carried, and the next drain on a working connection puts it into the image. No request before the
drain left an answer behind; those of the drain may. -/
theorem netblkDrainWrites_loses_nothing {settings : NetSettings} {d : Disk} {hist : List Step}
    {bn bn' : BlockDeviceNet} {s s' : Socket} {x : Nat} {v : Sector}
    (hs : SocketSession settings d sparingFaults Socket.InStep hist bn s) (hstep : s.InStep)
    (hrun : Runs (socket (sparingFaults bn .drain)) (netblkDrainWrites bn) s.fresh (-1, bn') s')
    (hacc : lastAccepted hist x = some v)
    (hnot : ¬carriedSince (⟨.drain, ⟨-1, []⟩, s'.link.log⟩ :: hist) x v) :
    bn'.newest x = some v ∧
      wp faultless (netblkDrainWrites bn') (fun r l' => r.1 = 0 ∧ l'.disk.image x = v) s'.link := by
  have hcall : Runs (socket (sparingFaults bn .drain)) (NetCall.drain.run bn) s.fresh
      (⟨-1, []⟩, bn') s' := hrun.bind (.ret _ _)
  have hlast := hs.session.step trivial (call_link hstep hcall)
  have hheld := hlast.held sparingFaults_gentle hacc
  have hnewest := hheld.resolve_left hnot
  refine ⟨hnewest, wp_mono (wp_drain hlast.inv.side) fun r l' hdrain => ?_⟩
  have hsafe : TableSafe fun _ => False := fun _ _ hq => hq
  have hrc : r.1 = 0 := hdrain.rc.resolve_right fun hrc => hdrain.failed hsafe hrc
  obtain ⟨htbl, hzero⟩ := hdrain.empty hrc
  have hx := (hdrain.moves hsafe).contents x
  rw [BlockDeviceNet.contents, newest_of_no_pending hzero, htbl, BlockDeviceNet.contents, hnewest] at hx
  exact ⟨hrc, hx⟩

theorem offTableFail_sparing (bn : BlockDeviceNet) (q : Request) (h : offTableFail q = true) :
    sparingFaults bn .drain q := by
  cases q with
  | write site lba data =>
    cases site with
    | table => exact absurd h (by simp [offTableFail])
    | _ => trivial
  | _ => trivial

/-- With write-back switched off a failed drain keeps the sector in the pending buffer. -/
theorem netblkDrainWrites_keeps_oneWrite :
    (play offTableFail (netblkDrainWrites (oneWrite { writeback := some 0 }).1.2)
      (oneWrite { writeback := some 0 }).2.disk).1.2.newest 5 = some (ones 0) := by
  have hrun : Runs (socket (sparingFaults (oneWrite { writeback := some 0 }).1.2 .drain))
      (netblkDrainWrites (oneWrite { writeback := some 0 }).1.2)
      (Link.open ⟨(oneWrite { writeback := some 0 }).2.disk, []⟩)
      (-1, (play offTableFail (netblkDrainWrites (oneWrite { writeback := some 0 }).1.2)
        (oneWrite { writeback := some 0 }).2.disk).1.2) _ :=
    play_socket offTableFail (offTableFail_sparing _) _ _
  refine (netblkDrainWrites_loses_nothing (v := ones 0)
    (oneWrite_socket { writeback := some 0 } sparingFaults open_inStep) (open_inStep _)
    hrun rfl ?_).1
  rintro (hc | ⟨_, hc | ⟨_, hc⟩⟩)
  · exact not_carried_of_failed rfl _ _ hc
  · exact not_carried_of_failed rfl _ _ hc
  · exact hc

/-- A run of the table that fails is gone: its sectors were marked clean before it was sent. -/
theorem netblkDrainWrites_drops_oneWrite :
    ¬∀ (settings : NetSettings) (d : Disk) (hist : List Step) (bn bn' : BlockDeviceNet)
      (s s' : Socket) (x : Nat) (v : Sector), SocketSession settings d anyFaults anySocket hist bn s →
      Runs (socket fun _ => True) (netblkDrainWrites bn) s.fresh (-1, bn') s' →
      lastAccepted hist x = some v →
      ¬carriedSince (⟨.drain, ⟨-1, []⟩, s'.link.log⟩ :: hist) x v →
      dirtyData bn'.writeback x = some v ∨ bn'.pendingAt x = some v := by
  intro hclaim
  have hrun : Runs (socket fun _ => True) (netblkDrainWrites (oneWrite {}).1.2)
      (Link.open ⟨(oneWrite {}).2.disk, []⟩)
      (-1, (play allFail (netblkDrainWrites (oneWrite {}).1.2) (oneWrite {}).2.disk).1.2) _ :=
    play_socket allFail (fun _ _ => trivial) _ _
  have hheld := hclaim {} blankDisk _ _ _ _ _ 5 (ones 0)
    (oneWrite_socket {} anyFaults fun _ => trivial) hrun rfl (by
      rintro (hc | ⟨_, hc | ⟨_, hc⟩⟩)
      · exact not_carried_of_failed rfl _ _ hc
      · exact not_carried_of_failed rfl _ _ hc
      · exact hc)
  have hgone : (dirtyData (play allFail (netblkDrainWrites (oneWrite {}).1.2)
        (oneWrite {}).2.disk).1.2.writeback 5).isNone = true ∧
      ((play allFail (netblkDrainWrites (oneWrite {}).1.2)
        (oneWrite {}).2.disk).1.2.pendingAt 5).isNone = true := ⟨rfl, rfl⟩
  rcases hheld with h | h
  · rw [h] at hgone
    exact absurd hgone.1 (by simp)
  · rw [h] at hgone
    exact absurd hgone.2 (by simp)

/-- An acknowledged write is on the server, in the table or in the pending buffer, provided that
no request before it left an answer behind and nothing fails while the table is in use. -/
theorem netblkWriteAsync_truthful {settings : NetSettings} {d : Disk} {hist : List Step}
    {bn bn' : BlockDeviceNet} {s s' : Socket} {sectorNum : Nat} {buf : Nat → Sector} {n : Int}
    (hs : SocketSession settings d anyFaults Socket.InStep hist bn s) (hstep : s.InStep)
    (hrun : Runs (socket fun _ => ¬(bn.writebackReady = true ∧ n ≠ 0))
      (netblkWriteAsync bn sectorNum buf n) s.fresh (0, bn') s') (i : Nat) (hi : i < n.toNat) :
    s'.link.disk.image (sectorNum + i) = buf i ∨
      dirtyData bn'.writeback (sectorNum + i) = some (buf i) ∨
      bn'.pendingAt (sectorNum + i) = some (buf i) := by
  have hinv := hs.session.inv
  have hmax := hinv.cache.max_le.trans s.link.disk.cfg.maxSectors_le
  obtain ⟨hlink, -⟩ := safe_link hrun (safe_writeAsync bn sectorNum buf n ⟨hstep.unread, hstep.torn⟩)
  rcases hlink.post (wp_netblkWriteAsync hinv.side hmax) with ⟨hrej, _⟩ | ⟨_, _, hpost⟩
  · exact absurd hrej (by simp)
  · have hmoves := hpost.stored (fun hready hn _ hq => hq ⟨hready, hn⟩) rfl
    have hx := hmoves.contents (sectorNum + i)
    rw [overlay_slice, if_pos (by omega), Nat.add_sub_cancel_left, Nat.zero_add, Option.getD_some,
      BlockDeviceNet.contents, BlockDeviceNet.newest] at hx
    cases hd : dirtyData bn'.writeback (sectorNum + i) with
    | some u =>
      rw [hd] at hx
      exact Or.inr (Or.inl (congrArg some hx))
    | none =>
      rw [hd, Option.none_or] at hx
      cases hp : bn'.pendingAt (sectorNum + i) with
      | some u =>
        rw [hp] at hx
        exact Or.inr (Or.inr (congrArg some hx))
      | none =>
        rw [hp] at hx
        exact Or.inl hx

theorem netblkWriteAsync_truthful_oneWrite :
    (oneWrite {}).2.disk.image (5 + 0) = ones 0 ∨
      dirtyData (oneWrite {}).1.2.writeback (5 + 0) = some (ones 0) ∨
      (oneWrite {}).1.2.pendingAt (5 + 0) = some (ones 0) := by
  obtain ⟨log, hstart⟩ := SocketSession.start {} anyFaults Socket.InStep (d := blankDisk) (by decide)
  have hrun : Runs (socket fun _ =>
      ¬((helloDevice {} blankDisk).writebackReady = true ∧ (1 : Int) ≠ 0))
      (netblkWriteAsync (helloDevice {} blankDisk) 5 ones 1) (Link.open ⟨blankDisk, log⟩).fresh
      (0, (oneWrite {}).1.2) (oneWrite {}).2.open :=
    play_socket noneFail noneFail_faults (netblkWriteAsync (helloDevice {} blankDisk) 5 ones 1) blankDisk
  exact netblkWriteAsync_truthful hstart (open_inStep _) hrun 0 (by decide)

/-- Sectors that are not in the table go to its end while there is room. -/
theorem netblkStoreLoop_fresh (sectorNum : Nat) (buf : Nat → Sector) (left s : Nat)
    (bn : BlockDeviceNet) (hready : bn.writebackReady = true)
    (hroom : bn.writeback.length + left ≤ netblkWritebackSectors)
    (hclean : ∀ e ∈ bn.writeback, e.sector < sectorNum + s) :
    netblkStoreLoop sectorNum buf left s bn = .ret (1, { bn with
      writeback := bn.writeback ++
        (List.range' s left).map fun i => ⟨sectorNum + i, buf i, true⟩
      storedSectors := bn.storedSectors + left }) := by
  induction left generalizing s bn with
  | zero =>
    rw [netblkStoreLoop]
    simp
  | succ left ih =>
    have hfind : netblkWritebackFind bn (sectorNum + s) = none := by
      rw [netblkWritebackFind, if_pos hready, List.findIdx?_eq_none_iff]
      intro e he
      have hlt := hclean e he
      simp only [Bool.and_eq_false_iff, beq_eq_false_iff_ne]
      exact Or.inr (by omega)
    rw [netblkStoreLoop, hfind]
    simp only
    rw [if_neg (by omega)]
    simp only [Prog.ret_bind]
    rw [if_neg (by decide), ih (s + 1)]
    · simp only [List.append_assoc, List.range'_succ, List.map_cons, List.singleton_append]
      rw [Nat.add_assoc, Nat.add_comm 1 left]
    · exact hready
    · simp only [List.length_append, List.length_singleton]
      omega
    · intro e he
      rcases List.mem_append.mp he with he | he
      · have hlt := hclean e he
        omega
      · obtain rfl := List.mem_singleton.mp he
        simp only
        omega

/-- `n` sectors from `start` on, all dirty. -/
def dirtyRun (start n : Nat) : List WritebackEntry :=
  (List.range' 0 n).map fun i => ⟨start + i, ones i, true⟩

/-- The device with the table filled by two writes of 1024 sectors. -/
def fullDevice : BlockDeviceNet :=
  { helloDevice {} blankDisk with
    writebackReady := true
    writeback := dirtyRun 0 1024 ++ dirtyRun 1024 1024
    storedSectors := 2048 }

theorem mem_dirtyRun {start n : Nat} {e : WritebackEntry} (h : e ∈ dirtyRun start n) :
    start ≤ e.sector ∧ e.sector < start + n := by
  obtain ⟨i, hi, rfl⟩ := List.mem_map.mp h
  have hlt := (List.mem_range'_1.mp hi).2
  simp only
  omega

/-- A write that fits the table and meets none of its entries. -/
theorem write_fresh {bn : BlockDeviceNet} {disk : Disk} {sectorNum n : Nat} (hw : bn.canWrite)
    (hen : bn.writebackEnabled = true) (hcache : netblkInvalidate bn sectorNum n = bn)
    (hn : n ≠ 0) (hmax : n ≤ bn.maxSectors) (hin : sectorNum + n ≤ bn.nbSectors)
    (hroom : bn.writeback.length + n ≤ netblkWritebackSectors)
    (hclean : ∀ e ∈ bn.writeback, e.sector < sectorNum) :
    play allFail (NetCall.run bn (.write sectorNum ones n)) disk =
      ((⟨0, []⟩, { bn with
        writebackReady := true
        writeback := bn.writeback ++ dirtyRun sectorNum n
        storedSectors := bn.storedSectors + n }), ⟨disk, []⟩) := by
  have hguard : ¬(bn.readOnly = true ∨ ¬bn.writable = true ∨ (n : Int) < 0 ∨
      (n : Int) > bn.maxSectors ∨ sectorNum > bn.nbSectors ∨
      (n : Int) > bn.nbSectors - sectorNum) := by
    rw [hw.1, hw.2]
    simp
    omega
  have hstore : netblkStoreLoop sectorNum ones n 0 { bn with writebackReady := true } =
      .ret (1, { bn with
        writebackReady := true
        writeback := bn.writeback ++ dirtyRun sectorNum n
        storedSectors := bn.storedSectors + n }) :=
    netblkStoreLoop_fresh sectorNum ones n 0 _ rfl hroom hclean
  have halloc : exec (answer allFail) (netblkAllocWrites bn) ⟨disk, []⟩ =
      ((true, { bn with writebackReady := true }), ⟨disk, []⟩) := by
    unfold netblkAllocWrites
    rw [if_neg (by simp [hen])]
    cases hready : bn.writebackReady with
    | true =>
      rw [if_pos rfl, ← hready]
      rfl
    | false => rfl
  have hput : exec (answer allFail) (netblkStoreWrite bn sectorNum ones n) ⟨disk, []⟩ =
      ((1, { bn with
        writebackReady := true
        writeback := bn.writeback ++ dirtyRun sectorNum n
        storedSectors := bn.storedSectors + n }), ⟨disk, []⟩) := by
    unfold netblkStoreWrite
    rw [if_neg (by simp [hen, hn]), exec_bind, halloc]
    simp only [not_true, if_false]
    rw [hstore]
    rfl
  unfold play NetCall.run netblkWriteAsync
  rw [exec_bind, if_neg hguard]
  simp only [Int.toNat_natCast]
  rw [hcache, if_pos (by omega), exec_bind, hput]
  rfl

theorem fullDevice_session {inv : Socket → Prop} (hinv : ∀ l, inv (Link.open l)) :
    ∃ hist, SocketSession {} blankDisk anyFaults inv hist fullDevice
      (Link.open ⟨blankDisk, []⟩) := by
  obtain ⟨log, hstart⟩ := SocketSession.start {} anyFaults inv
    (show blankDisk.sectorCount ≠ 0 by decide)
  have hfirst := hstart.next (hinv _) (.write 0 ones (1024 : Nat)) allFail fun _ _ => trivial
  rw [write_fresh ⟨rfl, rfl⟩ rfl rfl (by decide) (by decide) (by decide) (by decide)
    (by simp [helloDevice])] at hfirst
  have hsecond := hfirst.next (hinv _) (.write 1024 ones (1024 : Nat)) allFail fun _ _ => trivial
  rw [write_fresh ⟨rfl, rfl⟩ rfl rfl (by decide) (Nat.le_of_ble_eq_true rfl)
    (Nat.le_of_ble_eq_true rfl)
    (by simp [helloDevice, dirtyRun, netblkWritebackSectors])
    (fun e he => by simpa using (mem_dirtyRun he).2)] at hsecond
  exact ⟨_, hsecond⟩

theorem exec_request_allFail {α : Type} (q : Request) (k : Option Response → NetProg α) (l : Link) :
    exec (answer allFail) (.ask (.request q) k : NetProg α) l =
      exec (answer allFail) (k none) ⟨l.disk, (q, false) :: l.log⟩ := by
  have hans : answer allFail l (.request q) = (none, ⟨l.disk, (q, false) :: l.log⟩) :=
    if_neg (by simp [allFail])
  rw [exec, hans]

/-- When every request fails, a drain of the table stops at its first run. -/
theorem drain_allFail {bn : BlockDeviceNet} {disk : Disk} {x : Nat} {v : Sector}
    (h : WriteSideAt disk bn) (hp : bn.writeSectors = 0) (hd : dirtyData bn.writeback x = some v) :
    ∃ bn' log, exec (answer allFail) (netblkDrainWrites bn) ⟨disk, []⟩ = ((-1, bn'), ⟨disk, log⟩) ∧
      bn'.writeSectors = 0 ∧
      ∀ y, dirtyData bn.writeback y = none → dirtyData bn'.writeback y = none := by
  have hready := h.ready_of_dirty hd
  have hlen : bn.writeback.length ≠ 0 := by
    intro hz
    rw [List.eq_nil_of_length_eq_zero hz] at hd
    exact absurd hd (by simp)
  obtain ⟨sector, hbest⟩ : ∃ sector, netblkBestDirty bn = some sector := by
    cases hbest : netblkBestDirty bn with
    | some sector => exact ⟨sector, rfl⟩
    | none =>
      have hnone := netblkBestDirty_none hbest (fun e he => by
        have hlt := h.table_in e he
        have hcount := h.sectorCount_lt
        omega) x
      exact absurd (hd.symm.trans hnone) (by simp)
  obtain ⟨u, hu⟩ := netblkBestDirty_some hbest
  have hspec := (netblkGatherRun_spec sector netblkWriteBufferSectors 0 bn h.unique).1
  have hpos : 0 < (netblkGatherRun sector netblkWriteBufferSectors 0 bn).2 :=
    netblkGatherRun_pos h.unique h.notReady hu
  refine ⟨(netblkGatherRun sector netblkWriteBufferSectors 0 bn).1,
    [(.write .table sector (slice (netblkGatherRun sector netblkWriteBufferSectors 0 bn).1.writeBuffer 0
      (netblkGatherRun sector netblkWriteBufferSectors 0 bn).2), false)], ?_, ?_, fun y hy => ?_⟩
  · unfold netblkDrainWrites netblkFlushWrites
    rw [if_neg (by simp [hready, hlen]), if_pos hp]
    obtain ⟨k, hk⟩ := Nat.exists_eq_succ_of_ne_zero hlen
    simp only [Prog.ret_bind]
    rw [if_neg (by decide), hk, netblkDrainLoop, hbest]
    simp only
    rw [if_neg (by omega)]
    rw [exec_request_allFail]
    rfl
  · obtain ⟨buffer, tbl, heq⟩ := hspec.frame
    rw [heq]
    exact hp
  · rw [hspec.cleaned, hy]
    split <;> rfl

/-- With the table full, one more sector needs a drain. Its failure is taken for success. -/
theorem write_full {bn bn' : BlockDeviceNet} {disk : Disk} {log : List (Request × Bool)}
    {sectorNum : Nat} (hw : bn.canWrite) (hen : bn.writebackEnabled = true)
    (hready : bn.writebackReady = true) (hcache : netblkInvalidate bn sectorNum 1 = bn)
    (hmax : 1 ≤ bn.maxSectors) (hin : sectorNum + 1 ≤ bn.nbSectors)
    (hfull : netblkWritebackSectors ≤ bn.writeback.length)
    (hclean : dirtyData bn.writeback sectorNum = none)
    (hdrain : exec (answer allFail) (netblkDrainWrites bn) ⟨disk, []⟩ = ((-1, bn'), ⟨disk, log⟩)) :
    exec (answer allFail) (netblkWriteAsync bn sectorNum ones 1) ⟨disk, []⟩ =
      ((0, bn'), ⟨disk, log⟩) := by
  have hguard : ¬(bn.readOnly = true ∨ ¬bn.writable = true ∨ (1 : Int) < 0 ∨
      (1 : Int) > bn.maxSectors ∨ sectorNum > bn.nbSectors ∨
      (1 : Int) > bn.nbSectors - sectorNum) := by
    rw [hw.1, hw.2]
    simp
    omega
  have hfind : netblkWritebackFind bn (sectorNum + 0) = none := by
    rw [netblkWritebackFind, if_pos hready, List.findIdx?_eq_none_iff]
    exact dirtyData_eq_none_iff.mp hclean
  have hloop : exec (answer allFail) (netblkStoreLoop sectorNum ones 1 0 bn) ⟨disk, []⟩ =
      ((-1, bn'), ⟨disk, log⟩) := by
    rw [netblkStoreLoop, hfind]
    simp only
    rw [if_pos hfull, exec_bind, hdrain]
    rfl
  have hstore : exec (answer allFail) (netblkStoreWrite bn sectorNum ones 1) ⟨disk, []⟩ =
      ((-1, bn'), ⟨disk, log⟩) := by
    rw [netblkStoreWrite, if_neg (by simp [hen]), netblkAllocWrites, if_neg (by simp [hen]),
      if_pos hready]
    exact hloop
  unfold netblkWriteAsync
  rw [if_neg hguard]
  simp only [show (1 : Int).toNat = 1 from rfl, hcache]
  rw [if_pos (by decide), exec_bind, hstore]
  rfl

theorem fullDevice_dirty : dirtyData fullDevice.writeback 0 = some (ones 0) := rfl

theorem fullDevice_clean : dirtyData fullDevice.writeback 2048 = none := by
  apply dirtyData_eq_none_iff.mpr
  intro e he
  have hlt : e.sector < 2048 := by
    rcases List.mem_append.mp he with he | he
    · have hlt := (mem_dirtyRun he).2
      omega
    · exact (mem_dirtyRun he).2
  simp only [WritebackEntry.hits, Bool.and_eq_false_iff, beq_eq_false_iff_ne]
  exact Or.inr (by omega)

theorem fullDevice_length : fullDevice.writeback.length = netblkWritebackSectors := by
  simp [fullDevice, dirtyRun, netblkWritebackSectors]

/-- The table is full and the drain it needs fails: the write is acknowledged and dropped. -/
theorem netblkWriteAsync_drops_write :
    ¬∀ (settings : NetSettings) (d : Disk) (hist : List Step) (bn bn' : BlockDeviceNet)
      (s s' : Socket) (sectorNum : Nat) (buf : Nat → Sector) (n : Int),
      SocketSession settings d anyFaults anySocket hist bn s →
      Runs (socket fun _ => True) (netblkWriteAsync bn sectorNum buf n) s.fresh (0, bn') s' →
      ∀ i < n.toNat, s'.link.disk.image (sectorNum + i) = buf i ∨
        dirtyData bn'.writeback (sectorNum + i) = some (buf i) ∨
        bn'.pendingAt (sectorNum + i) = some (buf i) := by
  intro hclaim
  obtain ⟨_, hlink⟩ := fullDevice_session open_inStep
  obtain ⟨hist, hs⟩ := @fullDevice_session anySocket fun _ => trivial
  have hside : WriteSideAt blankDisk fullDevice := hlink.session.inv.side
  obtain ⟨bn', log, hdrain, hzero, hkeep⟩ := drain_allFail hside rfl fullDevice_dirty
  have hwrite := @write_full _ _ _ _ 2048 ⟨rfl, rfl⟩ rfl rfl rfl (by decide) (by decide)
    (Nat.le_of_eq fullDevice_length.symm) fullDevice_clean hdrain
  have hruns := @play_socket _ (fun _ => True) allFail (fun _ _ => trivial)
    (netblkWriteAsync fullDevice 2048 ones 1) blankDisk
  rw [play, hwrite] at hruns
  rcases hclaim _ _ _ _ _ _ _ _ _ _ hs hruns 0 (by decide) with himage | hdirty | hpend
  · have hbyte : (0 : UInt8) = 1 := congrFun himage 0
    exact absurd hbyte (by decide)
  · rw [hkeep _ fullDevice_clean] at hdirty
    exact absurd hdirty (by simp)
  · rw [pendingAt_zero hzero] at hpend
    exact absurd hpend (by simp)

/-- Reads whose prefetch stays clear of undrained writes. -/
def cleanReads : BlockDeviceNet → Disk → NetCall → Prop := fun bn disk call =>
  ReadsClean bn disk.image call

/-- Every read of a session of acknowledged calls returns, for each sector, the data of the most
recent write before it. -/
theorem netblkReadAsync_sees_writes {settings : NetSettings} {d disk : Disk}
    {later earlier : List Step} {bn : BlockDeviceNet} {sectorNum : Nat} {n : Int}
    {result : CallResult} {log : List (Request × Bool)}
    (hs : Session settings d noFaults cleanReads
      (later ++ ⟨.read sectorNum n, result, log⟩ :: earlier) bn disk)
    (hrc : ∀ st ∈ later ++ ⟨.read sectorNum n, result, log⟩ :: earlier, st.result.rc = 0) :
    result.buf = slice (imageAfter d.image earlier) sectorNum n.toNat := by
  obtain ⟨bn₁, disk₁, bn₂, l, hs₁, hclean, hrun⟩ := hs.split
  have hrc₁ : ∀ st ∈ earlier, st.result.rc = 0 := fun st hst =>
    hrc st (List.mem_append_right _ (List.mem_cons_of_mem _ hst))
  have hzero : result.rc = 0 := hrc _ (List.mem_append_right _ List.mem_cons_self)
  have hcoh := hs₁.coherent noFaults_gentle (fun _ _ _ h => h) hrc₁
  have hpost := hrun.post (wp_call hs₁.inv _)
  rw [hpost.data (noFaults_gentle _ _) hzero hcoh hclean sectorNum n rfl]
  apply slice_congr
  intro x _ _
  exact hs₁.contents noFaults_gentle hrc₁ x

/-- The sector written and then read back: the read drains it first. -/
def readBack : (CallResult × BlockDeviceNet) × Link :=
  play noneFail (NetCall.run (oneWrite {}).1.2 (.read 5 1)) (oneWrite {}).2.disk

theorem netblkReadAsync_sees_oneWrite : readBack.1.1.buf = [ones 0] := by
  have hover : netblkWriteOverlaps (oneWrite {}).1.2 5 (1 : Int).toNat = true := rfl
  have hrc : readBack.1.1.rc = 0 := by decide +kernel
  have hs := (oneWrite_session {} noFaults cleanReads trivial).next (.read 5 1) (Or.inl hover)
    noneFail noneFail_faults
  rw [readBack] at hrc ⊢
  generalize play noneFail (NetCall.run (oneWrite {}).1.2 (.read 5 1)) (oneWrite {}).2.disk = r
    at hs hrc ⊢
  exact @netblkReadAsync_sees_writes {} blankDisk _ [] _ _ 5 1 _ _ hs
    (List.forall_mem_cons.mpr ⟨hrc, List.forall_mem_cons.mpr ⟨rfl, by simp⟩⟩)

/-- A neighbour read first: its window brings in the sector before the write is drained. -/
def neighbourRead : (CallResult × BlockDeviceNet) × Link :=
  play noneFail (NetCall.run (oneWrite {}).1.2 (.read 4 1)) (oneWrite {}).2.disk

def staleRead : (CallResult × BlockDeviceNet) × Link :=
  play noneFail (NetCall.run neighbourRead.1.2 (.read 5 1)) neighbourRead.2.disk

/-- The stale window is found again after the drain. -/
theorem netblkReadAsync_misses_oneWrite :
    ¬∀ (settings : NetSettings) (d disk : Disk) (later earlier : List Step) (bn : BlockDeviceNet)
      (sectorNum : Nat) (n : Int) (result : CallResult) (log : List (Request × Bool)),
      Session settings d noFaults anyCall
        (later ++ ⟨.read sectorNum n, result, log⟩ :: earlier) bn disk →
      (∀ st ∈ later ++ ⟨.read sectorNum n, result, log⟩ :: earlier, st.result.rc = 0) →
      result.buf = slice (imageAfter d.image earlier) sectorNum n.toNat := by
  intro hclaim
  have hs₁ : Session {} blankDisk noFaults anyCall _ neighbourRead.1.2 neighbourRead.2.disk :=
    (oneWrite_session {} noFaults anyCall trivial).next (.read 4 1) trivial noneFail noneFail_faults
  have hs₂ : Session {} blankDisk noFaults anyCall _ staleRead.1.2 staleRead.2.disk :=
    hs₁.next (.read 5 1) trivial noneFail noneFail_faults
  have hbuf := hclaim {} blankDisk _ [] _ _ 5 1 _ _ hs₂ (List.forall_mem_cons.mpr
    ⟨rfl, List.forall_mem_cons.mpr ⟨rfl, List.forall_mem_cons.mpr ⟨rfl, by simp⟩⟩⟩)
  have hgot : staleRead.1.1.buf.map (fun s => s 0) = [0] := rfl
  rw [show staleRead.1.1.buf = [ones 0] from hbuf] at hgot
  exact absurd hgot (by decide)

end Winspire.Netblk
