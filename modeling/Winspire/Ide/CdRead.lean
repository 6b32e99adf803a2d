import Winspire.Ide.CdStream

/-!
# READ of the CD drive

The phases of a command add up to the blocks that were asked for, each as long as the byte count
registers say at its start.
-/

namespace Winspire.Ide

open Interaction

set_option autoImplicit false

section Phases

variable {x : Extent} {s : IDEState} {s1 : IDEIFState} {pos w v size : Nat}

/-- Some words of a stream have been taken: they are those of the medium, and the stream goes on at
the start of a phase or is finished. -/
structure PhasePost (x : Extent) (pos w v : Nat) (s1 : IDEIFState) (words : List UInt32) : Prop where
  bytes : wordBytes words = slice x.medium (2 * pos) (2 * v)
  length : words.length = v
  after : ∃ s, s1.curDrive = some s ∧ (w = v → s.status = readyStat ||| seekStat) ∧
    (v < w → ∃ v', Streaming x s (pos + v) (w - v) v' ∧ 2 * v' = s.byteCount)

theorem drqSet_streaming (hs : s1.curDrive = some s) (h : Streaming x s pos w v) :
    drqSet s1 = true := drqSet_of_status hs h.phase_pos.2.2.2.1

theorem phaseEnds_iff (hs : s1.curDrive = some s) (h : Streaming x s pos w v) :
    s1.phaseEnds = decide (v = 1) := by
  have hleft := h.phase_pos
  simp only [IDEIFState.phaseEnds, hs, Option.map_some, Option.getD_some, hleft.2.2.2.2]
  rw [decide_eq_decide]
  omega

theorem wordBytes_cons (word : UInt32) (words : List UInt32) :
    wordBytes (word :: words) = LittleEndian.put 2 word.toNat ++ wordBytes words := rfl

theorem wp_readPhase (fuel : Nat) (hs : s1.curDrive = some s) (h : Streaming x s pos w v)
    (hin : 4 * x.last ≤ size) (hfuel : v ≤ fuel) :
    wp (diskHost x.bs size) (readPhase fuel s1) (fun r d' => d' = x.medium ∧
      ∃ s1' words, r = some (s1', words) ∧ PhasePost x pos w v s1' words) x.medium := by
  induction fuel generalizing s1 s pos w v with
  | zero =>
    have hpos := h.phase_pos.1
    omega
  | succ fuel ih =>
    have hphase := h.phase_pos
    unfold readPhase
    rw [if_pos (drqSet_streaming hs h), wp_bind]
    refine wp_mono (wp_readWord hs h hin) ?_
    rintro ⟨s1', word⟩ d' ⟨rfl, hword, s', hs', hpost⟩
    simp only at hword hs' ⊢
    rw [phaseEnds_iff hs h]
    by_cases hv : v = 1
    · subst hv
      rw [if_pos (by decide)]
      refine ⟨rfl, s1', [word], rfl, ?_, rfl, s', hs', hpost.finished, ?_⟩
      · rw [wordBytes, List.flatMap_singleton, hword]
      · intro hw
        obtain ⟨v', hstream, -, hnew⟩ := hpost.streams hw
        exact ⟨v', hstream, hnew rfl⟩
    · rw [if_neg (by simpa using hv), wp_bind]
      obtain ⟨v', hstream, hsame, -⟩ := hpost.streams (by omega)
      obtain rfl := hsame (by omega)
      refine wp_mono (ih hs' hstream (by omega)) ?_
      rintro r d'' ⟨rfl, s1'', words, rfl, hrest⟩
      refine ⟨rfl, s1'', word :: words, rfl, ?_, ?_, ?_⟩
      · rw [wordBytes_cons, hword, hrest.bytes, show 2 * (pos + 1) = 2 * pos + 2 by omega,
          ← slice_add]
        congr 1
        omega
      · rw [List.length_cons, hrest.length]
        omega
      · obtain ⟨s'', hs'', hdone, hmore⟩ := hrest.after
        refine ⟨s'', hs'', fun hw => hdone (by omega), fun hw => ?_⟩
        obtain ⟨v'', hstream'', hcount⟩ := hmore (by omega)
        refine ⟨v'', ?_, hcount⟩
        rw [show pos + v = pos + 1 + (v - 1) by omega, show w - v = w - 1 - (v - 1) by omega]
        exact hstream''

/-- The phases of a stream: every one is as long as it was announced, and within the limit. -/
structure PhasesPost (x : Extent) (pos w : Nat) (s1 : IDEIFState)
    (phases : List (Nat × List UInt32)) : Prop where
  bytes : phases.flatMap (fun p => wordBytes p.2) = slice x.medium (2 * pos) (2 * w)
  announced : ∀ p ∈ phases, 2 * p.2.length = p.1 ∧ p.1 ≤ x.limit
  done : ∃ s, s1.curDrive = some s ∧ s.status = readyStat ||| seekStat

theorem wp_readPhases_done (fuel : Nat) (hs : s1.curDrive = some s)
    (hstatus : s.status = readyStat ||| seekStat) :
    wp (diskHost x.bs size) (readPhases fuel s1) (fun r d' => d' = x.medium ∧
      ∃ s1' phases, r = some (s1', phases) ∧ PhasesPost x pos 0 s1' phases) x.medium := by
  unfold readPhases
  rw [if_neg (by rw [drqSet_done hs hstatus]; decide)]
  exact ⟨rfl, s1, [], rfl, rfl, by simp, s, hs, hstatus⟩

/-- All phases from the start of one on. The induction is on the words to go. -/
theorem wp_readPhases (fuel : Nat) (hs : s1.curDrive = some s) (h : Streaming x s pos w v)
    (hstart : 2 * v = s.byteCount) (hin : 4 * x.last ≤ size) (hfuel : w ≤ fuel) :
    wp (diskHost x.bs size) (readPhases fuel s1) (fun r d' => d' = x.medium ∧
      ∃ s1' phases, r = some (s1', phases) ∧ PhasesPost x pos w s1' phases) x.medium := by
  induction fuel generalizing s1 s pos w v with
  | zero =>
    have hphase := h.phase_pos
    omega
  | succ fuel ih =>
    have hphase := h.phase_pos
    have hlimit : s.byteCount < 65536 := by
      have hl := s.lcyl.toNat_lt
      have hh := s.hcyl.toNat_lt
      rw [byteCount_eq]
      omega
    have hcount : s1.byteCount = 2 * v := by
      simp only [IDEIFState.byteCount, hs, Option.map_some, Option.getD_some, hstart]
    unfold readPhases
    rw [if_pos (drqSet_streaming hs h)]
    simp only
    rw [wp_bind]
    refine wp_mono (wp_readPhase 32768 hs h hin (by omega)) ?_
    rintro r d' ⟨rfl, s1', words, rfl, hpost⟩
    simp only
    rw [wp_bind]
    obtain ⟨s', hs', hdone, hmore⟩ := hpost.after
    have hrest : wp (diskHost x.bs size) (readPhases fuel s1') (fun r d' => d' = x.medium ∧
        ∃ s1' phases, r = some (s1', phases) ∧ PhasesPost x (pos + v) (w - v) s1' phases)
        x.medium := by
      by_cases hw : w = v
      · rw [show w - v = 0 by omega]
        exact wp_readPhases_done fuel hs' (hdone hw)
      · obtain ⟨v', hstream, hnew⟩ := hmore (by omega)
        exact ih hs' hstream hnew (by omega)
    refine wp_mono hrest ?_
    rintro r d'' ⟨rfl, s1'', phases, rfl, hphases⟩
    refine ⟨rfl, s1'', (s1.byteCount, words) :: phases, rfl, ?_, ?_, hphases.done⟩
    · rw [List.flatMap_cons, hpost.bytes, hphases.bytes, show 2 * (pos + v) = 2 * pos + 2 * v by omega, ← slice_add]
      congr 1
      omega
    · intro q hq
      rcases List.mem_cons.mp hq with rfl | hq
      · rw [hpost.length, hcount]
        exact ⟨rfl, hphase.2.2.1⟩
      · exact hphases.announced q hq

theorem wp_readWhileDrq_stream (fuel : Nat) (hs : s1.curDrive = some s) (h : Streaming x s pos w v)
    (hin : 4 * x.last ≤ size) (hfuel : w ≤ fuel) :
    wp (diskHost x.bs size) (readWhileDrq fuel s1) (fun r d' => d' = x.medium ∧
      ∃ s1' words, r = some (s1', words) ∧
        wordBytes words = slice x.medium (2 * pos) (2 * w) ∧
        ∃ s, s1'.curDrive = some s ∧ s.status = readyStat ||| seekStat) x.medium := by
  induction fuel generalizing s1 s pos w v with
  | zero =>
    have hphase := h.phase_pos
    omega
  | succ fuel ih =>
    have hphase := h.phase_pos
    unfold readWhileDrq
    rw [if_pos (drqSet_streaming hs h)]
    simp only
    rw [wp_bind]
    refine wp_mono (wp_readWord hs h hin) ?_
    rintro ⟨s1', word⟩ d' ⟨rfl, hword, s', hs', hpost⟩
    simp only at hword hs' ⊢
    rw [wp_bind]
    have hrest : wp (diskHost x.bs size) (readWhileDrq fuel s1') (fun r d' => d' = x.medium ∧
        ∃ s1'' words, r = some (s1'', words) ∧
          wordBytes words = slice x.medium (2 * (pos + 1)) (2 * (w - 1)) ∧
          ∃ s, s1''.curDrive = some s ∧ s.status = readyStat ||| seekStat) x.medium := by
      by_cases hw : w = 1
      · have hstatus := hpost.finished hw
        rw [readWhileDrq_done hs' hstatus]
        exact ⟨rfl, s1', [], rfl, by rw [hw]; rfl, s', hs', hstatus⟩
      · obtain ⟨v', hstream, -⟩ := hpost.streams (by omega)
        exact ih hs' hstream (by omega)
    refine wp_mono hrest ?_
    rintro r d'' ⟨rfl, s1'', words, rfl, hbytes, hdone⟩
    refine ⟨rfl, s1'', word :: words, rfl, ?_, hdone⟩
    rw [wordBytes_cons, hword, hbytes, show 2 * (pos + 1) = 2 * pos + 2 by omega, ← slice_add]
    congr 1
    omega

end Phases

section Command

variable {x : Extent} {s : IDEState} {s1 : IDEIFState} {packet : Nat → UInt8} {lba n size : Nat}
  {cmd : UInt8}

theorem Resumes.streaming {block a p : Nat} (h : Resumes x s block a p 0) :
    ∃ v, Streaming x s (1024 * block + a - 1024) p v ∧ 2 * v = s.byteCount := by
  obtain ⟨c, hc, hcp, e', hchunk, -, hnew⟩ := h
  have hblock := hchunk.loaded
  refine ⟨c + e', ⟨block, a, a + c, p - c, e', hchunk, ?_, ?_, ?_⟩, ?_⟩
  · omega
  · omega
  · omega
  · have := hnew rfl
    omega

/-- The packet of a READ is in the buffer. -/
structure PacketHeld (s : IDEState) (packet : Nat → UInt8) : Prop where
  held : ∀ j, j < 12 → s.ioBuffer j = packet j

theorem PacketHeld.slice (h : PacketHeld s packet) {off width : Nat} (hle : off + width ≤ 12) :
    slice s.ioBuffer off width = slice packet off width :=
  slice_congr fun j _ hj => h.held j (by omega)

/-- The state `ide_atapi_cmd_read_pio` starts from. -/
def IDEState.readPio (s : IDEState) (lba packetSize : Int) : IDEState :=
  { s with
    lba := lba
    packetTransferSize := packetSize
    elementaryTransferSize := 0
    ioBufferIndex := 2048
    cdSectorSize := 2048
    status := readyStat ||| seekStat }

theorem atReply_readPio (hbs : s.bs = x.bs) (hlast : x.last = lba + n) (hlimit : x.limit = s.byteCount)
    (hlo : 2 ≤ s.byteCount) {packetSize : Int} (hsize : packetSize = (2 * (1024 * n) : Nat)) :
    AtReply x (s.readPio (int32 lba) packetSize) lba 1024 (1024 * n) 0 where
  device := hbs
  sectorSize := rfl
  lba := rfl
  block_le := by omega
  block_pos h := by omega
  index := rfl
  index_le := Nat.le_refl _
  packet := hsize
  elementary := rfl
  elementary_le := Nat.zero_le _
  extent := by omega
  limit_pos := hlo
  limit_le := Nat.le_of_eq hlimit.symm
  held j hj hlt := by omega
  phase_le := Nat.zero_le _
  status := Or.inl rfl

/-- After the last word of the packet: there is nothing to read, or the first phase starts. -/
def ReadStarts (x : Extent) (lba n : Nat) (s : IDEState) : Prop :=
  (n = 0 → s.status = readyStat ||| seekStat) ∧
    (0 < n → ∃ v, Streaming x s (1024 * lba) (1024 * n) v ∧ 2 * v = s.byteCount)

theorem wp_atapiRead (hp : PacketHeld s packet) (hread : ReadPacket packet lba n)
    (hbs : s.bs = x.bs) (hlast : x.last = lba + n) (hlimit : x.limit = s.byteCount)
    (hlo : 2 ≤ s.byteCount) (hn : n * 2048 < 2 ^ 31) (hin : 4 * x.last ≤ size) :
    wp (diskHost x.bs size) (atapiRead cmd s)
      (fun s' d' => d' = x.medium ∧ ReadStarts x lba n s') x.medium := by
  have hcount : (if s.ioBuffer 0 = gpcmdRead10 then (s.beAt 7 2 : Int) else int32 (s.beAt 6 4)) =
      n := by
    rw [hp.held 0 (by omega)]
    rcases hread.count with ⟨hop, hcount⟩ | ⟨hop, hcount⟩
    · rw [if_pos hop, IDEState.beAt, hp.slice (by omega), hcount]
    · rw [if_neg (by rw [hop]; decide), IDEState.beAt, hp.slice (by omega), hcount,
        int32_of_lt (by omega)]
  have haddress : s.packetLba = int32 lba := by
    rw [IDEState.packetLba, IDEState.beAt, hp.slice (by omega), hread.address]
  unfold atapiRead
  rw [hcount]
  by_cases hz : n = 0
  · rw [if_pos (by omega)]
    apply wp_afterIrq
    exact ⟨rfl, fun _ => rfl, fun hpos => by omega⟩
  · rw [if_neg (by omega), haddress]
    have hsize : int32 ((n : Int) * 2048) = (2 * (1024 * n) : Nat) := by
      rw [show (n : Int) * 2048 = (n * 2048 : Nat) by omega, int32_of_lt hn]
      omega
    have hat := atReply_readPio (s := s) hbs hlast hlimit hlo hsize
    refine wp_mono (wp_replyEnd hat (by omega) hin rfl) ?_
    rintro s' d' ⟨hd', block', a, hpos, hres⟩
    refine ⟨hd', fun hzero => absurd hzero hz, fun _ => ?_⟩
    have hstream := hres.streaming
    rw [hpos, show 1024 * lba + 1024 - 1024 = 1024 * lba by omega] at hstream
    exact hstream

theorem wp_ideAtapiCmd (cmd : UInt8) (hp : PacketHeld s packet) (hread : ReadPacket packet lba n)
    (hsense : s.senseKey ≠ senseUnitAttention) (hbs : s.bs = x.bs) (hlast : x.last = lba + n)
    (hlimit : x.limit = s.byteCount) (hlo : 2 ≤ s.byteCount) (hn : n * 2048 < 2 ^ 31)
    (hin : 4 * x.last ≤ size) :
    wp (diskHost x.bs size) (ideAtapiCmd cmd s)
      (fun s' d' => d' = x.medium ∧ ReadStarts x lba n s') x.medium := by
  have hop : s.ioBuffer 0 = gpcmdRead10 ∨ s.ioBuffer 0 = gpcmdRead12 := by
    rw [hp.held 0 (by omega)]
    exact hread.count.imp And.left And.left
  have hdispatch : ∀ t : IDEState, t.ioBuffer = s.ioBuffer →
      atapiDispatch cmd t = atapiRead cmd t := by
    intro t ht
    unfold atapiDispatch
    simp only [ht]
    rcases hop with h | h <;> rw [h] <;> rfl
  unfold ideAtapiCmd
  simp only
  rw [if_neg (fun h => hsense h.1), hdispatch (s.access 0 atapiPacketSize s.bufSize) rfl]
  exact wp_atapiRead ⟨hp.held⟩ hread hbs hlast hlimit hlo hn hin

/-- The byte count limit in its registers. -/
def IDEState.limitedTo (s : IDEState) (limit : Nat) : IDEState :=
  { s with
    lcyl := (UInt32.ofNat (limit % 256)).toUInt8
    hcyl := (UInt32.ofNat (limit / 256)).toUInt8 }

/-- The drive after the limit and the PACKET command. -/
def IDEState.awaitsPacket (s : IDEState) (limit : Nat) : IDEState :=
  ideTransferStart2 { s.limitedTo limit with status := readyStat ||| seekStat, nsector := 1 } 0
    atapiPacketSize .atapiCmd

theorem byteCount_awaitsPacket (s : IDEState) {limit : Nat} (h : limit < 65536) :
    (s.awaitsPacket limit).byteCount = limit := by
  have hl : (UInt32.ofNat (limit % 256)).toUInt8.toNat = limit % 256 := by
    rw [UInt32.toNat_toUInt8, UInt32.toNat_ofNat']
    omega
  have hh : (UInt32.ofNat (limit / 256)).toUInt8.toNat = limit / 256 := by
    rw [UInt32.toNat_toUInt8, UInt32.toNat_ofNat']
    omega
  rw [byteCount_eq]
  simp only [IDEState.awaitsPacket, IDEState.limitedTo, ideTransferStart2, hl, hh]
  omega

theorem ideIoportWrite_lcyl (hs : s1.curDrive = some s) (val : UInt32) :
    ideIoportWrite s1 4 val = .ret (s1.setCur { s with lcyl := val.toUInt8 }) := by
  simp only [ideIoportWrite, IDEIFState.setReg, hs]

theorem ideIoportWrite_hcyl (hs : s1.curDrive = some s) (limit : Nat) :
    ideIoportWrite (s1.setCur { s with lcyl := (UInt32.ofNat (limit % 256)).toUInt8 }) 5
      (.ofNat (limit / 256)) = .ret (s1.setCur (s.limitedTo limit)) := by
  simp only [ideIoportWrite, IDEIFState.setReg, curDrive_setCur hs, setCur_setCur,
    IDEState.limitedTo]

theorem ideIoportWrite_packet (hs : s1.curDrive = some s) (hcd : s.driveKind = .cd) :
    ideIoportWrite s1 7 winPacketcmd.toUInt32 = (do
      ideSetIrq s1.cmd
      return s1.setCur (ideTransferStart2 { s with status := readyStat ||| seekStat, nsector := 1 } 0
        atapiPacketSize .atapiCmd)) := by
  have hexec : idecdExecCmd s1.cmd s winPacketcmd.toUInt32.toUInt8 =
      (ideTransferStart2 { s with status := readyStat ||| seekStat, nsector := 1 } 0
        atapiPacketSize .atapiCmd).interrupt s1.cmd := by
    unfold idecdExecCmd
    rw [if_neg (by decide), if_pos (by decide)]
  simp only [ideIoportWrite, hs, hcd, hexec, IDEState.interrupt, Prog.bind_assoc, Prog.pure_eq,
    Prog.ret_bind]

theorem wp_packetPort {Q : IDEIFState → (Nat → UInt8) → Prop} {d : Nat → UInt8} (limit : Nat)
    (hs : s1.curDrive = some s) (hcd : s.driveKind = .cd)
    (hQ : wp (diskHost x.bs size) (writeElems .word packet 6 0
      (s1.setCur (s.awaitsPacket limit))) Q d) :
    wp (diskHost x.bs size) (packetCommand packet limit s1) Q d := by
  unfold packetCommand
  have hcd' : (s.limitedTo limit).driveKind = .cd := hcd
  rw [ideIoportWrite_lcyl hs, Prog.ret_bind, ideIoportWrite_hcyl hs, Prog.ret_bind,
    ideIoportWrite_packet (curDrive_setCur hs _) hcd', Prog.bind_assoc]
  apply wp_afterIrq
  rw [Prog.pure_eq, Prog.ret_bind, setCur_setCur]
  exact hQ

/-- The drive when the twelve bytes have arrived. -/
def IDEState.packetArrived (s : IDEState) (bytes : List UInt8) : IDEState :=
  (s.portStore bytes).moved (12 : Nat)

theorem packetHeld_arrived (hidx : s.dataIndex = 0) {bytes : List UInt8}
    (hbytes : bytes = slice packet 0 12) : PacketHeld (s.packetArrived bytes) packet := by
  constructor
  intro j hj
  have hbuf : (s.packetArrived bytes).ioBuffer = blit s.ioBuffer 0 bytes := by
    simp only [IDEState.packetArrived, IDEState.portStore, IDEState.moved, hidx, Int.toNat_zero]
  rw [hbuf, hbytes, blit_slice_apply, if_pos (by omega), Nat.sub_zero, Nat.zero_add]

/-- The six words of the packet, and the command they complete. -/
theorem wp_packetWords {Q : IDEIFState → (Nat → UInt8) → Prop} {d : Nat → UInt8}
    (hs : s1.curDrive = some s) (hidx : s.dataIndex = 0) (hend : s.dataEnd = (12 : Nat))
    (hfunc : s.endTransferFunc = .atapiCmd)
    (hQ : ∀ bytes, bytes = slice packet 0 12 →
      wp (diskHost x.bs size) (ideAtapiCmd s1.cmd (s.packetArrived bytes))
        (fun s' => Q (s1.setCur s')) d) :
    wp (diskHost x.bs size) (writeElems .word packet 6 0 s1) Q d := by
  have hagree : WriteAgrees s1 .word packet 6 :=
    writeAgrees_of_lt (by decide) hs (by omega) (by omega) packet 6
  have hlen : s.stringLen 2 6 = (12 : Nat) := by
    unfold IDEState.stringLen
    rw [hidx, hend]
    rfl
  have hcount : stringCount s1 2 6 = 6 := by
    simp only [stringCount, hs, hlen]
    rfl
  have hstring : wp (diskHost x.bs size) (ideDataWriteString s1 packet 2 6) (fun r => Q r.1) d := by
    simp only [ideDataWriteString, hs, IDEState.writeString, hlen]
    rw [if_pos (by omega), Int.toNat_natCast, wp_bind]
    generalize hbytes : slice packet 0 12 = bytes
    have hfin : ((s.portStore bytes).moved (12 : Nat)).finish s1.cmd =
        .ask (.endTransfer (s.packetArrived bytes).bs .atapiCmd)
          fun _ => ideAtapiCmd s1.cmd (s.packetArrived bytes) := by
      have hport : (s.packetArrived bytes).dataIndex = s.dataIndex + (12 : Nat) ∧
          (s.packetArrived bytes).dataEnd = s.dataEnd ∧
          (s.packetArrived bytes).endTransferFunc = s.endTransferFunc := by
        simp only [IDEState.packetArrived, IDEState.portStore, IDEState.moved,
          IDEState.portAccess, IDEState.access, and_self]
      change (s.packetArrived bytes).finish s1.cmd = _
      rw [finish_end (by rw [hport.1, hport.2.1, hidx, hend]; omega), endTransfer, hport.2.2, hfunc]
    rw [hfin]
    intro _ d' hd'
    rw [show d' = d from hd']
    exact hQ bytes hbytes.symm
  unfold WriteAgrees at hagree
  simp only [Width.bytes, hcount] at hagree
  rw [hagree, wp_bind] at hstring
  exact hstring

theorem port_awaitsPacket (s : IDEState) (limit : Nat) : (s.awaitsPacket limit).dataIndex = 0 ∧
    (s.awaitsPacket limit).dataEnd = (12 : Nat) ∧
    (s.awaitsPacket limit).endTransferFunc = .atapiCmd := by
  simp only [IDEState.awaitsPacket, ideTransferStart2, Int.zero_add, and_true, true_and]
  rfl

/-- The packet leaves the byte count limit, the device and the sense key alone. -/
theorem kept_packetArrived (s : IDEState) (limit : Nat) (bytes : List UInt8) :
    ((s.awaitsPacket limit).packetArrived bytes).byteCount = (s.awaitsPacket limit).byteCount ∧
    ((s.awaitsPacket limit).packetArrived bytes).bs = s.bs ∧
    ((s.awaitsPacket limit).packetArrived bytes).senseKey = s.senseKey := by
  simp only [IDEState.packetArrived, IDEState.portStore, IDEState.moved, IDEState.portAccess,
    IDEState.access, IDEState.byteCount, IDEState.awaitsPacket, IDEState.limitedTo,
    ideTransferStart2, and_self]

theorem wp_readCommand {limit : Nat} (hs : s1.curDrive = some s) (hcd : s.driveKind = .cd)
    (hsense : s.senseKey ≠ senseUnitAttention) (hread : ReadPacket packet lba n)
    (hbs : s.bs = x.bs) (hlast : x.last = lba + n) (hlimit : x.limit = limit) (hlo : 2 ≤ limit)
    (hhi : limit < 65536) (hn : n * 2048 < 2 ^ 31) (hin : 4 * x.last ≤ size) :
    wp (diskHost x.bs size) (packetCommand packet limit s1) (fun s1' d' => d' = x.medium ∧
      ∃ s', s1'.curDrive = some s' ∧ ReadStarts x lba n s') x.medium := by
  have hcount := byteCount_awaitsPacket s hhi
  have hport := port_awaitsPacket s limit
  apply wp_packetPort limit hs hcd
  apply wp_packetWords (curDrive_setCur hs (s.awaitsPacket limit)) hport.1 hport.2.1 hport.2.2
  intro bytes hbytes
  have hkept := kept_packetArrived s limit bytes
  have hheld := packetHeld_arrived hport.1 hbytes
  have hstart := wp_ideAtapiCmd (s1.setCur (s.awaitsPacket limit)).cmd hheld hread
    (by rw [hkept.2.2]; exact hsense) (hkept.2.1.trans hbs) hlast
    (by rw [hkept.1, hcount, hlimit]) (by rw [hkept.1, hcount]; exact hlo) hn hin
  refine wp_mono hstart ?_
  rintro s' d' ⟨hd', hstarts⟩
  rw [setCur_setCur]
  exact ⟨hd', s', curDrive_setCur hs s', hstarts⟩

end Command

def ReadyAgain (s1 : IDEIFState) : Prop :=
  ideStatusRead s1 &&& 0x40 ≠ 0 ∧ drqSet s1 = false

theorem readyAgain_of_status {s1 : IDEIFState} {s : IDEState} (hs : s1.curDrive = some s)
    (hstatus : s.status = readyStat ||| seekStat) : ReadyAgain s1 := by
  refine ⟨?_, drqSet_done hs hstatus⟩
  simp only [ideStatusRead, hs, hstatus]
  decide

/-- The blocks of an extent in order, in phases of the announced lengths. -/
def StreamedPhases (d : Nat → UInt8) (lba n limit : Nat)
    (r : Option (IDEIFState × List (Nat × List UInt32))) (d' : Nat → UInt8) : Prop :=
  d' = d ∧ ∃ s1 phases, r = some (s1, phases) ∧
    phases.flatMap (fun p => wordBytes p.2) = slice d (2048 * lba) (2048 * n) ∧
    (∀ p ∈ phases, 2 * p.2.length = p.1 ∧ p.1 ≤ limit) ∧ ReadyAgain s1

def StreamedWords (d : Nat → UInt8) (lba n : Nat) (r : Option (IDEIFState × List UInt32))
    (d' : Nat → UInt8) : Prop :=
  d' = d ∧ ∃ s1 words, r = some (s1, words) ∧
    wordBytes words = slice d (2048 * lba) (2048 * n) ∧ ReadyAgain s1

/-- A READ of blocks the drive can number streams them, whatever the byte count limit. -/
theorem cdRead_streams {s1 : IDEIFState} {s : IDEState} {packet d : Nat → UInt8}
    {lba n limit size fuel : Nat} (hs : s1.curDrive = some s) (hcd : s.driveKind = .cd)
    (hsense : s.senseKey ≠ senseUnitAttention) (hread : ReadPacket packet lba n)
    (hlo : 2 ≤ limit) (hhi : limit < 65536) (hn : n * 2048 < 2 ^ 31)
    (hin : 4 * (lba + n) ≤ size) (hlba : lba + n ≤ 2 ^ 31) (hfuel : 1024 * n ≤ fuel) :
    wp (diskHost s.bs size) (packetCommand packet limit s1 >>= readPhases fuel)
      (StreamedPhases d lba n limit) d ∧
    wp (diskHost s.bs size) (packetCommand packet limit s1 >>= readWhileDrq fuel)
      (StreamedWords d lba n) d := by
  have hstart := wp_readCommand (x := ⟨s.bs, d, lba + n, limit, hlba⟩) hs hcd hsense hread rfl rfl
    rfl hlo hhi hn hin
  constructor
  · rw [wp_bind]
    refine wp_mono hstart ?_
    rintro s1' d' ⟨rfl, s', hs', hzero, hmore⟩
    have hphases : wp (diskHost s.bs size) (readPhases fuel s1') (fun r d'' => d'' = d' ∧
        ∃ s1'' phases, r = some (s1'', phases) ∧
          PhasesPost ⟨s.bs, d', lba + n, limit, hlba⟩ (1024 * lba) (1024 * n) s1'' phases) d' := by
      by_cases hz : n = 0
      · subst hz
        exact wp_readPhases_done (x := ⟨s.bs, d', lba + 0, limit, hlba⟩) fuel hs' (hzero rfl)
      · obtain ⟨v, hstream, hv⟩ := hmore (by omega)
        exact wp_readPhases fuel hs' hstream hv hin hfuel
    refine wp_mono hphases ?_
    rintro r d'' ⟨hd'', s1'', phases, rfl, hpost⟩
    obtain ⟨s'', hs'', hstatus⟩ := hpost.done
    refine ⟨hd'', s1'', phases, rfl, ?_, hpost.announced, readyAgain_of_status hs'' hstatus⟩
    have hbytes := hpost.bytes
    rw [show 2 * (1024 * lba) = 2048 * lba by omega, show 2 * (1024 * n) = 2048 * n by omega] at hbytes
    exact hbytes
  · rw [wp_bind]
    refine wp_mono hstart ?_
    rintro s1' d' ⟨rfl, s', hs', hzero, hmore⟩
    by_cases hz : n = 0
    · subst hz
      rw [readWhileDrq_done hs' (hzero rfl)]
      exact ⟨rfl, s1', [], rfl, rfl, readyAgain_of_status hs' (hzero rfl)⟩
    · obtain ⟨v, hstream, -⟩ := hmore (by omega)
      refine wp_mono (wp_readWhileDrq_stream fuel hs' hstream hin hfuel) ?_
      rintro r d'' ⟨hd'', s1'', words, rfl, hbytes, s'', hs'', hstatus⟩
      refine ⟨hd'', s1'', words, rfl, ?_, readyAgain_of_status hs'' hstatus⟩
      rw [show 2 * (1024 * lba) = 2048 * lba by omega,
        show 2 * (1024 * n) = 2048 * n by omega] at hbytes
      exact hbytes

/-- A selected CD drive that has reported the change of its medium. -/
def oneCd : IDEIFState :=
  { drives := fun i => if i then none else some (ideCddriveInit 16 four_le_sixteen false)
    cur := some false }

/-- READ(10) of a block. -/
def read10 (a b c e lo : UInt8) : Nat → UInt8 := fun i =>
  [gpcmdRead10, 0, a, b, c, e, 0, 0, lo, 0, 0, 0].getD i 0

/-- A device of `size` sectors that refuses what lies outside. -/
def strictHost (size : Nat) (d : Nat → UInt8) : (op : IdeOp) → ideSig.Answer op × (Nat → UInt8)
  | .readAsync _ sectorNum n =>
    if sectorNum.toNat + n ≤ size then ((0, slice d (512 * sectorNum.toNat) (512 * n)), d)
    else ((-1, []), d)
  | .writeAsync _ sectorNum n data =>
    if sectorNum.toNat + n ≤ size then ((0 : Int), blit d (512 * sectorNum.toNat) data)
    else ((-1 : Int), d)
  | .flush _ => ((0 : Int), d)
  | .getSectorCount _ => ((size : Int), d)
  | .setIrq _ => ((), d)
  | .endTransfer _ _ => ((), d)

theorem cdRead_streams_odd_limit :
    wp (diskHost false 100) (packetCommand (read10 0 0 0 7 3) 777 oneCd >>= readPhases 4096)
      (StreamedPhases (fun i => .ofNat i) 7 3 777) (fun i => .ofNat i) :=
  (cdRead_streams (s := ideCddriveInit 16 (by decide) false) rfl rfl (by decide)
    ⟨rfl, Or.inl ⟨rfl, rfl⟩⟩ (by decide) (by decide) (by decide) (by decide) (by decide)
    (by decide)).1

/-- Block `2^31` of a medium that has it: the LBA is negative for the drive, and the command ends in
an error without a word. -/
theorem far_block_refused :
    ReadPacket (read10 0x80 0 0 0 1) (2 ^ 31) 1 ∧ 4 * (2 ^ 31 + 1) ≤ 2 ^ 33 + 4 ∧
    ((exec (strictHost (2 ^ 33 + 4))
      (packetCommand (read10 0x80 0 0 0 1) 2048 oneCd >>= readWhileDrq 1024) fun _ => 0).1.map
      fun r => (ideStatusRead r.1, r.2)) = some (0x41, []) := by
  refine ⟨⟨rfl, Or.inl ⟨rfl, rfl⟩⟩, by decide, ?_⟩
  decide +kernel

end Winspire.Ide
