import Winspire.Ide.AtapiBounds

/-!
# The buffer over whole runs

Each drive of a channel stays `Bounded` under every sequence of port operations, unless a READ
packet is executed whose LBA field is the mark of an answer.
-/

namespace Winspire.Ide

open Interaction

set_option autoImplicit false

variable {clean : Prop}

section Data
variable {s s' : IDEState} {cmd : UInt8}

theorem keeps_endTransfer (h : Bounded clean s) (hclean : clean → s.endTransferFunc = .atapiCmd → ¬s.wildRead) :
    Keeps clean (endTransfer cmd s) := by
  refine Keeps.ask fun _ _ => ?_
  cases hfunc : s.endTransferFunc with
  | transferStop => exact h.toSteady.transferStop
  | transferStop2 => exact h.toSteady.transferStop2
  | sectorRead => exact keeps_ideSectorRead h
  | sectorReadCbEnd =>
    have hregs : Steady clean { s with status := readyStat ||| seekStat, error := 0 } := { h with }
    exact hregs.transferStop
  | sectorWriteCb1 => exact keeps_ideSectorWriteCb1 h.toSteady
  | identifyCb => exact { h.toSteady.transferStop with }
  | atapiCmd => exact keeps_ideAtapiCmd h fun hc => hclean hc hfunc
  | atapiCmdReplyEnd => exact keeps_ideAtapiCmdReplyEnd h.toSteady (h.reply hfunc)

theorem keeps_finish (h : Bounded clean s)
    (hclean : clean → s.endTransferFunc = .atapiCmd → s.dataEnd ≤ s.dataIndex → ¬s.wildRead) :
    Keeps clean (s.finish cmd) := by
  refine .ite (fun hend => ?_) fun _ => h
  exact keeps_endTransfer h fun hc hfunc => hclean hc hfunc hend

theorem Bounded.moved (h : Bounded clean s) {len : Int} (hlen : 0 ≤ len)
    (hle : s.dataIndex + len ≤ s.dataEnd) : Bounded clean (s.moved len) :=
  { h with
    index_nonneg := Int.add_nonneg h.index_nonneg hlen
    index_le := hle }

theorem Bounded.portAccess (h : Bounded clean s) {len : Nat} (hle : s.dataIndex + len ≤ s.dataEnd) :
    Bounded clean (s.portAccess len) :=
  { h with
    inside := fun hc => by
      have hend := h.end_le hc
      have hin : s.portAccess len = s := access_of_le h.index_nonneg (by omega)
      rw [hin]
      exact h.inside hc }

theorem Bounded.portStore (h : Bounded clean s) {bytes : List UInt8}
    (hle : s.dataIndex + bytes.length ≤ s.dataEnd) : Bounded clean (s.portStore bytes) :=
  { h.portAccess hle with }

theorem Bounded.writeElem (h : Bounded clean s) {bytes : List UInt8} (hs : s.writeElem bytes = some s') :
    Bounded clean s' := by
  unfold IDEState.writeElem at hs
  split at hs
  · cases hs
  · rename_i hle
    cases hs
    have hle : s.dataIndex + bytes.length ≤ s.dataEnd := Int.not_lt.mp hle
    exact (h.portStore hle).moved (by omega) hle

theorem Bounded.readElem (h : Bounded clean s) {size : Nat} (hs : s.readElem size = some s') :
    Bounded clean s' := by
  unfold IDEState.readElem at hs
  split at hs
  · cases hs
  · rename_i hle
    cases hs
    have hle : s.dataIndex + size ≤ s.dataEnd := Int.not_lt.mp hle
    exact (h.portAccess hle).moved (by omega) hle

theorem stringLen_range (hle : s.dataIndex ≤ s.dataEnd) (size count : Nat) :
    0 ≤ s.stringLen size count ∧ s.dataIndex + s.stringLen size count ≤ s.dataEnd := by
  have hmin : 0 ≤ min ((size * count : Nat) : Int) (s.dataEnd - s.dataIndex) := by omega
  obtain ⟨n, hn⟩ := Int.eq_ofNat_of_zero_le hmin
  have hmod : n % size ≤ n := Nat.mod_le n size
  unfold IDEState.stringLen
  simp only
  rw [hn, ← Int.ofNat_tmod]
  omega

theorem Bounded.writeString (h : Bounded clean s) (buf : Nat → UInt8) (size count : Nat) :
    Bounded clean (s.writeString buf size count) := by
  obtain ⟨hlen, hle⟩ := stringLen_range h.index_le size count
  unfold IDEState.writeString
  simp only
  rw [if_pos hlen]
  refine (h.portStore ?_).moved hlen hle
  rw [length_slice]
  omega

theorem Bounded.readString (h : Bounded clean s) (size count : Nat) : Bounded clean (s.readString size count) := by
  obtain ⟨hlen, hle⟩ := stringLen_range h.index_le size count
  unfold IDEState.readString
  simp only
  rw [if_pos hlen]
  exact (h.portAccess (by omega)).moved hlen hle

end Data

def ChannelBounded (clean : Prop) (s1 : IDEIFState) : Prop := ∀ i s, s1.drives i = some s → Bounded clean s

/-- The operation does not complete a packet that reads from the mark. -/
def Clean (s1 : IDEIFState) (op : PortOp) : Prop :=
  ∀ s, op.transferred s1 = some s → s.endTransferFunc = .atapiCmd → s.dataEnd ≤ s.dataIndex →
    ¬s.wildRead

def KeepsChannel (clean : Prop) (p : IdeProg IDEIFState) : Prop :=
  wp blockDevices p (fun s1 _ => ChannelBounded clean s1) ()

section Channel
variable {s1 : IDEIFState}

theorem ChannelBounded.curDrive (h : ChannelBounded clean s1) {s : IDEState} (hs : s1.curDrive = some s) :
    Bounded clean s := by
  obtain ⟨i, -, hi⟩ := Option.bind_eq_some_iff.mp hs
  exact h i s hi

theorem ChannelBounded.setDrive (h : ChannelBounded clean s1) (i : Bool) {s : IDEState} (hs : Bounded clean s) :
    ChannelBounded clean (s1.setDrive i s) := by
  intro j s' hj
  simp only [IDEIFState.setDrive] at hj
  split at hj
  · cases hj
    exact hs
  · exact h j s' hj

theorem ChannelBounded.setCur (h : ChannelBounded clean s1) {s : IDEState} (hs : Bounded clean s) :
    ChannelBounded clean (s1.setCur s) := by
  unfold IDEIFState.setCur
  split
  · exact h
  · exact h.setDrive _ hs

theorem ChannelBounded.setReg (h : ChannelBounded clean s1) {f : IDEState → IDEState}
    (hf : ∀ s, Bounded clean s → Bounded clean (f s)) : ChannelBounded clean (s1.setReg f) := by
  unfold IDEIFState.setReg
  split
  · exact h
  · rename_i s hs
    exact h.setCur (hf s (h.curDrive hs))

theorem ChannelBounded.mapDrives (h : ChannelBounded clean s1) {f : IDEState → IDEState}
    (hf : ∀ s, Bounded clean s → Bounded clean (f s)) : ChannelBounded clean (s1.mapDrives f) := by
  intro i s' hi
  obtain ⟨s, hs, rfl⟩ := Option.map_eq_some_iff.mp hi
  exact hf s (h i s hs)

theorem KeepsChannel.ofDrive (h : ChannelBounded clean s1) {p : IdeProg IDEState} (hp : Keeps clean p) :
    KeepsChannel clean (p >>= fun s => .ret (s1.setCur s)) := by
  unfold KeepsChannel
  rw [wp_bind]
  exact wp_mono hp fun s _ hs => h.setCur hs

theorem keepsChannel_ideIoportWrite (h : ChannelBounded clean s1) (addr : Nat) (val : UInt32) :
    KeepsChannel clean (ideIoportWrite s1 addr val) := by
  unfold ideIoportWrite
  split
  · exact h
  · exact h.setReg fun s hs => { hs with }
  · exact h.setReg fun s hs => { hs with }
  · exact h.setReg fun s hs => { hs with }
  · exact h.setReg fun s hs => { hs with }
  · exact h.setReg fun s hs => { hs with }
  · have hcur : ChannelBounded clean { s1 with cur := some ((val >>> 4) &&& 1 ≠ 0) } := h
    exact hcur.setReg fun s hs => { hs with }
  · split
    · exact h
    · rename_i s hs
      have hs := h.curDrive hs
      cases s.driveKind with
      | hd => exact .ofDrive h (keeps_ideExecCmd hs _)
      | cd => exact .ofDrive h (keeps_idecdExecCmd hs _)

theorem channelBounded_ideCmdWrite (h : ChannelBounded clean s1) (val : UInt8) :
    ChannelBounded clean (ideCmdWrite s1 val) := by
  unfold ideCmdWrite
  simp only
  split
  · exact h.mapDrives fun s hs => { hs with }
  split
  · exact h.mapDrives fun s hs => { hs with }
  · exact h

theorem keepsChannel_ideChangeCd (h : ChannelBounded clean s1) (drive : Bool) :
    KeepsChannel clean (ideChangeCd s1 drive) := by
  unfold ideChangeCd
  split
  · exact h
  rename_i s hs
  split
  · have hset : ChannelBounded clean (s1.setDrive drive { s with
        senseKey := senseUnitAttention
        asc := ascMediumMayHaveChanged
        cdromChanged := true }) := h.setDrive drive { h drive s hs with }
    unfold KeepsChannel ideSetIrq
    split
    · exact fun _ _ _ => hset
    · exact hset
  · exact h

/-- What the data port has in common: the drive moves data, then looks for the end. -/
theorem KeepsChannel.ofFinish (h : ChannelBounded clean s1) {op : PortOp} (hclean : clean → Clean s1 op)
    {s : IDEState} (hs : Bounded clean s) (hop : op.transferred s1 = some s) :
    KeepsChannel clean (s.finish s1.cmd >>= fun s => .ret (s1.setCur s)) :=
  .ofDrive h (keeps_finish hs fun hc => hclean hc s hop)

theorem keepsChannel_ideDataWrite (h : ChannelBounded clean s1) {bytes : List UInt8} {op : PortOp}
    (hclean : clean → Clean s1 op) (hop : op.transferred s1 = s1.curDrive.bind fun s => s.writeElem bytes) :
    KeepsChannel clean (ideDataWrite s1 bytes) := by
  unfold ideDataWrite
  split
  · exact h
  rename_i s hs
  split
  · exact h
  · rename_i s' hs'
    exact .ofFinish h hclean ((h.curDrive hs).writeElem hs') (by rw [hop, hs]; exact hs')

theorem wp_ideDataRead (h : ChannelBounded clean s1) {size : Nat} {op : PortOp}
    (hclean : clean → Clean s1 op) (hop : op.transferred s1 = s1.curDrive.bind fun s => s.readElem size) :
    wp blockDevices (ideDataRead s1 size) (fun r _ => ChannelBounded clean r.1) () := by
  unfold ideDataRead
  split
  · exact h
  rename_i s hs
  split
  · exact h
  · rename_i s' hs'
    rw [wp_bind]
    refine wp_mono (keeps_finish ((h.curDrive hs).readElem hs') fun hc => hclean hc s' ?_) fun s _ hs => h.setCur hs
    rw [hop, hs]
    exact hs'

theorem keepsChannel_run (h : ChannelBounded clean s1) {op : PortOp} (hclean : clean → Clean s1 op) :
    KeepsChannel clean (op.run s1) := by
  unfold KeepsChannel
  cases op with
  | ioportWrite addr val => exact keepsChannel_ideIoportWrite h addr val
  | ioportRead addr =>
    simp only [PortOp.run]
    rw [wp_bind, wp_iff_runs]
    exact fun _ _ _ => h
  | statusRead => exact h
  | cmdWrite val => exact channelBounded_ideCmdWrite h val
  | dataWritew val => exact keepsChannel_ideDataWrite h hclean rfl
  | dataWritel val => exact keepsChannel_ideDataWrite h hclean rfl
  | dataReadw =>
    simp only [PortOp.run, ideDataReadw, Prog.bind_assoc]
    rw [wp_bind]
    exact wp_mono (wp_ideDataRead h hclean rfl) fun r _ hr => hr
  | dataReadl =>
    simp only [PortOp.run, ideDataReadl, Prog.bind_assoc]
    rw [wp_bind]
    exact wp_mono (wp_ideDataRead h hclean rfl) fun r _ hr => hr
  | dataWriteString buf width count =>
    simp only [PortOp.run]
    rw [wp_bind]
    unfold ideDataWriteString
    split
    · exact h
    · rename_i s hs
      rw [wp_bind]
      refine wp_mono (keeps_finish ((h.curDrive hs).writeString buf _ _) fun hc => hclean hc _ ?_)
        fun s _ hs => h.setCur hs
      simp only [PortOp.transferred, hs, Option.bind_some]
  | dataReadString width count =>
    simp only [PortOp.run]
    rw [wp_bind]
    unfold ideDataReadString
    split
    · exact h
    · rename_i s hs
      rw [wp_bind]
      refine wp_mono (keeps_finish ((h.curDrive hs).readString _ _) fun hc => hclean hc _ ?_)
        fun s _ hs => h.setCur hs
      simp only [PortOp.transferred, hs, Option.bind_some]
  | changeCd drive => exact keepsChannel_ideChangeCd h drive

end Channel

/-- A channel whose drives have just been attached. -/
def Attached (s1 : IDEIFState) : Prop :=
  s1.cur = none ∧ s1.cmd = 0 ∧ ∀ i s, s1.drives i = some s →
    (∃ maxMult h bs nbSectors chs, s = ideHddriveInit maxMult h bs nbSectors chs) ∨
    ∃ maxMult h bs, s = ideCddriveInit maxMult h bs

/-- The states port operations lead to, where each operation passes `guard`. -/
inductive Reachable (guard : IDEIFState → PortOp → Prop) (s0 : IDEIFState) : IDEIFState → Prop where
  | init : Reachable guard s0 s0
  | step {s1 s1' : IDEIFState} (op : PortOp) : Reachable guard s0 s1 → guard s1 op →
      Runs blockDevices (op.run s1) () s1' () → Reachable guard s0 s1'

theorem channelBounded_attached {s0 : IDEIFState} (h : Attached s0) : ChannelBounded clean s0 := by
  intro i s hs
  obtain ⟨maxMult, hmult, bs, nbSectors, chs, rfl⟩ | ⟨maxMult, hmult, bs, rfl⟩ := h.2.2 i s hs
  · exact
      { mult_le := Nat.le_refl _
        req_le := Nat.zero_le _
        io_le := Nat.zero_le _
        inside := fun _ => rfl
        index_nonneg := Int.le_refl 0
        index_le := Int.le_refl 0
        end_le := fun _ => Int.le_trans (show (0 : Int) ≤ 2052 by decide) (bufSize_ge _)
        reply := fun hf => by cases hf }
  · exact
      { mult_le := Nat.zero_le _
        req_le := Nat.zero_le _
        io_le := Nat.zero_le _
        inside := fun _ => rfl
        index_nonneg := Int.le_refl 0
        index_le := Int.le_refl 0
        end_le := fun _ => Int.le_trans (show (0 : Int) ≤ 2052 by decide) (bufSize_ge _)
        reply := fun hf => by cases hf }

theorem channelBounded_reachable {guard : IDEIFState → PortOp → Prop} {s0 s1 : IDEIFState}
    (hguard : clean → ∀ s1 op, guard s1 op → Clean s1 op) (h : Attached s0)
    (hr : Reachable guard s0 s1) : ChannelBounded clean s1 := by
  induction hr with
  | init => exact channelBounded_attached h
  | step op _ hop hrun ih => exact hrun.post (keepsChannel_run ih fun hc => hguard hc _ _ hop)

/-- Devices of 2^20 sectors of zeros. -/
def zeroDevices (_ : Unit) : (op : IdeOp) → ideSig.Answer op × Unit
  | .readAsync _ sectorNum n =>
    if sectorNum.toNat + n ≤ 2 ^ 20 then ((0, List.replicate (512 * n) 0), ()) else ((-1, []), ())
  | .writeAsync _ _ _ _ => ((0 : Int), ())
  | .flush _ => ((0 : Int), ())
  | .getSectorCount _ => ((2 ^ 20 : Int), ())
  | .setIrq _ => ((), ())
  | .endTransfer _ _ => ((), ())

theorem blockDevices_zeroDevices (u : Unit) (op : IdeOp) :
    blockDevices u op (zeroDevices u op).1 (zeroDevices u op).2 := by
  cases op with
  | readAsync bs sectorNum n =>
    unfold zeroDevices blockDevices
    by_cases hle : sectorNum.toNat + n ≤ 2 ^ 20
    · simp only [if_pos hle, List.length_replicate]
      omega
    · simp only [if_neg hle]
      exact ⟨Nat.zero_le _, fun hret => absurd hret (by decide)⟩
  | _ => trivial

def runPorts : List PortOp → IDEIFState → IDEIFState
  | [], s1 => s1
  | op :: ops, s1 => runPorts ops (exec zeroDevices (op.run s1) ()).1

/-- Every operation passes the guard in the state it is executed in. -/
def Along (guard : IDEIFState → PortOp → Prop) : List PortOp → IDEIFState → Prop
  | [], _ => True
  | op :: ops, s1 => guard s1 op ∧ Along guard ops (exec zeroDevices (op.run s1) ()).1

theorem Reachable.runPorts {guard : IDEIFState → PortOp → Prop} {s0 s1 : IDEIFState} {ops : List PortOp}
    (hr : Reachable guard s0 s1) (h : Along guard ops s1) :
    Reachable guard s0 (runPorts ops s1) := by
  induction ops generalizing s1 with
  | nil => exact hr
  | cons op ops ih =>
    exact ih (.step op hr h.1 (exec_runs id blockDevices_zeroDevices (op.run s1) ())) h.2

/-- The transfer lies in the buffer, and so did every access so far. -/
def IDEState.InBuffer (s : IDEState) : Prop :=
  0 ≤ s.dataIndex ∧ s.dataIndex ≤ s.dataEnd ∧ s.dataEnd ≤ s.bufSize ∧ s.outside = false

/-- As long as no READ packet from the mark is executed, every transfer stays in its buffer. -/
theorem transfers_inBuffer {s0 s1 : IDEIFState} (h : Attached s0) (hr : Reachable Clean s0 s1) :
    ∀ i s, s1.drives i = some s → s.InBuffer := by
  intro i s hs
  have hb : Bounded True s := channelBounded_reachable (fun _ _ _ hclean => hclean) h hr i s hs
  exact ⟨hb.index_nonneg, hb.index_le, hb.end_le trivial, hb.inside trivial⟩

instance : DecidablePred IDEState.wildRead := fun s =>
  inferInstanceAs (Decidable (_ ∧ ∃ r ∈ s.readPacket, s.overrun s.packetLba r.1 r.2))

instance (s1 : IDEIFState) (op : PortOp) : Decidable (Clean s1 op) :=
  match h : op.transferred s1 with
  | none => isTrue fun s hs => by rw [h] at hs; cases hs
  | some s => decidable_of_iff
      (s.endTransferFunc = .atapiCmd → s.dataEnd ≤ s.dataIndex → ¬s.wildRead)
      ⟨fun hs s' hs' => by rw [h] at hs'; cases hs'; exact hs, fun hs => hs s h⟩

instance (guard : IDEIFState → PortOp → Prop) [∀ s1 op, Decidable (guard s1 op)] :
    (ops : List PortOp) → (s1 : IDEIFState) → Decidable (Along guard ops s1)
  | [], _ => isTrue trivial
  | _ :: ops, _ =>
    have := instDecidableAlong guard ops
    inferInstanceAs (Decidable (_ ∧ _))

def diskAndCd : IDEIFState where
  drives i := some (if i then ideCddriveInit 4 (by decide) true
    else ideHddriveInit 4 (by decide) false (2 ^ 20) none)

theorem attached_diskAndCd : Attached diskAndCd := by
  refine ⟨rfl, rfl, fun i s hs => ?_⟩
  cases hs
  cases i with
  | false => exact Or.inl ⟨4, by decide, false, 2 ^ 20, none, rfl⟩
  | true => exact Or.inr ⟨4, by decide, true, rfl⟩

/-- A packet for the CD drive, with the largest byte count limit. -/
def sendPacket (words : List UInt32) : List PortOp :=
  [.ioportWrite 6 0xb0, .ioportWrite 4 0xfe, .ioportWrite 5 0xff, .ioportWrite 7 0xa0] ++
    words.map .dataWritew

/-- READ(10) of the sector 16. -/
theorem transfers_inBuffer_read10 :
    let s1 := runPorts (sendPacket [0x0028, 0x0000, 0x1000, 0x0000, 0x0001, 0x0000]) diskAndCd
    (s1.drives true).map (·.dataEnd) = some 2048 ∧ ∀ i s, s1.drives i = some s → s.InBuffer :=
  ⟨by decide +kernel, transfers_inBuffer attached_diskAndCd (Reachable.init.runPorts (by decide +kernel))⟩

/-- READ(10) of 32 sectors from the LBA 0xffffffff, and a string read of what it offers. -/
theorem transfer_leaves_buffer :
    ∃ s1 s, Attached diskAndCd ∧ Reachable (fun _ _ => True) diskAndCd s1 ∧ s1.drives true = some s ∧
      s.bufSize < s.dataEnd ∧ s.outside = true := by
  refine ⟨runPorts (sendPacket [0x0028, 0xffff, 0xffff, 0x0000, 0x0020, 0x0000] ++
    [.dataReadString .long 2]) diskAndCd, _, attached_diskAndCd,
    Reachable.init.runPorts (by decide +kernel), rfl, ?_, ?_⟩
  · decide +kernel
  · decide +kernel

end Winspire.Ide
