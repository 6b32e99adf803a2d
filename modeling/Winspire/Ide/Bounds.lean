import Winspire.Ide.Port

/-!
# The transfer buffer

Every transfer stays inside `io_buffer`, as long as no READ packet carries the LBA that the
source uses to mark an answer: `clean` stands for that. The drive keeps `Bounded`; `ReplyOk` is
the part of it that carries an ATAPI transfer from one chunk to the next.
-/

namespace Winspire.Ide

open Interaction

set_option autoImplicit false

variable {clean : Prop}

/-- Block devices store at most what was asked for, and a read that succeeds lies inside a device
whose size is a signed 64-bit number. -/
def blockDevices : Env ideSig Unit := fun _ op r _ =>
  match op with
  | .readAsync _ sectorNum n => r.2.length ≤ 512 * n ∧ (0 ≤ r.1 → sectorNum.toNat + n ≤ 2 ^ 63)
  | _ => True

/-- What is left of an ATAPI transfer: an answer lies in the buffer as a whole, sectors come one
at a time. -/
def ReplyOk (clean : Prop) (s : IDEState) : Prop :=
  0 < s.packetTransferSize →
    (s.lba = -1 ∧ s.elementaryTransferSize ≤ 0 ∧ 0 ≤ s.ioBufferIndex ∧
      (clean → s.ioBufferIndex + s.packetTransferSize ≤ s.bufSize)) ∨
    (s.lba ≠ -1 ∧ -2 ^ 31 ≤ s.lba ∧ s.lba < 2 ^ 31 ∧ 0 ≤ s.ioBufferIndex ∧
      (s.cdSectorSize = 2048 ∧ s.ioBufferIndex ≤ 2048 ∨
        s.cdSectorSize = 2352 ∧ s.ioBufferIndex = 2352))

structure Steady (clean : Prop) (s : IDEState) : Prop where
  mult_le : s.multSectors ≤ s.maxMult
  req_le : s.reqNbSectors ≤ s.maxMult
  io_le : s.ioNbSectors ≤ s.maxMult
  inside : clean → s.outside = false

structure Bounded (clean : Prop) (s : IDEState) : Prop extends Steady clean s where
  index_nonneg : 0 ≤ s.dataIndex
  index_le : s.dataIndex ≤ s.dataEnd
  end_le : clean → s.dataEnd ≤ s.bufSize
  reply : s.endTransferFunc = .atapiCmdReplyEnd → ReplyOk clean s

theorem bufSize_ge (s : IDEState) : 2052 ≤ s.bufSize := by
  have h := s.four_le_maxMult
  unfold IDEState.bufSize
  omega

theorem access_of_le {s : IDEState} {off len bound : Int} (hoff : 0 ≤ off) (hle : off + len ≤ bound) :
    s.access off len bound = s := by
  simp [IDEState.access, hoff, hle]

theorem access_zero (s : IDEState) (off bound : Int) : s.access off 0 bound = s := by
  simp [IDEState.access]

theorem put_of_le {s : IDEState} {off : Nat} {bytes : List UInt8}
    (hle : (off + bytes.length : Int) ≤ s.bufSize) :
    s.put off bytes = { s with ioBuffer := blit s.ioBuffer off bytes } := by
  unfold IDEState.put
  rw [access_of_le (by omega) hle]

theorem Steady.put {s : IDEState} (h : Steady clean s) {off : Nat} {bytes : List UInt8}
    (hle : (off + bytes.length : Int) ≤ s.bufSize) : Steady clean (s.put off bytes) := by
  rw [put_of_le hle]
  exact { h with }

theorem Bounded.put {s : IDEState} (h : Bounded clean s) {off : Nat} {bytes : List UInt8}
    (hle : (off + bytes.length : Int) ≤ s.bufSize) : Bounded clean (s.put off bytes) := by
  rw [put_of_le hle]
  exact { h with }

@[simp] theorem bufSize_put (s : IDEState) (off : Nat) (bytes : List UInt8) :
    (s.put off bytes).bufSize = s.bufSize := rfl

theorem Bounded.stw {s : IDEState} (h : Bounded clean s) {words : List (Nat × Nat)}
    (hle : (words.all fun w => w.1 < 512) = true) : Bounded clean (s.stw words) := by
  induction words generalizing s with
  | nil => exact h
  | cons w words ih =>
    rw [List.all_cons, Bool.and_eq_true, decide_eq_true_eq] at hle
    have hsize := bufSize_ge s
    refine ih (h.put ?_) hle.2
    rw [LittleEndian.length_put]
    omega

theorem Bounded.put_low {s : IDEState} (h : Bounded clean s) {off : Nat} {bytes : List UInt8}
    (hle : off + bytes.length ≤ 1024) : Bounded clean (s.put off bytes) := by
  have hsize := bufSize_ge s
  exact h.put (by omega)

theorem length_padstr (src : List UInt8) (len : Nat) : (padstr src len).length = len := by
  rw [padstr, List.length_map, List.length_range]

theorem Bounded.ideIdentify {s : IDEState} (h : Bounded clean s) : Bounded clean (ideIdentify s) := by
  have hclear : Bounded clean (s.put 0 (List.replicate (512 * 2) 0)) :=
    h.put_low (by rw [List.length_replicate])
  have hmult : ∀ s', Bounded clean s' → Bounded clean (if s'.multSectors ≠ 0
      then s'.stw [(59, 0x100 ||| s'.multSectors)] else s') := by
    intro s' h'
    split
    · exact h'.stw rfl
    · exact h'
  refine Bounded.stw (hmult _ (Bounded.stw (Bounded.put_low (hclear.stw rfl) ?_) rfl)) rfl
  rw [length_padstr]
  decide

theorem Bounded.ideAtapiIdentify {s : IDEState} (h : Bounded clean s) : Bounded clean (ideAtapiIdentify s) := by
  have hclear : Bounded clean (s.put 0 (List.replicate (512 * 2) 0)) :=
    h.put_low (by rw [List.length_replicate])
  refine Bounded.stw (Bounded.put_low (hclear.stw rfl) ?_) rfl
  rw [length_padstr]
  decide

/-- Whatever the block devices answer, the drive ends up inside its bounds. -/
def Keeps (clean : Prop) (p : IdeProg IDEState) : Prop := wp blockDevices p (fun s _ => Bounded clean s) ()

theorem Keeps.interrupt {s : IDEState} {cmd : UInt8} (h : Bounded clean s) : Keeps clean (s.interrupt cmd) := by
  unfold Keeps IDEState.interrupt ideSetIrq
  split
  · exact fun _ _ _ => h
  · exact h

theorem Keeps.ask {op : IdeOp} {k : ideSig.Answer op → IdeProg IDEState}
    (h : ∀ r, blockDevices () op r () → Keeps clean (k r)) : Keeps clean (.ask op k) := fun r _ hr => h r hr

theorem Keeps.ite {c : Prop} [Decidable c] {p q : IdeProg IDEState} (hp : c → Keeps clean p)
    (hq : ¬c → Keeps clean q) : Keeps clean (if c then p else q) := by
  split
  · exact hp ‹_›
  · exact hq ‹_›

theorem Bounded.ideAbortCommand {s : IDEState} (h : Bounded clean s) : Bounded clean (ideAbortCommand s) :=
  { h with }

theorem Bounded.ideSetSector {s : IDEState} (h : Bounded clean s) (x : Int) : Bounded clean (ideSetSector s x) := by
  unfold Winspire.Ide.ideSetSector
  split <;> exact { h with }

theorem Bounded.ideSetSignature {s : IDEState} (h : Bounded clean s) : Bounded clean (ideSetSignature s) :=
  { h with }

theorem Steady.ideSetSector {s : IDEState} (h : Steady clean s) (x : Int) : Steady clean (ideSetSector s x) := by
  unfold Winspire.Ide.ideSetSector
  split <;> exact { h with }

theorem Steady.advance {s : IDEState} (h : Steady clean s) (n : Nat) : Steady clean (s.advance n) :=
  { h.ideSetSector (ideGetSector s + n) with }

theorem Steady.transferStop {s : IDEState} (h : Steady clean s) : Bounded clean (ideTransferStop s) :=
  { h with
    index_nonneg := Int.le_refl 0
    index_le := Int.le_refl 0
    end_le := fun _ => Int.le_trans (show (0 : Int) ≤ 2052 by decide) (bufSize_ge s)
    reply := fun hf => by simp [ideTransferStop] at hf }

theorem Steady.transferStop2 {s : IDEState} (h : Steady clean s) : Bounded clean (ideTransferStop2 s) :=
  { h with
    index_nonneg := Int.le_refl 0
    index_le := Int.le_refl 0
    end_le := fun _ => Int.le_trans (show (0 : Int) ≤ 2052 by decide) (bufSize_ge s)
    reply := fun hf => by simp [ideTransferStop2] at hf }

theorem Steady.transferStart {s : IDEState} (h : Steady clean s) {n : Nat} (hn : n ≤ s.maxMult)
    (func : EndTransfer) (hfunc : func ≠ .atapiCmdReplyEnd) :
    Bounded clean (ideTransferStart s (512 * n) func) :=
  { h with
    index_nonneg := Int.le_refl 0
    index_le := by simp only [ideTransferStart]; omega
    end_le := fun _ => by simp only [ideTransferStart, IDEState.bufSize]; omega
    reply := fun hf => absurd hf hfunc }

theorem maxMult_advance (s : IDEState) (n : Nat) : (s.advance n).maxMult = s.maxMult := by
  unfold IDEState.advance ideSetSector
  split <;> rfl

theorem reqNbSectors_advance (s : IDEState) (n : Nat) :
    (s.advance n).reqNbSectors = s.reqNbSectors := by
  unfold IDEState.advance ideSetSector
  split <;> rfl

section Disk
variable {s : IDEState} {cmd : UInt8}

theorem Keeps.afterIrq {k : Unit → IdeProg IDEState} (h : Keeps clean (k ())) :
    Keeps clean (ideSetIrq cmd >>= k) := by
  unfold ideSetIrq
  split
  · exact fun _ _ _ => h
  · exact h

theorem blockSectors_le (h : Steady clean s) : s.blockSectors ≤ s.maxMult :=
  Nat.le_trans (Nat.min_le_right _ _) h.req_le

theorem keeps_ideSectorReadCb (h : Steady clean s) : Keeps clean (ideSectorReadCb cmd s) := by
  unfold ideSectorReadCb
  apply Keeps.afterIrq
  have hstart : ∀ func, func ≠ .atapiCmdReplyEnd →
      Bounded clean (ideTransferStart (s.advance s.ioNbSectors) (512 * s.ioNbSectors) func) :=
    fun func hfunc => (h.advance _).transferStart (by rw [maxMult_advance]; exact h.io_le) func hfunc
  have hnext := hstart (if (s.advance s.ioNbSectors).nsector = 0 then .sectorReadCbEnd
    else .sectorRead) (by split <;> simp)
  exact { hnext with }

theorem keeps_ideSectorRead (h : Bounded clean s) : Keeps clean (ideSectorRead cmd s) := by
  have hn := blockSectors_le h.toSteady
  have hio : Bounded clean { s with ioNbSectors := s.blockSectors } := { h with io_le := hn }
  unfold ideSectorRead
  apply Keeps.ask
  rintro ⟨ret, bytes⟩ ⟨hlen, _⟩
  have hfits : ((0 : Nat) + bytes.length : Int) ≤ s.bufSize := by
    simp only [IDEState.bufSize]
    simp only at hlen
    omega
  simp only
  rw [access_of_le (Int.le_refl 0) (by simp only [IDEState.bufSize]; omega)]
  have hput := hio.put hfits
  split
  · exact .interrupt hput.ideAbortCommand
  · split
    · exact keeps_ideSectorReadCb hput.toSteady
    · exact { hput with }

theorem keeps_ideSectorWriteCb2 (h : Bounded clean s) : Keeps clean (ideSectorWriteCb2 cmd s) := by
  have hadv := h.advance s.ioNbSectors
  unfold ideSectorWriteCb2
  simp only
  split
  · have hset := h.ideSetSector (ideGetSector s + s.ioNbSectors)
    exact .interrupt { hset with }
  · have hle : min (s.advance s.ioNbSectors).nsector.toNat (s.advance s.ioNbSectors).reqNbSectors ≤
        (s.advance s.ioNbSectors).maxMult := Nat.le_trans (Nat.min_le_right _ _) hadv.req_le
    have hio : Steady clean { s.advance s.ioNbSectors with
        ioNbSectors := min (s.advance s.ioNbSectors).nsector.toNat
          (s.advance s.ioNbSectors).reqNbSectors } := { hadv with io_le := hle }
    have hstart := hio.transferStart hle .sectorWriteCb1 (by simp)
    exact .interrupt { hstart with }

theorem keeps_ideSectorWriteCb1 (h : Steady clean s) : Keeps clean (ideSectorWriteCb1 cmd s) := by
  have hstop := h.transferStop
  unfold ideSectorWriteCb1
  simp only
  rw [access_of_le (Int.le_refl 0) (by
    have := hstop.io_le
    simp only [IDEState.bufSize]
    omega)]
  apply Keeps.ask
  intro ret _
  split
  · exact .interrupt hstop.ideAbortCommand
  · split
    · exact keeps_ideSectorWriteCb2 hstop
    · exact { hstop with }

theorem bounded_ideSectorWrite (h : Steady clean s) : Bounded clean (ideSectorWrite s) := by
  have hn := blockSectors_le h
  have hio : Steady clean { s with ioNbSectors := s.blockSectors } := { h with io_le := hn }
  have hstart := hio.transferStart hn .sectorWriteCb1 (by simp)
  exact { hstart with }

theorem keeps_ideExecCmd (h : Bounded clean s) (val : UInt8) : Keeps clean (ideExecCmd cmd s val) := by
  have habort : Keeps clean ((ideAbortCommand s).interrupt cmd) := .interrupt h.ideAbortCommand
  have hreq : ∀ n, n ≤ s.maxMult → Bounded clean { s with reqNbSectors := n } :=
    fun n hn => { h with req_le := hn }
  have hone : 1 ≤ s.maxMult := Nat.le_trans (by decide) s.four_le_maxMult
  unfold ideExecCmd
  by_cases hidentify : val = winIdentify
  · rw [if_pos hidentify]
    have hid := h.ideIdentify
    generalize ideIdentify s = s' at hid
    have hstart := hid.transferStart (n := 1) (Nat.le_trans (by decide) s'.four_le_maxMult)
      .identifyCb (by simp)
    exact .interrupt { hstart with }
  rw [if_neg hidentify]
  by_cases hrecal : val = winSpecify ∨ val = winRecal
  · rw [if_pos hrecal]
    exact .interrupt { h with }
  rw [if_neg hrecal]
  by_cases hsetmult : val = winSetmult
  · rw [if_pos hsetmult]
    split
    · exact habort
    · rename_i hno
      have hle : s.nsector.toNat ≤ s.maxMult := by
        by_contra hgt
        exact hno (Or.inl (by omega))
      exact .interrupt { h with mult_le := hle }
  rw [if_neg hsetmult]
  split
  · exact keeps_ideSectorRead (hreq 1 hone)
  split
  · exact bounded_ideSectorWrite (hreq 1 hone).toSteady
  split
  · split
    · exact habort
    · exact keeps_ideSectorRead (hreq _ h.mult_le)
  split
  · split
    · exact habort
    · exact bounded_ideSectorWrite (hreq _ h.mult_le).toSteady
  split
  · have hset := h.ideSetSector (s.nbSectors - 1)
    exact .interrupt { hset with }
  split
  · apply Keeps.ask
    intro ret _
    split
    · exact habort
    · exact .interrupt { h with }
  · exact habort

end Disk

end Winspire.Ide
