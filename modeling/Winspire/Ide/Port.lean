import Winspire.Ide.Atapi

/-!
# The ports of a channel

Two drives, of which one is selected. A transfer that has moved its last byte calls the
function the drive has stored for that.
-/

namespace Winspire.Ide

open Interaction

set_option autoImplicit false

inductive Width where
  | byte
  | word
  | long
  deriving DecidableEq

def Width.bytes : Width → Nat
  | .byte => 1
  | .word => 2
  | .long => 4

/-- No drive is selected before the first write to the drive register. -/
structure IDEIFState where
  drives : Bool → Option IDEState
  cur : Option Bool := none
  cmd : UInt8 := 0

namespace IDEIFState

def curDrive (s1 : IDEIFState) : Option IDEState := s1.cur.bind s1.drives

def setDrive (s1 : IDEIFState) (i : Bool) (s : IDEState) : IDEIFState :=
  { s1 with drives := fun j => if j = i then some s else s1.drives j }

def setCur (s1 : IDEIFState) (s : IDEState) : IDEIFState :=
  match s1.cur with
  | none => s1
  | some i => s1.setDrive i s

def mapDrives (s1 : IDEIFState) (f : IDEState → IDEState) : IDEIFState :=
  { s1 with drives := fun i => (s1.drives i).map f }

end IDEIFState

def endTransfer (cmd : UInt8) (s : IDEState) : IdeProg IDEState :=
  .ask (.endTransfer s.bs s.endTransferFunc) fun _ =>
    match s.endTransferFunc with
    | .transferStop => .ret (ideTransferStop s)
    | .transferStop2 => .ret (ideTransferStop2 s)
    | .sectorRead => ideSectorRead cmd s
    | .sectorReadCbEnd => .ret (ideSectorReadCbEnd s)
    | .sectorWriteCb1 => ideSectorWriteCb1 cmd s
    | .identifyCb => .ret (ideIdentifyCb s)
    | .atapiCmd => ideAtapiCmd cmd s
    | .atapiCmdReplyEnd => ideAtapiCmdReplyEnd cmd s

namespace IDEState

def portAccess (s : IDEState) (len : Nat) : IDEState :=
  s.access s.dataIndex len (min s.dataEnd s.bufSize)

def portStore (s : IDEState) (bytes : List UInt8) : IDEState :=
  { s.portAccess bytes.length with ioBuffer := blit s.ioBuffer s.dataIndex.toNat bytes }

def portBytes (s : IDEState) (len : Nat) : List UInt8 := slice s.ioBuffer s.dataIndex.toNat len

/-- The transfer has moved `len` bytes. -/
def moved (s : IDEState) (len : Int) : IDEState := { s with dataIndex := s.dataIndex + len }

def finish (cmd : UInt8) (s : IDEState) : IdeProg IDEState :=
  if s.dataIndex ≥ s.dataEnd then endTransfer cmd s else .ret s

/-- The bytes a string operation moves: whole elements, as many as are left. -/
def stringLen (s : IDEState) (size count : Nat) : Int :=
  let len1 := min ((size * count : Nat) : Int) (s.dataEnd - s.dataIndex)
  len1 - len1.tmod size

/-- The drive when an element has been stored; `none` if it does not fit. -/
def writeElem (s : IDEState) (bytes : List UInt8) : Option IDEState :=
  if s.dataIndex + bytes.length > s.dataEnd then none
  else some ((s.portStore bytes).moved bytes.length)

def readElem (s : IDEState) (size : Nat) : Option IDEState :=
  if s.dataIndex + size > s.dataEnd then none else some ((s.portAccess size).moved size)

def writeString (s : IDEState) (buf : Nat → UInt8) (size count : Nat) : IDEState :=
  let len1 := s.stringLen size count
  let s := if 0 ≤ len1 then s.portStore (slice buf 0 len1.toNat) else s
  s.moved len1

def readString (s : IDEState) (size count : Nat) : IDEState :=
  let len1 := s.stringLen size count
  let s := if 0 ≤ len1 then s.portAccess len1.toNat else s
  s.moved len1

end IDEState

/-- The common form of `ide_data_writew` and `ide_data_writel`. -/
def ideDataWrite (s1 : IDEIFState) (bytes : List UInt8) : IdeProg IDEIFState :=
  match s1.curDrive with
  | none => .ret s1
  | some s =>
    match s.writeElem bytes with
    | none => .ret s1
    | some s => do
      let s ← s.finish s1.cmd
      return s1.setCur s

/-- The common form of `ide_data_readw` and `ide_data_readl`: the bytes read, zeros if there are
none. -/
def ideDataRead (s1 : IDEIFState) (size : Nat) : IdeProg (IDEIFState × List UInt8) :=
  match s1.curDrive with
  | none => .ret (s1, List.replicate size 0)
  | some s =>
    match s.readElem size with
    | none => .ret (s1, List.replicate size 0)
    | some s' => do
      let s' ← s'.finish s1.cmd
      return (s1.setCur s', s.portBytes size)

def ideDataWritew (s1 : IDEIFState) (val : UInt32) : IdeProg IDEIFState :=
  ideDataWrite s1 (LittleEndian.put 2 val.toNat)

def ideDataWritel (s1 : IDEIFState) (val : UInt32) : IdeProg IDEIFState :=
  ideDataWrite s1 (LittleEndian.put 4 val.toNat)

def ideDataReadw (s1 : IDEIFState) : IdeProg (IDEIFState × UInt32) := do
  let (s1, bytes) ← ideDataRead s1 2
  return (s1, .ofNat (LittleEndian.get bytes))

def ideDataReadl (s1 : IDEIFState) : IdeProg (IDEIFState × UInt32) := do
  let (s1, bytes) ← ideDataRead s1 4
  return (s1, .ofNat (LittleEndian.get bytes))

/-- Elements of `buf` moved to the drive; the result counts them. -/
def ideDataWriteString (s1 : IDEIFState) (buf : Nat → UInt8) (size count : Nat) :
    IdeProg (IDEIFState × Int) :=
  match s1.curDrive with
  | none => .ret (s1, 0)
  | some s => do
    let s' ← (s.writeString buf size count).finish s1.cmd
    return (s1.setCur s', (s.stringLen size count).tdiv size)

def ideDataReadString (s1 : IDEIFState) (size count : Nat) :
    IdeProg (IDEIFState × Int × List UInt8) :=
  match s1.curDrive with
  | none => .ret (s1, 0, [])
  | some s => do
    let len1 := s.stringLen size count
    let s' ← (s.readString size count).finish s1.cmd
    return (s1.setCur s', len1.tdiv size, s.portBytes len1.toNat)

def IDEIFState.setReg (s1 : IDEIFState) (f : IDEState → IDEState) : IDEIFState :=
  match s1.curDrive with
  | none => s1
  | some s => s1.setCur (f s)

def ideIoportWrite (s1 : IDEIFState) (addr : Nat) (val : UInt32) : IdeProg IDEIFState :=
  match addr with
  | 0 => .ret s1
  | 1 => .ret (s1.setReg fun s => { s with feature := val.toUInt8 })
  | 2 => .ret (s1.setReg fun s => { s with nsector := val.toUInt16 })
  | 3 => .ret (s1.setReg fun s => { s with sector := val.toUInt8 })
  | 4 => .ret (s1.setReg fun s => { s with lcyl := val.toUInt8 })
  | 5 => .ret (s1.setReg fun s => { s with hcyl := val.toUInt8 })
  | 6 =>
    let s1 := { s1 with cur := some ((val >>> 4) &&& 1 ≠ 0) }
    .ret (s1.setReg fun s => { s with select := val.toUInt8 })
  | _ =>
    match s1.curDrive with
    | none => .ret s1
    | some s => do
      let s ← match s.driveKind with
        | .hd => ideExecCmd s1.cmd s val.toUInt8
        | .cd => idecdExecCmd s1.cmd s val.toUInt8
      return s1.setCur s

/-- Reading the status register lowers the interrupt line. -/
def ideIoportRead (s1 : IDEIFState) (addr : Nat) : IdeProg UInt32 :=
  match s1.curDrive with
  | none => .ret 0
  | some s =>
    match addr with
    | 0 => .ret 0xff
    | 1 => .ret s.error.toUInt32
    | 2 => .ret s.nsector.toUInt32
    | 3 => .ret s.sector.toUInt32
    | 4 => .ret s.lcyl.toUInt32
    | 5 => .ret s.hcyl.toUInt32
    | 6 => .ret s.select.toUInt32
    | _ => .ask (.setIrq false) fun _ => .ret s.status.toUInt32

def ideStatusRead (s1 : IDEIFState) : UInt32 :=
  match s1.curDrive with
  | none => 0
  | some s => s.status.toUInt32

def ideCmdWrite (s1 : IDEIFState) (val : UInt8) : IDEIFState :=
  let s1 :=
    if s1.cmd &&& ideCmdReset = 0 ∧ val &&& ideCmdReset ≠ 0 then
      s1.mapDrives fun s => { s with status := busyStat ||| seekStat, error := 0x01 }
    else if s1.cmd &&& ideCmdReset ≠ 0 ∧ val &&& ideCmdReset = 0 then
      s1.mapDrives fun s => ideSetSignature { s with status := readyStat ||| seekStat }
    else s1
  { s1 with cmd := val }

/-- `chs` is the geometry the block device reports, if it does. -/
def ideHddriveInit (maxMult : Nat) (h : 4 ≤ maxMult) (bs : Bool) (nbSectors : Int)
    (chs : Option (Nat × Nat × Nat)) : IDEState :=
  let cylinders := ((nbSectors % 2 ^ 64).toNat / (16 * 63)) % 2 ^ 32
  let cylinders := if cylinders > 16383 then 16383 else if cylinders < 2 then 2 else cylinders
  let (cylinders, heads, sectors) := chs.getD (cylinders, 16, 63)
  { maxMult := maxMult
    four_le_maxMult := h
    bs := bs
    driveKind := .hd
    cylinders := cylinders
    heads := heads
    sectors := sectors
    nbSectors := nbSectors
    multSectors := maxMult
    status := readyStat ||| seekStat
    endTransferFunc := .transferStop }

theorem four_le_sixteen : 4 ≤ 16 := by decide

def ideCddriveInit (maxMult : Nat) (h : 4 ≤ maxMult) (bs : Bool) : IDEState :=
  ideSetSignature
    { maxMult := maxMult
      four_le_maxMult := h
      bs := bs
      driveKind := .cd
      status := readyStat ||| seekStat
      endTransferFunc := .transferStop2 }

def ideChangeCd (s1 : IDEIFState) (drive : Bool) : IdeProg IDEIFState :=
  match s1.drives drive with
  | none => .ret s1
  | some s =>
    if s.driveKind = .cd then do
      ideSetIrq s1.cmd
      return s1.setDrive drive { s with
        senseKey := senseUnitAttention
        asc := ascMediumMayHaveChanged
        cdromChanged := true }
    else .ret s1

inductive PortOp where
  | ioportWrite (addr : Nat) (val : UInt32)
  | ioportRead (addr : Nat)
  | statusRead
  | cmdWrite (val : UInt8)
  | dataWritew (val : UInt32)
  | dataWritel (val : UInt32)
  | dataReadw
  | dataReadl
  | dataWriteString (buf : Nat → UInt8) (width : Width) (count : Nat)
  | dataReadString (width : Width) (count : Nat)
  | changeCd (drive : Bool)

/-- What an operation does to the channel; values it returns are left out. -/
def PortOp.run (s1 : IDEIFState) : PortOp → IdeProg IDEIFState
  | .ioportWrite addr val => ideIoportWrite s1 addr val
  | .ioportRead addr => do
    let _ ← ideIoportRead s1 addr
    return s1
  | .statusRead => .ret s1
  | .cmdWrite val => .ret (ideCmdWrite s1 val)
  | .dataWritew val => ideDataWritew s1 val
  | .dataWritel val => ideDataWritel s1 val
  | .dataReadw => do
    let (s1, _) ← ideDataReadw s1
    return s1
  | .dataReadl => do
    let (s1, _) ← ideDataReadl s1
    return s1
  | .dataWriteString buf width count => do
    let (s1, _) ← ideDataWriteString s1 buf width.bytes count
    return s1
  | .dataReadString width count => do
    let (s1, _) ← ideDataReadString s1 width.bytes count
    return s1
  | .changeCd drive => ideChangeCd s1 drive

/-- The selected drive when the operation has moved its data, before the end of the transfer is
looked for. -/
def PortOp.transferred (s1 : IDEIFState) (op : PortOp) : Option IDEState :=
  s1.curDrive.bind fun s =>
    match op with
    | .dataWritew val => s.writeElem (LittleEndian.put 2 val.toNat)
    | .dataWritel val => s.writeElem (LittleEndian.put 4 val.toNat)
    | .dataReadw => s.readElem 2
    | .dataReadl => s.readElem 4
    | .dataWriteString buf width count => some (s.writeString buf width.bytes count)
    | .dataReadString width count => some (s.readString width.bytes count)
    | _ => none

end Winspire.Ide
