import Winspire.Lib.Interaction
import Winspire.Lib.Blit
import Winspire.Lib.LittleEndian

/-!
# A drive of ide.c

The fields of `IDEState` and the functions both kinds of drives use. Block device requests and
the interrupt line are operations of the environment, and so is the mark that a transfer has
come to its end. `int` is `Int`, or `Nat` where only counts are stored in it; it wraps where the
source can overflow it.
-/

namespace Winspire.Ide

open Interaction

set_option autoImplicit false

def errStat : UInt8 := 0x01
def drqStat : UInt8 := 0x08
def seekStat : UInt8 := 0x10
def readyStat : UInt8 := 0x40
def busyStat : UInt8 := 0x80

def abrtErr : UInt8 := 0x04
def mcErr : UInt8 := 0x20

def ideCmdReset : UInt8 := 0x04
def ideCmdDisableIrq : UInt8 := 0x02

inductive DriveKind where
  | hd
  | cd
  deriving DecidableEq

/-- The functions `end_transfer_func` is set to. -/
inductive EndTransfer where
  | transferStop
  | transferStop2
  | sectorRead
  | sectorReadCbEnd
  | sectorWriteCb1
  | identifyCb
  | atapiCmd
  | atapiCmdReplyEnd
  deriving DecidableEq

/-- `bs` names the block device. `MAX_MULT_SECTORS` is 4 or 16, depending on the build. -/
structure IDEState where
  maxMult : Nat
  four_le_maxMult : 4 ≤ maxMult
  bs : Bool
  driveKind : DriveKind
  cylinders : Nat := 0
  heads : Nat := 0
  sectors : Nat := 0
  multSectors : Nat := 0
  nbSectors : Int := 0
  feature : UInt8 := 0
  error : UInt8 := 0
  nsector : UInt16 := 0
  sector : UInt8 := 0
  lcyl : UInt8 := 0
  hcyl : UInt8 := 0
  select : UInt8 := 0xa0
  status : UInt8
  senseKey : UInt8 := 0
  asc : UInt8 := 0
  cdromChanged : Bool := false
  packetTransferSize : Int := 0
  elementaryTransferSize : Int := 0
  ioBufferIndex : Int := 0
  lba : Int := 0
  cdSectorSize : Int := 0
  ioNbSectors : Nat := 0
  reqNbSectors : Nat := 0
  endTransferFunc : EndTransfer
  dataIndex : Int := 0
  dataEnd : Int := 0
  /-- Memory from the first byte of the buffer on. -/
  ioBuffer : Nat → UInt8 := fun _ => 0
  /-- An access has left the buffer, or the part of it that is being transferred. -/
  outside : Bool := false

inductive IdeOp where
  | readAsync (bs : Bool) (sectorNum : UInt64) (n : Nat)
  | writeAsync (bs : Bool) (sectorNum : UInt64) (n : Nat) (data : List UInt8)
  | flush (bs : Bool)
  | getSectorCount (bs : Bool)
  | setIrq (level : Bool)
  | endTransfer (bs : Bool) (func : EndTransfer)

/-- `read_async` returns a code and the bytes it stored from the start of the buffer on. -/
@[reducible] def ideSig : Signature where
  Op := IdeOp
  Answer
    | .readAsync _ _ _ => Int × List UInt8
    | .writeAsync _ _ _ _ => Int
    | .flush _ => Int
    | .getSectorCount _ => Int
    | .setIrq _ => Unit
    | .endTransfer _ _ => Unit

abbrev IdeProg := Prog ideSig

/-- The conversion to `int`. -/
def int32 (x : Int) : Int := (BitVec.ofInt 32 x).toInt

theorem int32_eq {x : Int} (hl : -2 ^ 31 ≤ x) (hu : x < 2 ^ 31) : int32 x = x := by
  unfold int32
  rw [BitVec.toInt_ofInt]
  simp only [Int.bmod]
  split <;> omega

namespace IDEState

/-- `sizeof(io_buffer)`. -/
def bufSize (s : IDEState) : Int := s.maxMult * 512 + 4

/-- An access to `len` bytes from `off` on, which should stay below `bound`. -/
def access (s : IDEState) (off len bound : Int) : IDEState :=
  { s with outside := s.outside || (0 < len && !(0 ≤ off && off + len ≤ bound)) }

def put (s : IDEState) (off : Nat) (bytes : List UInt8) : IDEState :=
  { s.access off bytes.length s.bufSize with ioBuffer := blit s.ioBuffer off bytes }

/-- Store 16-bit words, each at its word offset. -/
def stw (s : IDEState) (words : List (Nat × Nat)) : IDEState :=
  words.foldl (fun s w => s.put (2 * w.1) (LittleEndian.put 2 w.2)) s

end IDEState

def chars (text : String) : List UInt8 := text.toList.map fun c => c.val.toUInt8

/-- The two bytes of each word are swapped. -/
def padstr (src : List UInt8) (len : Nat) : List UInt8 :=
  (List.range len).map fun i => src.getD (i ^^^ 1) 0x20

def padstr8 (size : Nat) (src : List UInt8) : List UInt8 :=
  (List.range size).map fun i => src.getD i 0x20

def word16 (x : Int) : Nat := (x % 65536).toNat

def ideIdentify (s : IDEState) : IDEState :=
  let s := s.put 0 (List.replicate (512 * 2) 0)
  let s := s.stw [(0, 0x0040), (1, s.cylinders), (3, s.heads), (4, 512 * s.sectors), (5, 512),
    (6, s.sectors), (20, 3), (21, 512), (22, 4)]
  let s := s.put (2 * 27) (padstr (chars "TINY386 HARDDISK") 40)
  let oldsize := s.cylinders * s.heads * s.sectors % 2 ^ 32
  let s := s.stw [(47, 0x8000 ||| s.maxMult), (48, 1), (49, 1 <<< 9), (51, 0x200), (52, 0x200),
    (54, s.cylinders), (55, s.heads), (56, s.sectors), (57, oldsize), (58, oldsize >>> 16)]
  let s := if s.multSectors ≠ 0 then s.stw [(59, 0x100 ||| s.multSectors)] else s
  s.stw [(60, word16 s.nbSectors), (61, word16 (s.nbSectors / 65536)), (80, 1 <<< 1 ||| 1 <<< 2),
    (82, 1 <<< 14), (83, 1 <<< 14), (84, 1 <<< 14), (85, 1 <<< 14), (86, 0), (87, 1 <<< 14)]

def ideAtapiIdentify (s : IDEState) : IDEState :=
  let s := s.put 0 (List.replicate (512 * 2) 0)
  let s := s.stw [(0, 2 <<< 14 ||| 5 <<< 8 ||| 1 <<< 7 ||| 2 <<< 5 ||| 0 <<< 0), (20, 3), (21, 512),
    (22, 4)]
  let s := s.put (2 * 27) (padstr (chars "TINY386 CD-ROM") 40)
  s.stw [(48, 1), (49, 1 <<< 9), (53, 3), (63, 0x103), (64, 1), (65, 0xb4), (66, 0xb4), (67, 0x12c),
    (68, 0xb4), (71, 30), (72, 30), (80, 0x1e)]

def ideSetSignature (s : IDEState) : IDEState :=
  { s with
    select := s.select &&& 0xf0
    nsector := 1
    sector := 1
    lcyl := if s.driveKind = .cd then 0x14 else 0
    hcyl := if s.driveKind = .cd then 0xeb else 0 }

def ideAbortCommand (s : IDEState) : IDEState :=
  { s with status := readyStat ||| errStat, error := abrtErr }

/-- `cmd` is the control register of the channel. -/
def ideSetIrq (cmd : UInt8) : IdeProg Unit :=
  if cmd &&& ideCmdDisableIrq = 0 then .ask (.setIrq true) .ret else .ret ()

def IDEState.interrupt (s : IDEState) (cmd : UInt8) : IdeProg IDEState := do
  ideSetIrq cmd
  return s

def ideTransferStart (s : IDEState) (size : Int) (func : EndTransfer) : IDEState :=
  { s with endTransferFunc := func, dataIndex := 0, dataEnd := size }

def ideTransferStop (s : IDEState) : IDEState :=
  { s with endTransferFunc := .transferStop, dataIndex := 0, dataEnd := 0 }

def ideTransferStart2 (s : IDEState) (off size : Int) (func : EndTransfer) : IDEState :=
  { s with
    endTransferFunc := func
    dataIndex := off
    dataEnd := off + size
    status := if s.status &&& errStat = 0 then s.status ||| drqStat else s.status }

def ideTransferStop2 (s : IDEState) : IDEState :=
  { s with
    endTransferFunc := .transferStop2
    dataIndex := 0
    dataEnd := 0
    status := s.status &&& ~~~drqStat }

def ideGetSector (s : IDEState) : Int :=
  if s.select &&& 0x40 ≠ 0 then
    (((s.select &&& 0x0f).toNat <<< 24 ||| s.hcyl.toNat <<< 16 ||| s.lcyl.toNat <<< 8 |||
      s.sector.toNat : Nat) : Int)
  else
    ((s.hcyl.toNat <<< 8 ||| s.lcyl.toNat : Nat) : Int) * s.heads * s.sectors +
      (s.select &&& 0x0f).toNat * s.sectors + (s.sector.toNat - 1)

def byteOf (x : Int) : UInt8 := .ofNat (x % 256).toNat

def ideSetSector (s : IDEState) (sectorNum : Int) : IDEState :=
  if s.select &&& 0x40 ≠ 0 then
    { s with
      select := (s.select &&& 0xf0) ||| (byteOf (sectorNum / 2 ^ 24) &&& 0x0f)
      hcyl := byteOf (sectorNum / 2 ^ 16)
      lcyl := byteOf (sectorNum / 2 ^ 8)
      sector := byteOf sectorNum }
  else
    let cyl := sectorNum.tdiv (s.heads * s.sectors) % 2 ^ 32
    let r := sectorNum.tmod (s.heads * s.sectors) % 2 ^ 32
    { s with
      hcyl := byteOf (cyl / 256)
      lcyl := byteOf cyl
      select := (s.select &&& 0xf0) ||| (byteOf (r / s.sectors) &&& 0x0f)
      sector := byteOf (r % s.sectors + 1) }

end Winspire.Ide
