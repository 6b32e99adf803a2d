import Winspire.Lib.Blit
import Winspire.Lib.LittleEndian
import Mathlib.Tactic.IntervalCases

/-!
# The WRBP wire format

Both ends declare the same 32-byte structure and send it as it lies in memory, so the
format is the little-endian layout of `NetBlockHeader`. Client and server declare the
operation codes separately; they agree and are given once.
-/

namespace Winspire.Netblk

set_option autoImplicit false

def sectorSize : Nat := 512

abbrev Sector := Fin 512 → UInt8

def netblkVersion : UInt16 := 1
def netblkOpHello : UInt16 := 1
def netblkOpRead : UInt16 := 2
def netblkOpWrite : UInt16 := 3
def netblkOpFlush : UInt16 := 4
def netblkOpPing : UInt16 := 5
def netblkOpTime : UInt16 := 8

def netblkStatusOk : UInt32 := 0
def netblkStatusBadVersion : UInt32 := 2
def netblkStatusRange : UInt32 := 3
def netblkStatusWrite : UInt32 := 4
def netblkStatusBadOp : UInt32 := 5

/-- `NETBLK_MAX_SECTORS` of the client and `NETBLK_PROTOCOL_MAX_SECTORS` of the server. -/
def netblkMaxSectors : Nat := 1024

structure NetBlockHeader where
  magic : Vector UInt8 4
  version : UInt16
  op : UInt16
  lba : UInt64
  count : UInt32
  bytes : UInt32
  status : UInt32
  flags : UInt32
  deriving DecidableEq, Repr

def netblkMagic : Vector UInt8 4 := #v[0x57, 0x52, 0x42, 0x50]

namespace NetBlockHeader

open LittleEndian

def size : Nat := 32

def encode (h : NetBlockHeader) : List UInt8 :=
  h.magic.toList ++ put 2 h.version.toNat ++ put 2 h.op.toNat ++ put 8 h.lba.toNat ++
    put 4 h.count.toNat ++ put 4 h.bytes.toNat ++ put 4 h.status.toNat ++ put 4 h.flags.toNat

/-- The header in the first 32 bytes of `bs`. -/
def decode (bs : List UInt8) : NetBlockHeader where
  magic := #v[bs.getD 0 0, bs.getD 1 0, bs.getD 2 0, bs.getD 3 0]
  version := .ofNat (get ((bs.drop 4).take 2))
  op := .ofNat (get ((bs.drop 6).take 2))
  lba := .ofNat (get ((bs.drop 8).take 8))
  count := .ofNat (get ((bs.drop 16).take 4))
  bytes := .ofNat (get ((bs.drop 20).take 4))
  status := .ofNat (get ((bs.drop 24).take 4))
  flags := .ofNat (get ((bs.drop 28).take 4))

@[simp] theorem length_encode (h : NetBlockHeader) : h.encode.length = size := by
  simp [encode, size]

theorem decode_encode (h : NetBlockHeader) : decode h.encode = h := by
  have magic : #v[h.encode.getD 0 0, h.encode.getD 1 0, h.encode.getD 2 0, h.encode.getD 3 0] =
      h.magic := by
    ext i hi
    interval_cases i <;> simp [encode]
  simp only [decode, magic]
  simp [encode, List.drop_append, List.drop_eq_nil_of_le, List.take_of_length_le, get_put]

end NetBlockHeader

/-- The words of a ping payload, in the order of the structure. `curIp` to `curCode47` are
declared but never set by the client. -/
structure NetPingTelemetry where
  magic : UInt32
  phys : UInt32
  flags : UInt32
  state : UInt32
  code03 : UInt32
  code47 : UInt32
  curIp : UInt32 := 0
  excno : UInt32 := 0
  excerr : UInt32 := 0
  cr2 : UInt32 := 0
  curCode03 : UInt32 := 0
  curCode47 : UInt32 := 0
  netWaitUsLo : UInt32
  netWaitUsHi : UInt32
  readHitSectors : UInt32
  readMissSectors : UInt32
  storedSectors : UInt32
  writebackFlushes : UInt32

namespace NetPingTelemetry

def words (t : NetPingTelemetry) : List UInt32 :=
  [t.magic, t.phys, t.flags, t.state, t.code03, t.code47, t.curIp, t.excno, t.excerr, t.cr2,
    t.curCode03, t.curCode47, t.netWaitUsLo, t.netWaitUsHi, t.readHitSectors,
    t.readMissSectors, t.storedSectors, t.writebackFlushes]

def encode (t : NetPingTelemetry) : List UInt8 := t.words.flatMap fun w => LittleEndian.put 4 w.toNat

@[simp] theorem length_encode (t : NetPingTelemetry) : t.encode.length = 72 := by
  simp [encode, words]

end NetPingTelemetry

/-- The bytes of a run of sectors, as `memcpy` lays them out. -/
def sectorBytes (data : List Sector) : List UInt8 := flattenCells data

/-- The `count` sectors stored in a byte buffer. -/
def bytesSectors (count : Nat) (bs : List UInt8) : List Sector := groupCells sectorSize 0 count bs

@[simp] theorem length_sectorBytes (data : List Sector) :
    (sectorBytes data).length = data.length * sectorSize := length_flattenCells data

theorem bytesSectors_sectorBytes (data : List Sector) :
    bytesSectors data.length (sectorBytes data) = data := groupCells_flattenCells 0 data

end Winspire.Netblk
