import Winspire.Ide.Image

/-!
# The read cache of an image file

The handheld build keeps windows of the image in memory. A request that lies inside a window is
copied from there; one that does not is read as a window that starts at it, or by itself if that
fails. The accesses of the host file may fail, each at any byte.
-/

namespace Winspire.Ide

set_option autoImplicit false

/-- An access of the host file: whether the seek succeeds, and after how many bytes an error stops
the transfer. -/
structure FileAccess where
  seek : Bool := true
  moved : Nat

namespace FileAccess

def read (a : FileAccess) (f : ImageFile) (off len : Nat) : List UInt8 :=
  if a.seek then (f.fread off len).take a.moved else []

def readDone (a : FileAccess) (f : ImageFile) (off len : Nat) : Prop :=
  a.seek = true ∧ (a.read f off len).length = len

instance (a : FileAccess) (f : ImageFile) (off len : Nat) : Decidable (a.readDone f off len) :=
  inferInstanceAs (Decidable (_ ∧ _))

def write (a : FileAccess) (f : ImageFile) (off : Nat) (data : List UInt8) : ImageFile :=
  let data := data.take a.moved
  if a.seek = true ∧ data ≠ [] then
    { size := max f.size (off + data.length), bytes := blit f.bytes off data }
  else f

def writeDone (a : FileAccess) (data : List UInt8) : Prop :=
  a.seek = true ∧ (data.take a.moved).length = data.length

instance (a : FileAccess) (data : List UInt8) : Decidable (a.writeDone data) :=
  inferInstanceAs (Decidable (_ ∧ _))

end FileAccess

/-- The accesses of one call: `fill` reads a window, the others are those of a build without the
cache. -/
structure FileAccesses where
  fill : FileAccess
  direct : Nat → FileAccess

namespace BlockDeviceFile

/-- The check at the start of both functions. -/
def admits (bf : BlockDeviceFile) (sectorNum : UInt64) (n : Int) : Prop :=
  0 ≤ n ∧ sectorNum.toNat ≤ bf.nbSectors ∧ n.toNat ≤ bf.nbSectors - sectorNum.toNat

instance (bf : BlockDeviceFile) (sectorNum : UInt64) (n : Int) : Decidable (bf.admits sectorNum n) :=
  inferInstanceAs (Decidable (_ ∧ _ ∧ _))

def offset (bf : BlockDeviceFile) (sectorNum : Nat) : Nat := bf.startOffset + sectorNum * sectorSize

def content (bf : BlockDeviceFile) (sectorNum n : Nat) : List UInt8 :=
  slice bf.f.bytes (bf.offset sectorNum) (n * sectorSize)

/-- The loop of a snapshot, from access `i` on. -/
def readSnapshot (bf : BlockDeviceFile) (direct : Nat → FileAccess) :
    Nat → Nat → Nat → Int × List UInt8
  | _, _, 0 => (0, [])
  | i, sectorNum, n + 1 =>
    match bf.sectorTable sectorNum with
    | some data =>
      let (ret, rest) := bf.readSnapshot direct i (sectorNum + 1) n
      (ret, data ++ rest)
    | none =>
      let data := (direct i).read bf.f (sectorNum * sectorSize) sectorSize
      if (direct i).readDone bf.f (sectorNum * sectorSize) sectorSize then
        let (ret, rest) := bf.readSnapshot direct (i + 1) (sectorNum + 1) n
        (ret, data ++ rest)
      else (-1, data)

def readFile (bf : BlockDeviceFile) (direct : FileAccess) (sectorNum n : Nat) : Int × List UInt8 :=
  let bytes := n * sectorSize
  (if direct.readDone bf.f (bf.offset sectorNum) bytes then 0 else -1,
    direct.read bf.f (bf.offset sectorNum) bytes)

/-- The sectors a snapshot keeps in memory from now on. -/
def writeSnapshot (bf : BlockDeviceFile) (sectorNum n : Nat) (buf : Nat → UInt8) : BlockDeviceFile :=
  { bf with
    sectorTable := fun i =>
      if sectorNum ≤ i ∧ i < sectorNum + n then
        some (slice buf ((i - sectorNum) * sectorSize) sectorSize)
      else bf.sectorTable i }

end BlockDeviceFile

/-- The code returned, and the bytes stored from the start of the buffer on. -/
def bfReadAsync (bf : BlockDeviceFile) (h : FileAccesses) (sectorNum : UInt64) (n : Int) :
    Int × List UInt8 :=
  if bf.admits sectorNum n then
    if bf.mode = .snapshot then bf.readSnapshot h.direct 0 sectorNum.toNat n.toNat
    else bf.readFile (h.direct 0) sectorNum.toNat n.toNat
  else (-1, [])

def bfWriteAsync (bf : BlockDeviceFile) (h : FileAccesses) (sectorNum : UInt64) (buf : Nat → UInt8)
    (n : Int) : Int × BlockDeviceFile :=
  if bf.admits sectorNum n then
    let data := slice buf 0 (n.toNat * sectorSize)
    match bf.mode with
    | .ro => (-1, bf)
    | .rw =>
      (if (h.direct 0).writeDone data then 0 else -1,
        { bf with f := (h.direct 0).write bf.f (bf.offset sectorNum.toNat) data })
    | .snapshot => (0, bf.writeSnapshot sectorNum.toNat n.toNat buf)
  else (-1, bf)

/-- The sizes the handheld build can be configured with. -/
inductive NspireBuild where
  | full
  | lowMem
  | xpeLowMem

namespace NspireBuild

def sectors : NspireBuild → Nat
  | full => 512
  | lowMem => 128
  | xpeLowMem => 32

def windows : NspireBuild → Nat
  | full => 8
  | lowMem => 2
  | xpeLowMem => 1

end NspireBuild

/-- A window without memory was not allocated. -/
structure ReadWindow where
  buf : Option (Nat → UInt8)
  sector : Nat := 0
  sectors : Nat := 0

structure ReadCache where
  windows : List ReadWindow
  next : Nat

def ReadWindow.serve (w : ReadWindow) (sectorNum n : Nat) : Option (List UInt8) :=
  match w.buf with
  | none => none
  | some buf =>
    if w.sectors ≠ 0 ∧ w.sector ≤ sectorNum ∧ sectorNum + n ≤ w.sector + w.sectors then
      some (slice buf ((sectorNum - w.sector) * sectorSize) (n * sectorSize))
    else none

namespace ReadCache

/-- `alloc` is the memory each window was given. -/
def init (build : NspireBuild) (alloc : Nat → Option (Nat → UInt8)) : ReadCache where
  windows := (List.range build.windows).map fun i => { buf := alloc i }
  next := 0

def slot (c : ReadCache) : ReadWindow := c.windows.getD c.next { buf := none }

def setSlot (c : ReadCache) (w : ReadWindow) : ReadCache :=
  { c with windows := c.windows.set c.next w }

end ReadCache

def bfInvalidateReadCache (c : ReadCache) : ReadCache :=
  { c with windows := c.windows.map fun w => { w with sectors := 0 } }

/-- The window read on a miss, if it is read whole; and the cache after it. -/
def bfFillWindow (build : NspireBuild) (bf : BlockDeviceFile) (c : ReadCache) (fill : FileAccess)
    (sectorNum n : Nat) : Option (Nat → UInt8) × ReadCache :=
  let cacheSectors := min build.sectors (bf.nbSectors - sectorNum)
  let bytes := cacheSectors * sectorSize
  match c.slot.buf with
  | none => (none, c.setSlot { c.slot with sectors := 0 })
  | some buf =>
    if n ≤ cacheSectors then
      let buf := blit buf 0 (fill.read bf.f (bf.offset sectorNum) bytes)
      if fill.readDone bf.f (bf.offset sectorNum) bytes then
        (some buf,
          { c.setSlot { buf, sector := sectorNum, sectors := cacheSectors } with
            next := (c.next + 1) % build.windows })
      else (none, c.setSlot { c.slot with buf, sectors := 0 })
    else (none, c.setSlot { c.slot with sectors := 0 })

def bfReadAsyncCached (build : NspireBuild) (bf : BlockDeviceFile) (c : ReadCache)
    (h : FileAccesses) (sectorNum : UInt64) (n : Int) : (Int × List UInt8) × ReadCache :=
  if bf.admits sectorNum n then
    let n := n.toNat
    if bf.mode = .snapshot then (bf.readSnapshot h.direct 0 sectorNum.toNat n, c)
    else
      match c.windows.findSome? fun w => w.serve sectorNum.toNat n with
      | some data => ((0, data), c)
      | none =>
        match bfFillWindow build bf c h.fill sectorNum.toNat n with
        | (some buf, c) => ((0, slice buf 0 (n * sectorSize)), c)
        | (none, c) => (bf.readFile (h.direct 0) sectorNum.toNat n, c)
  else ((-1, []), c)

def bfWriteAsyncCached (bf : BlockDeviceFile) (c : ReadCache) (h : FileAccesses)
    (sectorNum : UInt64) (buf : Nat → UInt8) (n : Int) : (Int × BlockDeviceFile) × ReadCache :=
  if bf.admits sectorNum n then
    (bfWriteAsync bf h sectorNum buf n, bfInvalidateReadCache c)
  else ((-1, bf), c)

inductive DiskCall where
  | read (sectorNum : UInt64) (n : Int)
  | write (sectorNum : UInt64) (n : Int) (buf : Nat → UInt8)

/-- A call, how the host serves it, the device it finds, and what it returns. A write stores
nothing. -/
structure Turn where
  accesses : FileAccesses
  call : DiskCall
  device : BlockDeviceFile
  ret : Int
  data : List UInt8

def plainRun (bf : BlockDeviceFile) : List (FileAccesses × DiskCall) → List Turn
  | [] => []
  | (h, .read sectorNum n) :: rest =>
    let (ret, data) := bfReadAsync bf h sectorNum n
    ⟨h, .read sectorNum n, bf, ret, data⟩ :: plainRun bf rest
  | (h, .write sectorNum n buf) :: rest =>
    let (ret, bf') := bfWriteAsync bf h sectorNum buf n
    ⟨h, .write sectorNum n buf, bf, ret, []⟩ :: plainRun bf' rest

def cachedRun (build : NspireBuild) (bf : BlockDeviceFile) (c : ReadCache) :
    List (FileAccesses × DiskCall) → List Turn
  | [] => []
  | (h, .read sectorNum n) :: rest =>
    let ((ret, data), c') := bfReadAsyncCached build bf c h sectorNum n
    ⟨h, .read sectorNum n, bf, ret, data⟩ :: cachedRun build bf c' rest
  | (h, .write sectorNum n buf) :: rest =>
    let ((ret, bf'), c') := bfWriteAsyncCached bf c h sectorNum buf n
    ⟨h, .write sectorNum n buf, bf, ret, []⟩ :: cachedRun build bf' c' rest

end Winspire.Ide
