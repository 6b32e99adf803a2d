import Winspire.Ide.FileCache

/-!
# The paravirtual floppy

`misc.c`: the command and data ports of EMULINK, which seek in the image of a drive and move its
bytes. `none` stands for what C leaves undefined: an element outside `fdd`, or a length that no
buffer has. The accesses of the host files may stop short.
-/

namespace Winspire.Floppy

open Ide (ImageFile FileAccess int32)

set_option autoImplicit false

structure FdFmt where
  sectors : Nat
  tracks : Nat
  heads : Nat
  deriving DecidableEq

/-- The table of formats, without the entry that ends it. -/
def fmt : List FdFmt :=
  [⟨18, 80, 2⟩, ⟨20, 80, 2⟩, ⟨21, 80, 2⟩, ⟨21, 82, 2⟩, ⟨21, 83, 2⟩, ⟨22, 80, 2⟩, ⟨23, 80, 2⟩,
    ⟨24, 80, 2⟩, ⟨36, 80, 2⟩, ⟨39, 80, 2⟩, ⟨40, 80, 2⟩, ⟨44, 80, 2⟩, ⟨48, 80, 2⟩, ⟨9, 80, 2⟩,
    ⟨10, 80, 2⟩, ⟨10, 82, 2⟩, ⟨10, 83, 2⟩, ⟨13, 80, 2⟩, ⟨14, 80, 2⟩, ⟨15, 80, 2⟩, ⟨18, 80, 2⟩,
    ⟨18, 82, 2⟩, ⟨18, 83, 2⟩, ⟨20, 80, 2⟩, ⟨9, 80, 2⟩, ⟨11, 80, 2⟩, ⟨9, 40, 2⟩, ⟨9, 40, 1⟩,
    ⟨10, 41, 2⟩, ⟨10, 42, 2⟩, ⟨8, 40, 2⟩, ⟨8, 40, 1⟩]

namespace FdFmt
variable (f : FdFmt)

def total : Nat := f.sectors * f.tracks * f.heads

def bytes : Nat := f.total * 512

end FdFmt

/-- A `FILE` with its position. -/
structure File where
  image : ImageFile
  pos : Nat

namespace File
variable (f : File)

def fseek (offset : Int) : Option File := if offset < 0 then none else some { f with pos := offset.toNat }

/-- The host stops after `moved` bytes. -/
def fread (len moved : Nat) : List UInt8 × File :=
  let data := (FileAccess.mk true moved).read f.image f.pos len
  (data, { f with pos := f.pos + data.length })

def fwrite (buf : List UInt8) (moved : Nat) : List UInt8 × File :=
  let data := buf.take moved
  (data, ⟨(FileAccess.mk true moved).write f.image f.pos buf, f.pos + data.length⟩)

end File

structure EMULINK where
  status : BitVec 32
  cmd : BitVec 32
  args : Fin 4 → BitVec 32
  argi : Nat
  dataleft : Int
  fdd : Fin 2 → Option File
  fdfmti : Fin 2 → Fin fmt.length

def emulinkInit : EMULINK :=
  { status := 0
    cmd := -1
    args := fun _ => 0
    argi := 0
    dataleft := 0
    fdd := fun _ => none
    fdfmti := fun _ => ⟨0, by decide⟩ }

def EIO : BitVec 32 := 5
def EINVAL : BitVec 32 := 22

/-- The first format of the size of the file. -/
def findFmt (size : Int) : Option (Fin fmt.length) :=
  (List.finRange fmt.length).find? fun j => size = (fmt.get j).bytes

namespace EMULINK
variable (e : EMULINK)

def format (d : Fin 2) : FdFmt := fmt.get (e.fdfmti d)

def setFile (d : Fin 2) (f : Option File) : EMULINK := { e with fdd := Function.update e.fdd d f }

/-- `emulink_attach_floppy` on the file that `fopen` gives. -/
def attachFloppy (d : Fin 2) (file : Option ImageFile) : Int × EMULINK :=
  match file with
  | none => (-1, e.setFile d none)
  | some image =>
    let e := e.setFile d (some ⟨image, image.size⟩)
    match findFmt (int32 image.size) with
    | some j => (0, { e with fdfmti := Function.update e.fdfmti d j })
    | none => (-1, e)

/-- `fdd[i]`, for an index from the guest. -/
def slot (i : BitVec 32) : Option (Fin 2) := if h : i.toNat < 2 then some ⟨i.toNat, h⟩ else none

def fail (errno : BitVec 32) : EMULINK := { e with status := -errno, cmd := -1 }

end EMULINK

/-- `lba` of `exec_cmd`. -/
def FdFmt.lba (f : FdFmt) (chs : BitVec 32) : Int :=
  let c := (chs >>> 16).toNat
  let h := ((chs >>> 8) &&& 0xff).toNat
  let s := (chs &&& 0xff).toNat
  ((c * f.heads + h) * f.sectors : Nat) + ((s : Int) - 1)

/-- The product is an `int`. -/
def FdFmt.offset (f : FdFmt) (chs : BitVec 32) : Int := int32 (512 * f.lba chs)

/-- The product is a `uint32_t`, stored in an `int`. -/
def leftOf (count : BitVec 32) : Int := (512 * count).toInt

def CMD_READ : BitVec 32 := 0x101
def CMD_WRITE : BitVec 32 := 0x102

namespace EMULINK
variable (e : EMULINK)

/-- The transfer commands of `exec_cmd` once their arguments are there. The file is looked up
before the drive number is compared with 2. -/
def seek : Option EMULINK :=
  match slot (e.args 0) with
  | none => none
  | some d =>
    match e.fdd d with
    | none => some (e.fail EIO)
    | some f =>
      match f.fseek ((e.format d).offset (e.args 1)) with
      | none => some (e.fail EINVAL)
      | some f => some { e.setFile d (some f) with status := 0, dataleft := leftOf (e.args 2) }

def execCmd : Option EMULINK :=
  if e.cmd = 0 then some { e with status := 0xaa55ff00, cmd := -1 }
  else if e.cmd = 0x100 then
    some { e with
      status := (if (e.fdd 0).isSome then 0x40 else 0) ||| (if (e.fdd 1).isSome then 0x04 else 0)
      cmd := -1 }
  else if e.cmd = CMD_READ ∨ e.cmd = CMD_WRITE then
    if e.argi = 3 then e.seek else some e
  else some e

def cmdWrite (val : BitVec 32) : Option EMULINK := { e with cmd := val, argi := 0 }.execCmd

def pushArg (val : BitVec 32) : EMULINK :=
  if h : e.argi < 4 then
    { e with args := Function.update e.args ⟨e.argi, h⟩ val, argi := e.argi + 1 }
  else e

def dataWrite (val : BitVec 32) : Option EMULINK := (e.pushArg val).execCmd

/-- The common body of the string transfers: `move` is the `fread` or `fwrite` of `len` bytes, and
the bytes that moved come with the device. Each call returns its `count`. -/
def transfer (cmd : BitVec 32) (size count : Nat) (move : File → Nat → List UInt8 × File) :
    Option (List UInt8 × EMULINK) :=
  if e.cmd = cmd then
    match slot (e.args 0) with
    | none => none
    | some d =>
      match e.fdd d with
      | none => some ([], e.fail 1)
      | some f =>
        if e.argi = 3 then
          let len := int32 (size * count : Nat)
          if e.dataleft < len then some ([], e.fail 1)
          else if len < 0 then none
          else
            let (data, f) := move f len.toNat
            let e := e.setFile d (some f)
            if (data.length : Int) ≠ len then some (data, e.fail 1)
            else
              let e := { e with dataleft := e.dataleft - len }
              some (data, if e.dataleft = 0 then { e with cmd := -1, status := 0 } else e)
        else some ([], e.fail 1)
  else some ([], e.fail 1)

def dataWriteString (buf : Nat → UInt8) (size count moved : Nat) : Option (List UInt8 × EMULINK) :=
  e.transfer CMD_WRITE size count fun f len => f.fwrite (slice buf 0 len) moved

def dataReadString (size count moved : Nat) : Option (List UInt8 × EMULINK) :=
  e.transfer CMD_READ size count fun f len => f.fread len moved

end EMULINK

/-- What the guest does to the ports, with the bytes that the host moves at most. -/
inductive Op where
  | cmdWrite (val : BitVec 32)
  | dataWrite (val : BitVec 32)
  | writeString (buf : Nat → UInt8) (size count moved : Nat)
  | readString (size count moved : Nat)

/-- The bytes of a drive that one transfer read or wrote. -/
structure Touch where
  drive : Fin 2
  start : Nat
  length : Nat

/-- The latest transfer command, with the images when it got its last argument, the bytes moved
since, and whether it has reported completion. -/
structure Issued where
  cmd : BitVec 32
  drive : BitVec 32
  chs : BitVec 32
  count : BitVec 32
  images : Fin 2 → Option ImageFile
  moved : Nat
  done : Bool

structure Run where
  dev : EMULINK
  touched : List Touch
  issued : Option Issued

def EMULINK.images (e : EMULINK) (d : Fin 2) : Option ImageFile := (e.fdd d).map File.image

/-- A transfer command waits for its last argument. -/
def EMULINK.Issuing (e : EMULINK) : Prop :=
  e.argi = 2 ∧ (e.cmd = CMD_READ ∨ e.cmd = CMD_WRITE)

instance (e : EMULINK) : Decidable e.Issuing := inferInstanceAs (Decidable (_ ∧ _))

/-- Where the next transfer of the command in force starts. -/
def EMULINK.touch (e : EMULINK) (length : Nat) : List Touch :=
  match EMULINK.slot (e.args 0) with
  | none => []
  | some d =>
    match e.fdd d with
    | none => []
    | some f => [⟨d, f.pos, length⟩]

namespace Run
variable (r : Run)

def issue (val : BitVec 32) : Option Issued :=
  if r.dev.Issuing then
    some ⟨r.dev.cmd, r.dev.args 0, r.dev.args 1, val, r.dev.images, 0, false⟩
  else r.issued

/-- A transfer of `length` bytes has led to `e`. -/
def moveOn (length : Nat) (e : EMULINK) : Run :=
  { dev := e
    touched := r.touched ++ r.dev.touch length
    issued := r.issued.map fun c =>
      { c with moved := c.moved + length, done := c.done || decide (e.cmd = -1 ∧ e.status = 0) } }

def step : Op → Option Run
  | .cmdWrite val => (r.dev.cmdWrite val).map fun e => { r with dev := e }
  | .dataWrite val => (r.dev.dataWrite val).map fun e => { r with dev := e, issued := r.issue val }
  | .writeString buf size count moved =>
    (r.dev.dataWriteString buf size count moved).map fun (data, e) => r.moveOn data.length e
  | .readString size count moved =>
    (r.dev.dataReadString size count moved).map fun (data, e) => r.moveOn data.length e

def run : Run → List Op → Option Run
  | r, [] => some r
  | r, op :: ops => (r.step op).bind fun r => r.run ops

end Run

/-- `pc_new` attaches the images it is given. -/
def attached (images : Fin 2 → Option ImageFile) : EMULINK :=
  [0, 1].foldl (fun e d => if (images d).isSome then (e.attachFloppy d (images d)).2 else e)
    emulinkInit

def Run.start (images : Fin 2 → Option ImageFile) : Run := ⟨attached images, [], none⟩

/-- A supported format: `emulink_attach_floppy` finds it. -/
def Supported (image : ImageFile) : Prop := ∃ f ∈ fmt, image.size = f.bytes

/-- The address names a sector of the format and the sectors from there on are on the disk. -/
def FdFmt.Holds (f : FdFmt) (chs count : BitVec 32) : Prop :=
  (chs >>> 16).toNat < f.tracks ∧ ((chs >>> 8) &&& 0xff).toNat < f.heads ∧
    1 ≤ (chs &&& 0xff).toNat ∧ (chs &&& 0xff).toNat ≤ f.sectors ∧
    f.lba chs + count.toNat ≤ f.total

instance (f : FdFmt) (chs count : BitVec 32) : Decidable (f.Holds chs count) :=
  inferInstanceAs (Decidable (_ ∧ _ ∧ _ ∧ _ ∧ _))

/-- The drive has an image that holds the sectors. -/
def EMULINK.Valid (e : EMULINK) (c : Issued) : Prop :=
  ∃ d, EMULINK.slot c.drive = some d ∧ (e.fdd d).isSome ∧ (e.format d).Holds c.chs c.count

structure Run.Confined (images : Fin 2 → Option ImageFile) (r : Run) : Prop where
  inside : ∀ t ∈ r.touched, t.length ≠ 0 →
    (images t.drive).isSome ∧ t.start + t.length ≤ (r.dev.format t.drive).bytes
  atMost : ∀ c, r.issued = some c → c.moved ≤ c.count.toNat * 512
  atLeast : ∀ c, r.issued = some c → c.done = true → c.count.toNat * 512 ≤ c.moved
  /-- A command that is not valid has changed no image. -/
  unchanged : ∀ c, r.issued = some c → ¬r.dev.Valid c → r.dev.images = c.images
  before : r.issued = none → r.dev.images = images

/-- The bytes that are left for the command after its seek do not lead astray: the seek fails, the
count becomes negative, or it is the count of the command and a write has its sectors on the disk.
A read whose count wraps has to end at the end of the image. -/
def FdFmt.Serves (f : FdFmt) (cmd chs count : BitVec 32) : Prop :=
  f.offset chs < 0 ∨ leftOf count < 0 ∨
    if cmd = CMD_READ then
      leftOf count = count.toNat * 512 ∨ (leftOf count ≠ 0 ∧ f.bytes < f.offset chs + leftOf count)
    else leftOf count = count.toNat * 512 ∧ (count = 0 ∨ f.Holds chs count)

instance (f : FdFmt) (cmd chs count : BitVec 32) : Decidable (f.Serves cmd chs count) := by
  unfold FdFmt.Serves
  infer_instance

/-- A string transfer names a drive whenever it looks at one, and the length that gets to the file
is not negative. -/
def EMULINK.Transfers (e : EMULINK) (cmd : BitVec 32) (size count : Nat) : Prop :=
  e.cmd = cmd → ∃ d, EMULINK.slot (e.args 0) = some d ∧
    ((e.fdd d).isSome → e.argi = 3 →
      e.dataleft < int32 (size * count : Nat) ∨ 0 ≤ int32 (size * count : Nat))

def EMULINK.Meets (e : EMULINK) : Op → Prop
  | .cmdWrite _ => True
  | .dataWrite val => e.Issuing → ∃ d, EMULINK.slot (e.args 0) = some d ∧
      ((e.fdd d).isSome → (e.format d).Serves e.cmd (e.args 1) val)
  | .writeString _ size count _ => e.Transfers CMD_WRITE size count
  | .readString size count _ => e.Transfers CMD_READ size count

def Run.AllMeet : Run → List Op → Prop
  | _, [] => True
  | r, op :: ops =>
    r.dev.Meets op ∧
      match r.step op with
      | some r => r.AllMeet ops
      | none => True

end Winspire.Floppy
