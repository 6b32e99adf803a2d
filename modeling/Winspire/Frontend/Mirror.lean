import Winspire.Lib.Raster
import Winspire.Lib.LittleEndian
import Mathlib.Data.Finset.Card
import Mathlib.Data.Set.Basic

/-!
# The mirror of the guest framebuffer

`main.c` for Linux: a mirror that is open. Dirty rows and a shadow, each of which may be missing,
save work on the way to the panel. `none` stands for what C leaves undefined: an `int` product or
sum that overflows, and an access outside the guest framebuffer, the dirty rows or the panel.
-/

namespace Winspire.Frontend.Mirror

set_option autoImplicit false

inductive Depth where
  | bpp16
  | bpp32
  deriving DecidableEq

inductive Rotate where
  | none
  | cw
  | ccw
  deriving DecidableEq

def Depth.bytes : Depth → Nat
  | .bpp16 => 2
  | .bpp32 => 4

/-- The fields of `FBMirror` that stay as `fbmirror_open` sets them. -/
structure Panel where
  width : Nat
  height : Nat
  lineLength : Nat
  memSize : Nat
  bpp : Depth
  rotate : Rotate
  guestWidth : Nat
  guestHeight : Nat
  guestWidth_pos : 0 < guestWidth
  guestHeight_pos : 0 < guestHeight
  line_le : width * bpp.bytes ≤ lineLength
  mem_ge : ∀ y < height, y * lineLength + width * bpp.bytes ≤ memSize

abbrev Guest : Type := Nat → BitVec 16

namespace Panel
variable (p : Panel)

def raster : Raster :=
  { width := p.width
    height := p.height
    size := p.bpp.bytes
    pitch := p.lineLength
    total := p.memSize
    row_le := p.line_le
    total_ge := p.mem_ge }

def guestRow (src : Guest) (y : Nat) : List (BitVec 16) :=
  slice src (y * p.guestWidth) p.guestWidth

def guestPixel (src : Guest) (sx sy : Nat) : Option (BitVec 16) :=
  let i := sy * p.guestWidth + sx
  if i < p.guestWidth * p.guestHeight then some (src i) else none

end Panel

def bytes16 (p : BitVec 16) : List UInt8 := LittleEndian.put 2 p.toNat

/-- The colours of a 32-bit pixel. -/
def widen (p : BitVec 16) : BitVec 32 :=
  let r := (p.setWidth 32 >>> 11) &&& 0x1f
  let g := (p.setWidth 32 >>> 5) &&& 0x3f
  let b := p.setWidth 32 &&& 0x1f
  (r <<< 19) ||| (g <<< 10) ||| (b <<< 3)

/-- A guest pixel as the bytes of a panel pixel. -/
def Panel.encode (p : Panel) (px : BitVec 16) : List UInt8 :=
  match p.bpp with
  | .bpp16 => bytes16 px
  | .bpp32 => LittleEndian.put 4 (widen px).toNat

/-- `i * size / outOf`. -/
def scale (i size outOf : Nat) : Option Nat :=
  if i * size < 2 ^ 31 then some (i * size / outOf) else none

/-- `size - 1 - i`, unless it is negative. -/
def fromEnd (size i : Nat) : Option Nat := if i < size then some (size - 1 - i) else none

/-- `sx` and `sy` in the last loop of `fbmirror_present`. -/
def Panel.source (p : Panel) (x y : Nat) : Option (Nat × Nat) :=
  match p.rotate with
  | .ccw => do
    let sx ← fromEnd p.guestWidth (← scale y p.guestWidth p.height)
    let sy ← scale x p.guestHeight p.width
    some (sx, sy)
  | .cw => do
    let sx ← scale y p.guestWidth p.height
    let sy ← fromEnd p.guestHeight (← scale x p.guestHeight p.width)
    some (sx, sy)
  | .none => do
    let sx ← scale x p.guestWidth p.width
    let sy ← scale y p.guestHeight p.height
    some (sx, sy)

structure FBMirror where
  mem : Nat → UInt8
  presents : BitVec 64
  shadow : Option Guest
  shadowValid : Bool
  dirtyRows : Option (Nat → Bool)
  dirtyCount : Nat

def fbmirrorOpen (p : Panel) (shadow dirtyRows : Bool) : FBMirror :=
  { mem := fun _ => 0
    presents := 0
    shadow := if shadow then some fun _ => 0 else none
    shadowValid := false
    dirtyRows := if dirtyRows then some fun _ => true else none
    dirtyCount := if dirtyRows then p.guestHeight else 0 }

namespace FBMirror
variable (m : FBMirror) (p : Panel) (src : Guest)

def markRow (row : Nat) : FBMirror :=
  match m.dirtyRows with
  | none => m
  | some rows =>
    if rows row then m
    else { m with dirtyRows := some (Function.update rows row true), dirtyCount := m.dirtyCount + 1 }

def markDirty (y h : Int) : Option FBMirror :=
  if m.dirtyRows = none ∨ h ≤ 0 then some m
  else if y + h < 2 ^ 31 then
    let first := if y < 0 then 0 else y
    let last := if y + h > p.guestHeight then (p.guestHeight : Int) else y + h
    some ((List.range' first.toNat (last - first).toNat).foldl markRow m)
  else none

def clearDirty : FBMirror :=
  match m.dirtyRows with
  | none => m
  | some _ => { m with dirtyRows := some fun _ => false, dirtyCount := 0 }

def requestFull : FBMirror :=
  match m.dirtyRows with
  | none => { m with shadowValid := false }
  | some _ =>
    { m with shadowValid := false, dirtyRows := some fun _ => true, dirtyCount := p.guestHeight }

/-- The answer, and the mirror with the row recorded in the shadow. -/
def rowDirty (y : Nat) : Bool × FBMirror :=
  match m.shadow with
  | none => (true, m)
  | some shadow =>
    if m.shadowValid = true ∧ p.guestRow src y = p.guestRow shadow y then (false, m)
    else (true, { m with shadow := some (blit shadow (y * p.guestWidth) (p.guestRow src y)) })

end FBMirror

section Draw
variable (p : Panel) (src : Guest)

def store (mem : Nat → UInt8) (dx dy : Nat) (px : BitVec 16) : Option (Nat → UInt8) :=
  if dx ≥ p.width ∨ dy ≥ p.height then some mem
  else p.raster.store mem (p.raster.addr dx dy) (p.encode px)

/-- A row of the same size as the panel's. -/
def copyRow (mem : Nat → UInt8) (y : Nat) : Option (Nat → UInt8) :=
  p.raster.store mem (y * p.lineLength) ((p.guestRow src y).flatMap bytes16)

def turnRow (mem : Nat → UInt8) (y : Nat) : Option (Nat → UInt8) :=
  let dx := if p.rotate = .cw then p.guestHeight - 1 - y else y
  (List.range p.guestWidth).foldlM (fun mem sx =>
    let dy := if p.rotate = .cw then sx else p.guestWidth - 1 - sx
    p.raster.store mem (dy * p.lineLength + dx * 2) (bytes16 (src (y * p.guestWidth + sx)))) mem

def scalePixel (y : Nat) (mem : Nat → UInt8) (x : Nat) : Option (Nat → UInt8) := do
  let (sx, sy) ← p.source x y
  store p mem x y (← p.guestPixel src sx sy)

def scaleRow (mem : Nat → UInt8) (y : Nat) : Option (Nat → UInt8) :=
  (List.range p.width).foldlM (scalePixel p src y) mem

end Draw

namespace FBMirror
variable (m : FBMirror) (p : Panel) (src : Guest)

/-- The dirty rows say that a row of the guest has not changed. -/
def clean (y : Nat) : Bool :=
  match m.dirtyRows with
  | none => false
  | some rows => !rows y

/-- The loop over the rows of the guest, which the first two paths share. -/
def presentRows (draw : (Nat → UInt8) → Nat → Option (Nat → UInt8)) : Option FBMirror := do
  let m ← (List.range p.guestHeight).foldlM (fun (m : FBMirror) y =>
    if m.clean y then some m
    else
      let (dirty, m) := m.rowDirty p src y
      if dirty then (draw m.mem y).map fun mem => { m with mem := mem } else some m) m
  some { m with shadowValid := true }.clearDirty

/-- The last loop skips the rows of the panel that show a clean row, unless they are columns. -/
def drawsRow (y : Nat) : Option Bool :=
  match p.rotate, m.dirtyRows with
  | .none, some rows => do
    let sy ← scale y p.guestHeight p.height
    if sy < p.guestHeight then some (rows sy) else none
  | _, _ => some true

def presentScaled : Option FBMirror := do
  let mem ← (List.range p.height).foldlM (fun mem y => do
    if ← m.drawsRow p y then scaleRow p src mem y else some mem) m.mem
  some { m with mem := mem }.clearDirty

end FBMirror

def Panel.Direct (p : Panel) : Prop :=
  p.width = p.guestWidth ∧ p.height = p.guestHeight ∧ p.rotate = .none ∧ p.bpp = .bpp16

def Panel.Turned (p : Panel) : Prop :=
  p.bpp = .bpp16 ∧ p.width = p.guestHeight ∧ p.height = p.guestWidth ∧
    (p.rotate = .cw ∨ p.rotate = .ccw)

instance (p : Panel) : Decidable p.Direct := inferInstanceAs (Decidable (_ ∧ _ ∧ _ ∧ _))

instance (p : Panel) : Decidable p.Turned := inferInstanceAs (Decidable (_ ∧ _ ∧ _ ∧ (_ ∨ _)))

def FBMirror.present (m : FBMirror) (p : Panel) (src : Guest) : Option FBMirror :=
  if m.dirtyRows ≠ none ∧ m.dirtyCount = 0 then some m
  else
    let m := { m with presents := m.presents + 1 }
    if p.Direct then m.presentRows p src (copyRow p src)
    else if p.Turned then m.presentRows p src (turnRow p src)
    else m.presentScaled p src

/-- The guest draws a new picture, or one of the calls is made. -/
inductive Op where
  | draw (src : Guest)
  | markDirty (y h : Int)
  | requestFull
  | present

/-- The mirror and the guest, and the rows that were drawn without a mark since. -/
structure Run where
  mirror : FBMirror
  src : Guest
  stale : Set Nat

namespace Run
variable (p : Panel) (r : Run)

def start (shadow dirtyRows : Bool) (src : Guest) : Run := ⟨fbmirrorOpen p shadow dirtyRows, src, ∅⟩

def step : Op → Option Run
  | .draw src =>
    some { r with
      src := src
      stale := r.stale ∪ {row | row < p.guestHeight ∧ p.guestRow r.src row ≠ p.guestRow src row} }
  | .markDirty y h => (r.mirror.markDirty p y h).map fun m =>
    { r with mirror := m, stale := {row ∈ r.stale | ¬(y ≤ row ∧ row < y + h)} }
  | .requestFull => some { r with mirror := r.mirror.requestFull p, stale := ∅ }
  | .present => (r.mirror.present p r.src).map fun m => { r with mirror := m }

end Run

/-- The formulas of the last loop, without a bound on the products. -/
def Panel.mapped (p : Panel) (x y : Nat) : Nat × Nat :=
  match p.rotate with
  | .ccw => (p.guestWidth - 1 - y * p.guestWidth / p.height, x * p.guestHeight / p.width)
  | .cw => (y * p.guestWidth / p.height, p.guestHeight - 1 - x * p.guestHeight / p.width)
  | .none => (x * p.guestWidth / p.width, y * p.guestHeight / p.height)

/-- The pixels of the panel for a picture of the guest. -/
def Panel.picture (p : Panel) (src : Guest) (x y : Nat) : List UInt8 :=
  p.encode (src ((p.mapped x y).2 * p.guestWidth + (p.mapped x y).1))

def FBMirror.Shows (m : FBMirror) (p : Panel) (src : Guest) : Prop :=
  ∀ x y, x < p.width → y < p.height → p.raster.cell m.mem x y = p.picture src x y

def dirtyTotal (p : Panel) (rows : Nat → Bool) : Nat :=
  ((Finset.range p.guestHeight).filter fun row => rows row = true).card

def FBMirror.Counted (m : FBMirror) (p : Panel) : Prop :=
  ∀ rows, m.dirtyRows = some rows → m.dirtyCount = dirtyTotal p rows

/-- Every call is defined, and every `present` that finds all changes marked shows the guest. -/
def Run.Mirrored (p : Panel) : Run → List Op → Prop
  | _, [] => True
  | r, op :: ops => (op = .present → r.stale = ∅) →
    ∃ r', r.step p op = some r' ∧
      (op = .present → r'.mirror.Shows p r'.src ∧ r'.mirror.Counted p) ∧ r'.Mirrored p ops

/-- A mark ends at an `int`. -/
def Op.Fits : Op → Prop
  | .markDirty y h => y + h < 2 ^ 31
  | _ => True

/-- The products of the last loop for a pixel of the panel. -/
def Panel.FitsAt (p : Panel) (x y : Nat) : Prop :=
  match p.rotate with
  | .none => x * p.guestWidth < 2 ^ 31 ∧ y * p.guestHeight < 2 ^ 31
  | _ => y * p.guestWidth < 2 ^ 31 ∧ x * p.guestHeight < 2 ^ 31

/-- One of the first two paths is taken, or all products of the last loop fit in an `int`. -/
def Panel.Scales (p : Panel) (dirtyRows : Bool) : Prop :=
  p.Direct ∨ p.Turned ∨
    (p.rotate = .none → dirtyRows = true → ∀ y < p.height, y * p.guestHeight < 2 ^ 31) ∧
      ∀ x y, x < p.width → y < p.height → p.FitsAt x y

end Winspire.Frontend.Mirror
