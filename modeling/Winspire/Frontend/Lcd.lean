import Mathlib.Data.Set.Basic
import Mathlib.Tactic.Ring

/-!
# The LCD of the calculator

`main.c` of the calculator: redraw callbacks are merged into one pending rectangle, which a flush
copies to the LCD if it can claim it. An `int` is an integer (nothing overflows in `left + width`
and `top + height`), the clock of the host and the answers of `lcd_init` come with each call.
-/

namespace Winspire.Frontend.Lcd

set_option autoImplicit false

def SCREEN_WIDTH : Int := 320
def SCREEN_HEIGHT : Int := 240
def REDRAW_AREA : Int := SCREEN_WIDTH * SCREEN_HEIGHT * 3 / 4
def LCD_RETRY_MS : BitVec 64 := 250
def LCD_POLL_MS : BitVec 64 := 100

abbrev Pixel : Type := Int × Int

def screen : Set Pixel := {p | 0 ≤ p.1 ∧ p.1 < SCREEN_WIDTH ∧ 0 ≤ p.2 ∧ p.2 < SCREEN_HEIGHT}

structure Rect where
  left : Int
  top : Int
  width : Int
  height : Int
  deriving DecidableEq

def Rect.pixels (r : Rect) : Set Pixel :=
  {p | r.left ≤ p.1 ∧ p.1 < r.left + r.width ∧ r.top ≤ p.2 ∧ p.2 < r.top + r.height}

/-- Pixels of the framebuffer copied by one `memcpy` to the same place of the LCD. -/
structure Span where
  start : Int
  length : Nat
  deriving DecidableEq

def Span.pixels (s : Span) : Set Pixel :=
  {p | p ∈ screen ∧ s.start ≤ p.2 * SCREEN_WIDTH + p.1 ∧
    p.2 * SCREEN_WIDTH + p.1 < s.start + s.length}

def Span.Inside (s : Span) : Prop :=
  0 ≤ s.start ∧ s.start + s.length ≤ SCREEN_HEIGHT * SCREEN_WIDTH

def copied (spans : List Span) : Set Pixel := {p | ∃ s ∈ spans, p ∈ s.pixels}

/-- What `lcd_blit` copies: the whole screen and nothing else. -/
structure LcdBlit where
  spans : List Span
  inside : ∀ s ∈ spans, s.Inside
  whole : screen ⊆ copied spans

/-- `Display`, with the static `mode_changed`; `box` is `dirty_x` to `dirty_height`. -/
structure Display where
  ready : Bool
  lcdActive : Bool
  dirty : Bool
  fullRedraw : Bool
  box : Rect
  lastClaimMs : BitVec 64
  lastDrawMs : BitVec 64
  modeChanged : Bool

namespace Display
variable (d : Display)

/-- `claim_lcd` does not rely on an earlier claim. -/
def Attempts (force : Bool) (now : BitVec 64) : Prop :=
  force = true ∨ d.lcdActive = false ∨ d.lastClaimMs = 0 ∨ LCD_RETRY_MS ≤ now - d.lastClaimMs

instance (force : Bool) (now : BitVec 64) : Decidable (d.Attempts force now) :=
  inferInstanceAs (Decidable (_ ∨ _ ∨ _ ∨ _))

/-- The display, with the result in `lcdActive`, and `reclaimed`. -/
def claimLcd (force : Bool) (now : BitVec 64) (lcdInit : Bool) : Display × Bool :=
  if d.Attempts force now then ({ d with lcdActive := lcdInit, lastClaimMs := now }, lcdInit)
  else (d, false)

def vgaModeChanged : Display := { d with modeChanged := true }

end Display

/-- A side after the test for negative positions, as position and extent. -/
def clipLow (start extent : Int) : Int × Int :=
  if start < 0 then (0, extent + start) else (start, extent)

def clipHigh (limit start extent : Int) : Int :=
  if start + extent > limit then limit - start else extent

/-- `none` if nothing is left. -/
def Rect.clip (r : Rect) : Option Rect :=
  let (left, width) := clipLow r.left r.width
  let (top, height) := clipLow r.top r.height
  if left ≥ SCREEN_WIDTH ∨ top ≥ SCREEN_HEIGHT ∨ width ≤ 0 ∨ height ≤ 0 then none
  else some ⟨left, top, clipHigh SCREEN_WIDTH left width, clipHigh SCREEN_HEIGHT top height⟩

/-- Position and extent of a side of the bounding box. -/
def mergeSide (dirtyStart dirtyExtent start extent : Int) : Int × Int :=
  let stop := dirtyStart + dirtyExtent
  let dirtyStart := if start < dirtyStart then start else dirtyStart
  let stop := if start + extent > stop then start + extent else stop
  (dirtyStart, stop - dirtyStart)

def Rect.merge (box r : Rect) : Rect :=
  let (left, width) := mergeSide box.left box.width r.left r.width
  let (top, height) := mergeSide box.top box.height r.top r.height
  ⟨left, top, width, height⟩

def wholeScreen : Rect := ⟨0, 0, SCREEN_WIDTH, SCREEN_HEIGHT⟩

namespace Display
variable (d : Display)

def queueRedraw (r : Rect) : Display :=
  if d.ready = false then d
  else if r.left ≤ 0 ∧ r.top ≤ 0 ∧ r.width ≥ SCREEN_WIDTH ∧ r.height ≥ SCREEN_HEIGHT then
    { d with fullRedraw := true, box := wholeScreen, dirty := true }
  else
    match r.clip with
    | none => d
    | some r =>
      if d.fullRedraw then d
      else if d.dirty = false then { d with box := r, dirty := true }
      else { d with box := d.box.merge r, dirty := true }

section Draw
variable (blit : LcdBlit) (now : BitVec 64) (lcdInit : Bool)

def drawFrame (force : Bool) : Display × List Span :=
  if d.ready = false then (d, [])
  else
    let d := (d.claimLcd force now lcdInit).1
    if d.lcdActive then ({ d with lastDrawMs := now }, blit.spans) else (d, [])

def drawRegion (r : Rect) : Display × List Span :=
  if r.width * r.height ≥ REDRAW_AREA then d.drawFrame blit now lcdInit false
  else
    let d := (d.claimLcd false now lcdInit).1
    if d.lcdActive then
      let start := r.top * SCREEN_WIDTH + r.left
      ({ d with lastDrawMs := now },
        if r.width = SCREEN_WIDTH then [⟨start, (r.height * SCREEN_WIDTH).toNat⟩]
        else (List.range r.height.toNat).map fun (row : Nat) =>
          ⟨start + row * SCREEN_WIDTH, r.width.toNat⟩)
    else (d, [])

/-- The pending state is cleared before the claim is made. -/
def flushRedraw : Display × List Span :=
  if d.dirty = false then (d, [])
  else
    let d := { d with dirty := false }
    let (d, spans) :=
      if d.fullRedraw then d.drawFrame blit now lcdInit false
      else d.drawRegion blit now lcdInit d.box
    ({ d with fullRedraw := false }, spans)

def keepLcd : Display × List Span :=
  if d.modeChanged then (d, [])
  else if d.lastDrawMs = 0 ∨ LCD_POLL_MS ≤ now - d.lastDrawMs then
    let (d, reclaimed) := d.claimLcd false now lcdInit
    if d.lcdActive ∧ reclaimed then ({ d with lastDrawMs := now }, blit.spans) else (d, [])
  else (d, [])

def redraw (r : Rect) : Display × List Span :=
  if d.ready = false then
    { d with ready := true, modeChanged := false }.drawFrame blit now lcdInit true
  else if d.modeChanged then ({ d with modeChanged := false }.queueRedraw wholeScreen, [])
  else (d.queueRedraw r, [])

end Draw

end Display

/-- A callback, a mode change, and the two calls of a video poll; each call that can claim the LCD
has its clock and the answer of `lcd_init`. -/
inductive Op where
  | redraw (r : Rect) (now : BitVec 64) (lcdInit : Bool)
  | modeChanged
  | flush (now : BitVec 64) (lcdInit : Bool)
  | keep (now : BitVec 64) (lcdInit : Bool)

/-- The pixels on the screen that the callback asks to draw. -/
def Op.covers : Op → Set Pixel
  | .redraw r _ _ => r.pixels ∩ screen
  | _ => ∅

/-- The display, and the pixels of callbacks that have not been copied since. -/
structure Run where
  display : Display
  owed : Set Pixel

def Display.start : Display :=
  { ready := false
    lcdActive := false
    dirty := false
    fullRedraw := false
    box := ⟨0, 0, 0, 0⟩
    lastClaimMs := 0
    lastDrawMs := 0
    modeChanged := false }

namespace Run

def start : Run := ⟨.start, ∅⟩

variable (blit : LcdBlit) (r : Run)

def draw : Op → Display × List Span
  | .redraw rect now lcdInit => r.display.redraw blit now lcdInit rect
  | .modeChanged => (r.display.vgaModeChanged, [])
  | .flush now lcdInit => r.display.flushRedraw blit now lcdInit
  | .keep now lcdInit =>
    if r.display.ready then r.display.keepLcd blit now lcdInit else (r.display, [])

def step (op : Op) : Run :=
  { display := (r.draw blit op).1
    owed := (r.owed ∪ op.covers) \ copied (r.draw blit op).2 }

def run (ops : List Op) : Run := ops.foldl (step blit) r

/-- The copies stay on the screen, and a flush that claims the LCD leaves nothing to draw. -/
structure Sound (op : Op) : Prop where
  inside : ∀ s ∈ (r.draw blit op).2, s.Inside
  settles : ∀ now lcdInit, op = .flush now lcdInit → r.display.dirty = true →
    (r.draw blit op).1.lcdActive = true → (r.step blit op).owed = ∅

def Lossless : Run → List Op → Prop
  | _, [] => True
  | r, op :: ops => r.Sound blit op ∧ (r.step blit op).Lossless ops

/-- No claim fails of a first callback with pixels on the screen, and none of a flush that has
pixels to draw, unless a mode change is pending. -/
def Meets : Op → Prop
  | .redraw rect _ lcdInit =>
    r.display.ready = false → (rect.pixels ∩ screen).Nonempty → lcdInit = true
  | .flush now lcdInit => r.display.dirty = true → r.owed.Nonempty →
    r.display.modeChanged = true ∨ (r.display.Attempts false now → lcdInit = true)
  | _ => True

def AllMeet : Run → List Op → Prop
  | _, [] => True
  | r, op :: ops => r.Meets op ∧ (r.step blit op).AllMeet ops

end Run

end Winspire.Frontend.Lcd
