import Winspire.Vga.Screen

/-!
# Text modes

`vga_text_refresh` with `vga_text_scale2`, which draws the cells that are not as they were drawn
last, and `vga_refresh` with the hold of the last picture. Layouts that `vga_text_scale2` does not
serve are left out.
-/

namespace Winspire.Vga

set_option autoImplicit false

/-- What text modes use besides. Of `cursor_glyph` the first 32 bytes are `0xff`; a cursor of more
than 8 lines reads what lies behind. -/
structure TextScreen extends Screen where
  force8dm : Bool
  cursorGlyph : Nat → Byte
  cursorBlinkTime : Word
  cursorVisiblePhase : Bool
  textModeGeneration : Word
  textHoldLeft : Byte
  lastChAttr : Nat → BitVec 16
  lastWidth : Nat
  lastHeight : Nat
  lastLineOffset : BitVec 16
  lastStartAddr : BitVec 16
  lastCursorOffset : BitVec 16
  lastCursorStart : Byte
  lastCursorEnd : Byte

def maxTextWidth : Nat := 132
def maxTextHeight : Nat := 60

/-- A line of `vga_draw_glyph8`. -/
def glyphRow (fontData : Byte) (fgcol bgcol : Word) : List Pixel :=
  (List.range 8).map fun i =>
    let bit := fontData.setWidth 32 >>> (7 - i) &&& 1
    (-bit &&& (bgcol ^^^ fgcol) ^^^ bgcol).setWidth 16

/-- `vga_draw_glyph8`: `h` lines at `a`, one every `linesize` pixels. -/
def drawGlyph8 (d : Nat → Pixel) (a linesize : Nat) (font : Nat → Byte) (h : Nat)
    (fgcol bgcol : Word) : Nat → Pixel :=
  (List.range h).foldl (fun d i => blit d (a + i * linesize) (glyphRow (font (4 * i)) fgcol bgcol)) d

/-- What `vga_text_refresh` reads from the registers. -/
structure TextLayout where
  width : Nat
  height : Nat
  cwidth : Nat
  cheight : Nat
  startAddr : Word
  lineOffset : Word
  fontBase : Bool → Nat

structure TextCursor where
  addr : Word
  start : Byte
  stop : Byte

namespace TextScreen

def fontBase (s : TextScreen) (second : Bool) : Nat :=
  let v := s.vga.regs.sr 3
  let map := if second then v >>> 5 &&& 1 ||| v >>> 1 &&& 6 else v >>> 4 &&& 1 ||| v <<< 1 &&& 6
  map.toNat * 8192 * 4 + 2

def textLayout (s : TextScreen) : TextLayout :=
  let r := s.vga.regs
  let width := (r.cr 1).toNat + 1
  let cheight := (r.cr 9 &&& 0x1f).toNat + 1
  let cwidth := if !s.force8dm && !(r.sr 1).getLsbD 0 then 9 else 8
  let available := s.fbDev.width * 2
  let lines := (r.cr 0x12).toNat ||| ((r.cr 7).toNat &&& 0x02) <<< 7 |||
    ((r.cr 7).toNat &&& 0x40) <<< 3
  { width := width
    height := (lines + 1) / cheight
    cwidth := if cwidth = 9 ∧ available < width * 9 ∧ width * 8 ≤ available then 8 else cwidth
    cheight := cheight
    startAddr := (r.cr 0x0c ++ r.cr 0x0d).setWidth 32
    lineOffset := (r.cr 0x13).setWidth 32 <<< 3
    fontBase := s.fontBase }

/-- The offset of the cursor from the start address, which may be before it. -/
def cursorOffset (s : TextScreen) : Word :=
  (s.vga.regs.cr 0x0e ++ s.vga.regs.cr 0x0f).setWidth 32 - s.textLayout.startAddr

def textCursor (s : TextScreen) : TextCursor :=
  { addr := (s.textLayout.startAddr + s.cursorOffset) * 4
    start := s.vga.regs.cr 0x0a
    stop := s.vga.regs.cr 0x0b }

end TextScreen

namespace TextLayout

def chAddr (l : TextLayout) (cy cx : Nat) : Word :=
  l.startAddr * 4 + BitVec.ofNat 32 cy * l.lineOffset + 4 * BitVec.ofNat 32 cx

def chAttr (l : TextLayout) (ram : Nat → Byte) (cy cx : Nat) : BitVec 16 :=
  let a := (l.chAddr cy cx &&& 0x1fffe).toNat
  ram (a + 1) ++ ram a

/-- The left column and the top row of the text on a panel of `w` by `h`. -/
def left (l : TextLayout) (w : Nat) : Nat := (w * 2 - l.width * l.cwidth) / 4

def top (l : TextLayout) (h : Nat) : Nat := (h * 2 - l.height * l.cheight) / 4

end TextLayout

namespace TextScreen

def charGlyph (s : TextScreen) (l : TextLayout) (chAttr : BitVec 16) : Nat → Pixel :=
  let ch := (chAttr &&& 0xff).toNat
  let cattr := (chAttr >>> 8).toNat
  let fontPtr := l.fontBase (chAttr.getLsbD 11) + 32 * 4 * ch
  drawGlyph8 (fun _ => 0) 0 8 (fun i => s.vga.ram (fontPtr + i)) l.cheight
    (s.lastPalette (cattr % 16)) (s.lastPalette (cattr / 16))

def withCursor (s : TextScreen) (l : TextLayout) (start stop : Byte) (chAttr : BitVec 16)
    (glyph : Nat → Pixel) : Nat → Pixel :=
  let cattr := (chAttr >>> 8).toNat
  let lineStart := (start &&& 0x1f).toNat
  let lineLast := min (stop &&& 0x1f).toNat (l.cheight - 1)
  if lineStart ≤ lineLast ∧ lineStart < l.cheight then
    drawGlyph8 glyph (lineStart * 8) 8 s.cursorGlyph (lineLast - lineStart + 1)
      (s.lastPalette (cattr % 16)) (s.lastPalette (cattr / 16))
  else glyph

def showsCursor (s : TextScreen) (start : Byte) : Bool :=
  !start.getLsbD 5 && s.cursorVisiblePhase

def cellGlyph (s : TextScreen) (l : TextLayout) (c : TextCursor) (chAttr : BitVec 16)
    (atCursor : Bool) : Nat → Pixel :=
  let glyph := s.charGlyph l chAttr
  if atCursor && s.showsCursor c.start then s.withCursor l c.start c.stop chAttr glyph else glyph

def drawCell (fb : Nat → Pixel) (stride x y cheight : Nat) (glyph : Nat → Pixel) : Nat → Pixel :=
  (List.range (cheight / 2)).foldl
    (fun fb oy => scale21 fb ((y + oy) * stride + x) (fun i => glyph (oy * 2 * 8 + i)) 8) fb

structure TextCells where
  fb : Nat → Pixel
  lastChAttr : Nat → BitVec 16
  dirtyX0 : Int
  dirtyY0 : Int
  dirtyX1 : Int
  dirtyY1 : Int

def textCell (s : TextScreen) (l : TextLayout) (c : TextCursor) (fullUpdate : Bool) (cy : Nat)
    (cells : TextCells) (cx : Nat) : TextCells :=
  let chAttr := l.chAttr s.vga.ram cy cx
  let atCursor := c.addr == l.chAddr cy cx
  let cell := cy * l.width + cx
  if !fullUpdate && chAttr == cells.lastChAttr cell && !atCursor then cells
  else
    let dstX := l.left s.fbDev.width + cx * 4
    let dstY := l.top s.fbDev.height + cy * (l.cheight / 2)
    { fb := drawCell cells.fb s.fbDev.width dstX dstY l.cheight (s.cellGlyph l c chAttr atCursor)
      lastChAttr := Function.update cells.lastChAttr cell chAttr
      dirtyX0 := min cells.dirtyX0 dstX
      dirtyY0 := min cells.dirtyY0 dstY
      dirtyX1 := max cells.dirtyX1 (dstX + 4 - 1)
      dirtyY1 := max cells.dirtyY1 (dstY + (l.cheight / 2 : Nat) - 1) }

def textCells (s : TextScreen) (l : TextLayout) (c : TextCursor) (fullUpdate : Bool)
    (cells : TextCells) : TextCells :=
  (List.range l.height).foldl
    (fun cells cy => (List.range l.width).foldl (s.textCell l c fullUpdate cy) cells) cells

def servesText (s : TextScreen) (l : TextLayout) : Bool :=
  decide (s.fbDev.width = 320 ∧ s.fbDev.height = 240 ∧ l.cwidth = 8) &&
    decide (0 < l.cheight ∧ l.cheight ≤ 16 ∧ l.cheight % 2 = 0) &&
    decide (0 < l.width ∧ l.width ≤ maxTextWidth ∧ 0 < l.height ∧ l.height ≤ maxTextHeight) &&
    decide (l.left s.fbDev.width + l.width * 4 ≤ s.fbDev.width ∧
      l.top s.fbDev.height + l.height * (l.cheight / 2) ≤ s.fbDev.height)

def textScale2 (s : TextScreen) (l : TextLayout) (c : TextCursor) (fullUpdate : Bool) :
    Option TextScreen :=
  if s.servesText l then
    let w := s.fbDev.width
    let h := s.fbDev.height
    let cells := s.textCells l c fullUpdate
      (if fullUpdate then ⟨s.toDisplay.clear.fbDev.data, s.lastChAttr, 0, 0, w - 1, h - 1⟩
        else ⟨s.fbDev.data, s.lastChAttr, w, h, -1, -1⟩)
    let s := { s with
      fbDev := { s.fbDev with data := cells.fb }
      lastChAttr := cells.lastChAttr }
    some (if cells.dirtyX0 ≤ cells.dirtyX1 ∧ cells.dirtyY0 ≤ cells.dirtyY1 then
        { s with redraws := s.redraws ++ [⟨cells.dirtyX0, cells.dirtyY0,
            cells.dirtyX1 - cells.dirtyX0 + 1, cells.dirtyY1 - cells.dirtyY0 + 1⟩] }
      else s)
  else none

/-- The cursor blinks every 133333 microseconds. -/
def blink (now : Word) (s : TextScreen) : TextScreen :=
  if Screen.afterEq now s.cursorBlinkTime then
    { s with cursorBlinkTime := now + 133333, cursorVisiblePhase := !s.cursorVisiblePhase }
  else s

/-- The palette is left alone when the picture is drawn in full anyway. -/
def takeTextPalette (s : TextScreen) (fullUpdate : Bool) : Bool × TextScreen :=
  if fullUpdate then (true, s)
  else
    let update := s.toScreen.updateLastPalette
    (update.1, { s with toScreen := update.2 })

def takeLayout (s : TextScreen) (l : TextLayout) (fullUpdate : Bool) : Bool × TextScreen :=
  if s.lastLineOffset.setWidth 32 ≠ l.lineOffset ∨ s.lastStartAddr.setWidth 32 ≠ l.startAddr ∨
      s.lastWidth ≠ l.width ∨ s.lastHeight ≠ l.height then
    (true, { s with
      lastLineOffset := l.lineOffset.setWidth 16
      lastStartAddr := l.startAddr.setWidth 16
      lastWidth := l.width
      lastHeight := l.height })
  else (fullUpdate, s)

def forgetCell (m : Nat → BitVec 16) (offset : Word) : Nat → BitVec 16 :=
  if offset.toNat < maxTextWidth * maxTextHeight then Function.update m offset.toNat 0xffff else m

/-- A cursor that has changed is drawn, and taken from where it was. -/
def takeCursor (s : TextScreen) (offset : Word) (c : TextCursor) : TextScreen :=
  if offset ≠ s.lastCursorOffset.setWidth 32 ∨ c.start ≠ s.lastCursorStart ∨
      c.stop ≠ s.lastCursorEnd then
    { s with
      lastChAttr := forgetCell (forgetCell s.lastChAttr (s.lastCursorOffset.setWidth 32)) offset
      lastCursorOffset := offset.setWidth 16
      lastCursorStart := c.start
      lastCursorEnd := c.stop }
  else s

def hasSpace (s : TextScreen) (l : TextLayout) : Bool :=
  decide (l.width * l.cwidth ≤ s.fbDev.width * 2 ∧ l.height * l.cheight ≤ s.fbDev.height * 2) &&
    decide (l.width ≤ maxTextWidth ∧ l.height ≤ maxTextHeight ∧ l.cheight ≤ 16)

def textRefresh (now : Word) (s : TextScreen) (fullUpdate : Bool) : Option TextScreen :=
  let (fullUpdate, s) := (s.blink now).takeTextPalette fullUpdate
  let l := s.textLayout
  if s.hasSpace l then
    let (fullUpdate, s) := s.takeLayout l fullUpdate
    let offset := s.cursorOffset
    let c := s.textCursor
    (s.takeCursor offset c).textScale2 l c fullUpdate
  else some s

def clear (s : TextScreen) : TextScreen :=
  { s with toScreen := { s.toScreen with toDisplay := s.toDisplay.clear } }

/-- A new mode starts from an empty screen. After graphics, the last picture may be held for a
while instead, also when the screen is blank in between. -/
def enterMode (now : Word) (s : TextScreen) (fullUpdate : Bool) : TextScreen × Bool :=
  let mode := s.modeNow
  if mode = s.graphicMode then (s, fullUpdate)
  else
    let t := { s with graphicMode := mode, cursorBlinkTime := now }
    if s.graphicMode = 2 ∧ mode ≠ 2 ∧ s.vga.textHoldDefault ≠ 0 then
      ({ t with
        textModeGeneration := s.vga.vramWriteGeneration
        textHoldLeft := s.vga.textHoldDefault }, true)
    else if s.graphicMode = 0 ∧ mode = 1 ∧ s.textHoldLeft ≠ 0 then (t, true)
    else ({ t with textHoldLeft := 0 }.clear, true)

/-- The hold ends with the first write to the memory, or after some refreshes; whether it has. -/
def endHold (s : TextScreen) : Bool × TextScreen :=
  if s.textHoldLeft = 0xff then (false, s)
  else if s.vga.vramWriteGeneration = s.textModeGeneration then
    let t := { s with textHoldLeft := s.textHoldLeft - 1 }
    if t.textHoldLeft ≠ 0 then (false, t) else (true, t.clear)
  else (true, { s with textHoldLeft := 0 }.clear)

def refresh (now : Word) (s : TextScreen) (fullUpdate : Bool) : Option TextScreen :=
  let (s, fullUpdate) := s.enterMode now fullUpdate
  if s.graphicMode = 1 then
    if s.textHoldLeft ≠ 0 then
      let (ended, s) := s.endHold
      if ended then s.textRefresh now true else some s
    else s.textRefresh now fullUpdate
  else (s.toScreen.refresh fullUpdate).map fun t => { s with toScreen := t }

end TextScreen

end Winspire.Vga
