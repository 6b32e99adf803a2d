import Winspire.Vga.Memory

/-!
# The picture of the adapter

The palettes, the colour of a pixel and the general renderer of `vga.c`, with 16 bits for a pixel
and `SCALE_2_1`: `vga_graphic_refresh` behind the renderers that serve single modes.
-/

namespace Winspire.Vga

set_option autoImplicit false

abbrev Pixel := BitVec 16

/-- The colour fields of a pixel with room above each. -/
def c69 (c : Pixel) : Word :=
  let c := c.setWidth 32
  c &&& 0x1f ||| (c &&& 0x7e0) <<< 4 ||| (c &&& 0xf800) <<< 7

def c96 (c : Word) : Pixel :=
  (c &&& 0x1f ||| (c &&& 0x7e00) >>> 4 ||| (c &&& 0x7c0000) >>> 7).setWidth 16

def average (p₀ p₁ p₂ p₃ : Pixel) : Pixel := c96 ((c69 p₀ + c69 p₁ + c69 p₂ + c69 p₃) >>> 2)

/-- `scale_2_1`, from the two lines of `w` pixels in `src`. -/
def scale21 (dst : Nat → Pixel) (a : Nat) (src : Nat → Pixel) (w : Nat) : Nat → Pixel :=
  blit dst a ((List.range (w / 2)).map fun k =>
    average (src (2 * k)) (src (2 * k + 1)) (src (2 * k + w)) (src (2 * k + 1 + w)))

/-- The rows lie one after the other: `stride` is `width` pixels. -/
structure FBDevice where
  width : Nat
  height : Nat
  data : Nat → Pixel

structure Rect where
  x : Int
  y : Int
  w : Int
  h : Int

/-- The fields the renderers use, and what they have asked the frontend to redraw. -/
structure Display where
  vga : VgaState
  fbDev : FBDevice
  tmpbuf : Nat → Pixel
  arIndex : Byte
  ar : Nat → Byte
  dac8bit : Bool
  palette : Nat → Byte
  compNtsc : Bool
  graphicMode : Nat
  graphicPalette : Nat → Word
  paletteQuietPolls : Byte
  paletteForceFull : Bool
  vbePairSum : Nat → Word
  vbePairMix : Nat → Word
  vbeFingerprintKey : Word
  vbePresentCount : Word
  vbeFingerprintValid : Bool
  redraws : List Rect

namespace Display

def dacToRgb565 (s : Display) (v : Nat) : Pixel :=
  let red := (s.palette v).setWidth 32
  let green := (s.palette (v + 1)).setWidth 32
  let blue : Word := (s.palette (v + 2)).setWidth 32
  if s.dac8bit then (blue >>> 3 ||| green >>> 2 <<< 5 ||| red >>> 3 <<< 11).setWidth 16
  else (blue >>> 1 ||| green <<< 5 ||| red >>> 1 <<< 11).setWidth 16

/-- The first `n` colours follow the DAC, read where `v` says; whether one changes. -/
def updatePalette (s : Display) (n : Nat) (v : Nat → Nat) : Bool × Display :=
  let col := fun i => (s.dacToRgb565 (v i)).setWidth 32
  ((List.range n).any fun i => col i != s.graphicPalette i,
    { s with graphicPalette := fun i => if i < n then col i else s.graphicPalette i })

def updatePalette256 (s : Display) : Bool × Display := s.updatePalette 256 fun i => 3 * i

def updatePalette16 (s : Display) : Bool × Display :=
  s.updatePalette 16 fun i =>
    let v := (s.ar i).setWidth 32
    let page : Word := (s.ar 0x14).setWidth 32
    let v := if (s.ar 0x10).getLsbD 7 then (page &&& 0xf) <<< 4 ||| v &&& 0xf
      else (page &&& 0xc) <<< 4 ||| v &&& 0x3f
    v.toNat * 3

/-- `COLOR`. -/
def toRgb565 (a : Word) : Word :=
  (a &&& 0xff) >>> 3 ||| (a >>> 8 &&& 0xff) >>> 2 <<< 5 ||| (a >>> 16 &&& 0xff) >>> 3 <<< 11

def ntscColorLut (k : Nat) : Word :=
  toRgb565 ([0x000000, 0x006E2D, 0x2D02FF, 0x008BFF, 0xA9002D, 0x777677, 0xEC09FF, 0xBB92FD,
    0x2D5A00, 0x00DC00, 0x767777, 0x45F4B9, 0xEA6502, 0xBCE500, 0xFF80BC, 0xFFFFFF].getD k 0)

def read (s : Display) (addr : Word) : Word :=
  if s.vga.ramSize ≤ addr.toNat then 0 else (s.vga.ram addr.toNat).setWidth 32

/-- What `vga_graphic_refresh` sets up before it draws. -/
structure Frame where
  w : Nat
  h : Nat
  shiftControl : Nat
  multiScan : Nat
  startAddr : Word
  lineOffset : Word
  isVbe : Bool
  xdiv : Nat
  bpp : Nat
  paletteUpdate : Bool

def deepColor (s : Display) (bpp : Nat) (addr x : Word) : Word :=
  match bpp with
  | 8 => s.graphicPalette (s.read (addr + x)).toNat
  | 15 =>
    let k := s.read (addr + 2 * x) ||| s.read (addr + 2 * x + 1) <<< 8
    k &&& 0x1f ||| (k &&& ~~~0x1f) <<< 1
  | 16 => s.read (addr + 2 * x) ||| s.read (addr + 2 * x + 1) <<< 8
  | 24 =>
    s.read (addr + 3 * x) >>> 3 ||| s.read (addr + 3 * x + 1) >>> 2 <<< 5 |||
      s.read (addr + 3 * x + 2) >>> 3 <<< 11
  | 32 =>
    s.read (addr + 4 * x) >>> 3 ||| s.read (addr + 4 * x + 1) >>> 2 <<< 5 |||
      s.read (addr + 4 * x + 2) >>> 3 <<< 11
  | _ => 0

def planarColor (s : Display) (addr : Word) (x : Nat) : Word :=
  let plane := fun i : Word => s.read (addr + 4 * BitVec.ofNat 32 (x / 8) + i) >>> (7 - x % 8) &&& 1
  s.graphicPalette (plane 0 ||| plane 1 <<< 1 ||| plane 2 <<< 2 ||| plane 3 <<< 3).toNat

/-- The colour at `x` of a line, and the colour of four pixels that `comp_ntsc` goes on with. -/
def color (s : Display) (f : Frame) (addr : Word) (x : Nat) (colorComp : Word) : Word × Word :=
  let group := addr + 4 * BitVec.ofNat 32 (x / 8)
  match f.shiftControl with
  | 0 =>
    if s.ar 0x12 = 1 then
      if s.compNtsc then
        let colorComp := if x % 4 = 0 then
            let k := s.read group
            ntscColorLut ((if x / 4 % 2 = 0 then k >>> 4 else k) &&& 0xf).toNat
          else colorComp
        (colorComp, colorComp)
      else (s.graphicPalette (s.read group >>> (7 - x % 8) &&& 1).toNat, colorComp)
    else (s.planarColor addr x, colorComp)
  | 1 =>
    let k := s.read (group + BitVec.ofNat 32 (x / 4 % 2)) >>> (6 - 2 * (x % 4)) &&& 3
    (s.graphicPalette k.toNat, colorComp)
  | _ => (s.deepColor f.bpp addr (BitVec.ofNat 32 x), colorComp)

def linePixels (s : Display) (f : Frame) (addr : Word) : Nat → Nat → Word → List Pixel
  | 0, _, _ => []
  | n + 1, x, colorComp =>
    let (color, colorComp) := s.color f addr (x / f.xdiv) colorComp
    color.setWidth 16 :: linePixels s f addr n (x + 1) colorComp

structure Scan where
  addr1 : Word
  y1 : Nat
  multiRun : Nat
  yyt : Nat
  yy : Nat
  tmpbuf : Nat → Pixel
  fb : Nat → Pixel

def lineAddr (s : Display) (f : Frame) (sc : Scan) : Word :=
  let mode := s.vga.regs.cr 0x17
  let y1 : Word := BitVec.ofNat 32 sc.y1
  let addr := sc.addr1
  let addr := if !f.isVbe && !mode.getLsbD 0 then
      let shift := 14 + (mode >>> 6 &&& 1).toNat
      addr &&& ~~~((1 : Word) <<< shift) ||| (y1 &&& 1) <<< shift
    else addr
  if !f.isVbe && !mode.getLsbD 1 then addr &&& ~~~(0x8000 : Word) ||| (y1 &&& 2) <<< 14 else addr

def nextLine (s : Display) (f : Frame) (sc : Scan) : Scan :=
  if f.isVbe then { sc with addr1 := sc.addr1 + f.lineOffset, y1 := sc.y1 + 1 }
  else if sc.multiRun = 0 then
    let mask := (s.vga.regs.cr 0x17).toNat % 4 ^^^ 3
    { sc with
      addr1 := if sc.y1 &&& mask = mask then sc.addr1 + f.lineOffset else sc.addr1
      y1 := sc.y1 + 1
      multiRun := f.multiScan }
  else { sc with multiRun := sc.multiRun - 1 }

/-- One line of `w` pixels into `tmpbuf`, and two of them to the framebuffer. -/
def line (s : Display) (f : Frame) (w i0 : Nat) (sc : Scan) : Scan :=
  let pixels := s.linePixels f (s.lineAddr f sc) w 0 0
  let sc := s.nextLine f { sc with tmpbuf := blit sc.tmpbuf (sc.yyt * w) pixels }
  if sc.yyt + 1 = 2 then
    { sc with
      fb := scale21 sc.fb (sc.yy * s.fbDev.width + i0) sc.tmpbuf w
      yyt := 0
      yy := sc.yy + 1 }
  else { sc with yyt := sc.yyt + 1 }

/-- The loop of `vga_graphic_refresh`: a small picture is centred, a large one cut off. -/
def genericDraw (s : Display) (f : Frame) : Display :=
  let hx := s.fbDev.height * 2
  let wx := s.fbDev.width * 2
  let i0 := (if f.h < hx then (hx - f.h) / 4 * s.fbDev.width else 0) +
    (if f.w < wx then (wx - f.w) / 4 else 0)
  let h := if f.h < hx then f.h else hx
  let w := if f.w < wx then f.w else wx
  let sc := (List.range h).foldl (fun sc _ => s.line f w i0 sc)
    { addr1 := 4 * f.startAddr, y1 := 0, multiRun := f.multiScan, yyt := 0, yy := 0,
      tmpbuf := s.tmpbuf, fb := s.fbDev.data }
  { s with
    tmpbuf := sc.tmpbuf
    fbDev := { s.fbDev with data := sc.fb }
    redraws := s.redraws ++ [⟨0, 0, s.fbDev.width, s.fbDev.height⟩] }

/-- In CGA modes `multi_scan` is ignored. -/
def multiScan (s : Display) : Nat :=
  let maxScan := s.vga.regs.cr 9
  if maxScan.getLsbD 7 then 1 else maxScan.toNat % 32

def vbeFrame (s : Display) : Frame × Display :=
  let r := s.vga.regs
  let bpp := (r.vbeRegs 3).toNat
  let update := if bpp = 8 then s.updatePalette256 else (false, s)
  ({ w := (r.vbeRegs 1).toNat, h := (r.vbeRegs 2).toNat, shiftControl := 2,
     multiScan := s.multiScan, startAddr := r.vbeStartAddr, lineOffset := r.vbeLineOffset,
     isVbe := true, xdiv := 1, bpp := bpp, paletteUpdate := update.1 }, update.2)

def crtFrame (s : Display) : Frame × Display :=
  let r := s.vga.regs
  let cr := fun i => (r.cr i).toNat
  let shiftControl := (r.gr 5 >>> 5 &&& 3).toNat
  let w := (cr 1 + 1) * 8
  let h := (cr 0x12 ||| (cr 7 &&& 0x02) <<< 7 ||| (cr 7 &&& 0x40) <<< 3) + 1
  let startAddr : Word := (r.cr 0x0c ++ r.cr 0x0d).setWidth 32
  let lineOffset : Word := (r.cr 0x13).setWidth 32 <<< 3
  if shiftControl = 0 ∨ shiftControl = 1 then
    let update := s.updatePalette16
    let halved := (r.sr 1).getLsbD 3
    ({ w := if halved ∧ shiftControl = 1 then w * 2 else w, h := h, shiftControl := shiftControl,
       multiScan := s.multiScan, startAddr := startAddr, lineOffset := lineOffset, isVbe := false,
       xdiv := if halved then 2 else 1, bpp := 4, paletteUpdate := update.1 }, update.2)
  else
    let update := s.updatePalette256
    ({ w := w, h := h, shiftControl := shiftControl, multiScan := s.multiScan,
       startAddr := startAddr, lineOffset := lineOffset, isVbe := false, xdiv := 2, bpp := 8,
       paletteUpdate := update.1 }, update.2)

def frame (s : Display) : Frame × Display :=
  if s.vga.regs.vbeEnabled then s.vbeFrame else s.crtFrame

/-- `vga_graphic_refresh` when no renderer for a single mode takes the frame. -/
def genericRefresh (s : Display) : Display :=
  let (f, s') := s.frame
  s'.genericDraw f

end Display

end Winspire.Vga
