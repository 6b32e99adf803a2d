import Winspire.Vga.VbeScale
import Winspire.Vga.VbeClear
import Winspire.Vga.Bus

/-!
# The adapter with all its renderers

The attribute controller and the DAC behind the ports, the two renderers of `vga.c` that draw only
the rows marked by writes (mode 13h, and 640 pixels of four planes), and `vga_refresh`, which
chooses among the renderers. Text modes are left out.
-/

namespace Winspire.Vga

set_option autoImplicit false

/-- `nspire` is the build for the calculator, where `vga_planar16_draw` is on as well; `paced` is
that build and the one with `TINY386_READ_PACED_RETRACE`. -/
structure Screen extends Display where
  nspire : Bool
  paced : Bool
  st00 : Byte
  st01 : Byte
  fcr : Byte
  retraceTime : Word
  retracePhase : Nat
  retracePollReads : Nat
  arFlipFlop : Bool
  dacState : Nat
  dacSubIndex : Nat
  dacReadIndex : Byte
  dacWriteIndex : Byte
  dacCache : Nat → Byte
  paletteDirty : Bool
  lastPalette256 : Nat → Pixel
  lastPalette256High : Nat → Word
  lastPalette256Valid : Bool
  mode13PairCache : Option (Nat → Word)
  lastPalette : Nat → Word
  planar4PairSum : Nat → Word
  planar4PairPalette : Nat → Pixel
  planar4PairSumValid : Bool
  planar640Start : Word
  planar640Line : Word
  planar640Height : Nat
  planar640Valid : Bool

namespace Screen

def dirtyPalette (s : Screen) : Screen :=
  { s with
    paletteDirty := true
    paletteForceFull := true
    paletteQuietPolls := if s.nspire then 2 else 0 }

def attributeMask (index : Nat) : Option Byte :=
  if index < 0x10 then some 0x3f
  else match index with
    | 0x10 => some 0xef
    | 0x11 => some 0xff
    | 0x12 => some 0x3f
    | 0x13 => some 0x0f
    | 0x14 => some 0x0f
    | _ => none

def writeAttribute (val : Byte) (s : Screen) : Screen :=
  let s' :=
    if !s.arFlipFlop then { s with arIndex := val &&& 0x3f }
    else
      let index := (s.arIndex &&& 0x1f).toNat
      match attributeMask index with
      | some mask => { s with ar := Function.update s.ar index (val &&& mask) }
      | none => s
  { s' with arFlipFlop := !s.arFlipFlop }

def writeDac (val : Byte) (s : Screen) : Screen :=
  let cache := Function.update s.dacCache s.dacSubIndex val
  if s.dacSubIndex + 1 = 3 then
    { ({ s with
        palette := blit s.palette (s.dacWriteIndex.toNat * 3) [cache 0, cache 1, cache 2]
      } : Screen).dirtyPalette with
      dacCache := cache
      dacSubIndex := 0
      dacWriteIndex := s.dacWriteIndex + 1 }
  else { s with dacCache := cache, dacSubIndex := s.dacSubIndex + 1 }

def readDac (s : Screen) : Byte × Screen :=
  (s.palette (s.dacReadIndex.toNat * 3 + s.dacSubIndex),
    if s.dacSubIndex + 1 = 3 then
      { s with dacSubIndex := 0, dacReadIndex := s.dacReadIndex + 1 }
    else { s with dacSubIndex := s.dacSubIndex + 1 })

def blocked (s : Screen) (addr : Nat) : Bool :=
  let color := s.vga.regs.msr.getLsbD 0
  (decide (0x3b0 ≤ addr ∧ addr ≤ 0x3bf) && color) ||
    (decide (0x3d0 ≤ addr ∧ addr ≤ 0x3df) && !color)

def ioportWrite (addr : Nat) (val : Word) (s : Screen) : Screen :=
  if s.blocked addr then s
  else match addr with
    | 0x3c0 => s.writeAttribute (val.setWidth 8)
    | 0x3c7 => { s with dacReadIndex := val.setWidth 8, dacSubIndex := 0, dacState := 3 }
    | 0x3c8 => { s with dacWriteIndex := val.setWidth 8, dacSubIndex := 0, dacState := 0 }
    | 0x3c9 => s.writeDac (val.setWidth 8)
    | 0x3ba => { s with fcr := val.setWidth 8 &&& 0x10 }
    | 0x3da => { s with fcr := val.setWidth 8 &&& 0x10 }
    | 0x3d8 => { s with compNtsc := !val.getLsbD 2 }
    | _ =>
      { s with
        vga := { s.vga with regs := s.vga.regs.ioportWrite addr val }
        compNtsc := if addr = 0x3cf ∧ s.vga.regs.grIndex = 6 then false else s.compNtsc }

/-- The next of the three phases: the display is off, then the retrace comes as well. -/
def nextPhase (s : Screen) : Screen :=
  match s.retracePhase with
  | 0 => { s with st01 := s.st01 ||| 0x01, retracePhase := 1 }
  | 1 => { s with st01 := s.st01 ||| 0x08, retracePhase := 2 }
  | _ => { s with st01 := s.st01 &&& ~~~0x09, retracePhase := 0 }

/-- `NSPIRE_RETRACE_POLL_READS`. -/
def retracePollReadsMax : Nat := 32

/-- A read of the status register: after 32 of them the phase changes. -/
def readStatus (s : Screen) : Byte × Screen :=
  let s :=
    if s.paced then
      if retracePollReadsMax ≤ s.retracePollReads + 1 then
        ({ s with retracePollReads := 0 } : Screen).nextPhase
      else { s with retracePollReads := s.retracePollReads + 1 }
    else s
  (s.st01, { s with arFlipFlop := false })

def retraceInterval : Word := 15000

def afterEq (a b : Word) : Bool := decide (a - b < 0x80000000)

/-- `vga_step`, at the time `now`; whether a picture is due. -/
def step (now : Word) (s : Screen) : Bool × Screen :=
  if s.paced then (s.retracePhase == 1, s.nextPhase)
  else if afterEq now s.retraceTime then
    (s.retracePhase == 1,
      { s.nextPhase with
        retraceTime := if s.retracePhase < 2 then now + 833 else now + retraceInterval })
  else (false, s)

def ioportRead (addr : Nat) (s : Screen) : Byte × Screen :=
  let r := s.vga.regs
  if s.blocked addr then (0xff, s)
  else match addr with
    | 0x3c0 => (if s.arFlipFlop then 0 else s.arIndex, s)
    | 0x3c1 =>
      let index := (s.arIndex &&& 0x1f).toNat
      (if index < 21 then s.ar index else 0, s)
    | 0x3c2 => (s.st00, s)
    | 0x3c4 => (BitVec.ofNat 8 r.srIndex, s)
    | 0x3c5 => (r.sr r.srIndex, s)
    | 0x3c7 => (BitVec.ofNat 8 s.dacState, s)
    | 0x3c8 => (s.dacWriteIndex, s)
    | 0x3c9 => s.readDac
    | 0x3ca => (s.fcr, s)
    | 0x3cc => (r.msr, s)
    | 0x3ce => (BitVec.ofNat 8 r.grIndex, s)
    | 0x3cf => (r.gr r.grIndex, s)
    | 0x3b4 => (BitVec.ofNat 8 r.crIndex, s)
    | 0x3d4 => (BitVec.ofNat 8 r.crIndex, s)
    | 0x3b5 => (r.cr r.crIndex, s)
    | 0x3d5 => (r.cr r.crIndex, s)
    | 0x3ba => s.readStatus
    | 0x3da => s.readStatus
    | _ => (0, s)

/-- `vbe_write`, which also switches the width of the DAC. -/
def vbeWrite (offset val : Word) (s : Screen) : Screen :=
  let wide := val.getLsbD 5
  let s := if offset ≠ 0 ∧ s.vga.regs.vbeIndex = 4 ∧ s.dac8bit ≠ wide then
      ({ s with dac8bit := wide } : Screen).dirtyPalette
    else s
  { s with vga := s.vga.vbeWrite offset val }

def palette256 (s : Screen) : Screen :=
  if !s.lastPalette256Valid || s.paletteDirty then
    let col := fun i => s.dacToRgb565 (3 * i)
    let high := fun i => (col i).setWidth 32 <<< 16
    { s with
      lastPalette256 := fun i => if i < 256 then col i else s.lastPalette256 i
      lastPalette256High := fun i => if i < 256 then high i else s.lastPalette256High i
      mode13PairCache := s.mode13PairCache.map fun cache i =>
        if i < 65536 then (col (i % 256)).setWidth 32 ||| high (i / 256) else cache i
      lastPalette256Valid := true
      paletteDirty := false }
  else s

def draws13 (s : Screen) (f : Display.Frame) : Bool :=
  let r := s.vga.regs
  s.vga.dirtyRender && decide (s.fbDev.width = 320 ∧ s.fbDev.height = 240) &&
    decide (¬r.vbeEnabled ∧ f.shiftControl = 2 ∧ f.bpp = 8) &&
    r.chain4 && decide (r.sr 2 &&& 0x0f = 0x0f) &&
    decide ((f.w = 320 ∨ f.w = 640) ∧ 200 ≤ f.h ∧ 320 ≤ f.lineOffset.toNat) &&
    decide (f.lineOffset &&& 1 = 0) &&
    decide (f.srcBase.toNat < s.vga.ramSize) &&
    decide ((f.srcBase + f.lineOffset * 199 + 319).toNat < s.vga.ramSize)

def wordPixels (w : Word) : List Pixel := [w.setWidth 16, (w >>> 16).setWidth 16]

/-- Word `x` of a row: two pixels at once, from the cache of pairs where there is one. -/
def mode13Word (s : Screen) (src x : Nat) : Word :=
  let left := s.vga.ram (src + 2 * x)
  let right := s.vga.ram (src + 2 * x + 1)
  match s.mode13PairCache with
  | some cache => cache (right ++ left).toNat
  | none => (s.lastPalette256 left.toNat).setWidth 32 ||| s.lastPalette256High right.toNat

def mode13Row (s : Screen) (src : Nat) : List Pixel :=
  (List.range 160).flatMap fun x => wordPixels (s.mode13Word src x)

/-- The rows from `first` on, below the 20 rows of the upper border. -/
def mode13Rows (s : Screen) (f : Display.Frame) (first : Nat) : Nat → (Nat → Pixel) → Nat → Pixel
  | 0, fb => fb
  | n + 1, fb =>
    s.mode13Rows f (first + 1) n
      (blit fb ((20 + first) * 320)
        (s.mode13Row (f.srcBase.toNat + (f.lineOffset * BitVec.ofNat 32 first).toNat)))

def mode13Borders (fb : Nat → Pixel) : Nat → Pixel :=
  blit (blit fb 0 (List.replicate 6400 0)) 70400 (List.replicate 6400 0)

def redrawn (s : Screen) (r : Rect) : Screen := { s with redraws := s.redraws ++ [r] }

/-- `vga_mode13_draw`; the marks are between 0 and 199 where there are any. -/
def mode13Draw (s : Screen) (f : Display.Frame) (fullUpdate : Bool) : Option Screen :=
  if s.draws13 f then
    let force := fullUpdate || s.paletteDirty || !s.lastPalette256Valid
    let s := s.palette256
    let clean : VgaState := { s.vga with mode13DirtyMin := 200, mode13DirtyMax := -1 }
    if force then
      let fb := s.mode13Rows f 0 200 (mode13Borders s.fbDev.data)
      some (({ s with vga := clean, fbDev := { s.fbDev with data := fb } } : Screen).redrawn
        ⟨0, 0, s.fbDev.width, s.fbDev.height⟩)
    else if s.vga.mode13DirtyMax < s.vga.mode13DirtyMin then some s
    else
      let first := s.vga.mode13DirtyMin
      let last := s.vga.mode13DirtyMax
      let fb := s.mode13Rows f first.toNat (last - first + 1).toNat s.fbDev.data
      some (({ s with vga := clean, fbDev := { s.fbDev with data := fb } } : Screen).redrawn
        ⟨0, first + 20, s.fbDev.width, last - first + 1⟩)
  else none

def planar4KeyPart (row : Nat) (val : Byte) : Byte :=
  let bit := fun i => if val.getLsbD i then (1 : Byte) else 0
  bit (7 - 2 * row) ||| bit (6 - 2 * row) <<< 4

/-- `planar4_pair_key`: the colours of two pixels, from the bytes of the planes at `src`. -/
def planar4PairKey (s : Screen) (src row : Nat) : Byte :=
  let part := fun i => planar4KeyPart row (s.vga.ram (src + i))
  part 0 ||| part 1 <<< 1 ||| part 2 <<< 2 ||| part 3 <<< 3

def planar4GetSums (s : Screen) : Screen :=
  let color := fun i => (s.lastPalette i).setWidth 16
  let rebuild := !s.planar4PairSumValid ||
    (List.range 16).any fun i => s.planar4PairPalette i != color i
  let palette := fun i => if i < 16 then color i else s.planar4PairPalette i
  if rebuild then
    { s with
      planar4PairPalette := palette
      planar4PairSum := fun key =>
        if key < 256 then c69 (palette (key % 16)) + c69 (palette (key / 16))
        else s.planar4PairSum key
      planar4PairSumValid := true }
  else { s with planar4PairPalette := palette }

/-- `planar4_scale2_row`. -/
def planar4Row (s : Screen) (row0 row1 : Nat) : List Pixel :=
  (List.range 80).flatMap fun group =>
    (List.range 4).map fun row =>
      c96 ((s.planar4PairSum (s.planar4PairKey (row0 + group * 4) row).toNat +
        s.planar4PairSum (s.planar4PairKey (row1 + group * 4) row).toNat) >>> 2)

def draws16 (s : Screen) (f : Display.Frame) : Bool :=
  let r := s.vga.regs
  s.vga.dirtyRender && decide (s.fbDev.width = 320 ∧ s.fbDev.height = 240) &&
    decide (¬r.vbeEnabled ∧ f.shiftControl = 0 ∧ f.bpp = 4) &&
    decide (f.w = 640 ∧ 350 ≤ f.h ∧ f.h ≤ 480 ∧ f.h % 2 = 0 ∧ 320 ≤ f.lineOffset.toNat) &&
    decide (s.ar 0x12 &&& 0x0f = 0x0f) && !s.compNtsc &&
    decide (¬(r.sr 1).getLsbD 3 ∧ r.cr 9 &&& 0x9f = 0 ∧ r.cr 0x17 &&& 3 = 3) &&
    decide (f.srcBase.toNat < s.vga.ramSize) &&
    decide ((f.srcBase + f.lineOffset * BitVec.ofNat 32 (f.h - 1) + 319).toNat < s.vga.ramSize)

structure PlanarRows where
  fb : Nat → Pixel
  marks : Nat → Bool
  dirtyMin : Int
  dirtyMax : Int

def planarRow (s : Screen) (f : Display.Frame) (outputY : Nat) (force : Bool) (rows : PlanarRows)
    (y : Nat) : PlanarRows :=
  if !force && !rows.marks y then rows
  else
    let row0 := f.srcBase + f.lineOffset * BitVec.ofNat 32 (y * 2)
    { fb := blit rows.fb ((outputY + y) * 320)
        (s.planar4Row row0.toNat (row0 + f.lineOffset).toNat)
      marks := Function.update rows.marks y false
      dirtyMin := min rows.dirtyMin y
      dirtyMax := max rows.dirtyMax y }

def planarRows (s : Screen) (f : Display.Frame) (outputY : Nat) (force : Bool) (first : Nat) :
    Nat → PlanarRows → PlanarRows
  | 0, rows => rows
  | n + 1, rows =>
    s.planarRows f outputY force (first + 1) n (s.planarRow f outputY force rows first)

def planarBorders (outputY outputHeight : Nat) (fb : Nat → Pixel) : Nat → Pixel :=
  if 0 < outputY then
    blit (blit fb 0 (List.replicate (outputY * 320) 0)) ((outputY + outputHeight) * 320)
      (List.replicate ((240 - outputY - outputHeight) * 320) 0)
  else fb

def updateLastPalette (s : Screen) : Bool × Screen :=
  let update := ({ s.toDisplay with graphicPalette := s.lastPalette } : Display).updatePalette16
  (update.1, { s with lastPalette := update.2.graphicPalette })

def remember (s : Screen) (f : Display.Frame) : Screen :=
  { s with
    planar640Start := f.startAddr
    planar640Line := f.lineOffset
    planar640Height := f.h
    planar640Valid := true }

def finishPlanar (s : Screen) (rows : PlanarRows) : Screen :=
  { s with
    vga := { s.vga with
      planar640DirtyMin := 240
      planar640DirtyMax := -1
      planar640DirtyRows := rows.marks }
    fbDev := { s.fbDev with data := rows.fb } }

def planar16Draw (s : Screen) (f : Display.Frame) (fullUpdate : Bool) : Option Screen :=
  if s.draws16 f then
    let outputHeight := f.h / 2
    let outputY := (s.fbDev.height - outputHeight) / 2
    let update := s.updateLastPalette
    let force := fullUpdate || update.1 || !s.planar640Valid || s.planar640Start != f.startAddr ||
      s.planar640Line != f.lineOffset || s.planar640Height != f.h
    let s := (update.2.remember f).planar4GetSums
    let start := fun fb => PlanarRows.mk fb s.vga.planar640DirtyRows 240 (-1)
    if force then
      let rows := s.planarRows f outputY true 0 outputHeight
        (start (planarBorders outputY outputHeight s.fbDev.data))
      some ((s.finishPlanar rows).redrawn ⟨0, 0, s.fbDev.width, s.fbDev.height⟩)
    else if s.vga.planar640DirtyMax < s.vga.planar640DirtyMin then some s
    else if (outputHeight : Int) ≤ s.vga.planar640DirtyMin then
      some (s.finishPlanar (start s.fbDev.data))
    else
      let first := s.vga.planar640DirtyMin
      let last := min s.vga.planar640DirtyMax (outputHeight - 1)
      let rows := s.planarRows f outputY false first.toNat (last - first + 1).toNat
        (start s.fbDev.data)
      let s := s.finishPlanar rows
      some (if rows.dirtyMin ≤ rows.dirtyMax then
          s.redrawn
            ⟨0, outputY + rows.dirtyMin, s.fbDev.width, rows.dirtyMax - rows.dirtyMin + 1⟩
        else s)
  else none

def forgetPlanar (s : Screen) : Screen := { s with planar640Valid := false }

def graphicRefresh (s : Screen) (fullUpdate : Bool) : Screen :=
  let (f, d) := s.toDisplay.frame
  let s := { s with toDisplay := d }
  match if f.isVbe then d.vbeScale2 f fullUpdate else none with
  | some d => ({ s with toDisplay := d } : Screen).forgetPlanar
  | none =>
    match s.mode13Draw f fullUpdate with
    | some s => s.forgetPlanar
    | none =>
      match if s.nspire then s.planar16Draw f fullUpdate else none with
      | some s => s
      | none => ({ s with toDisplay := s.toDisplay.genericDraw f } : Screen).forgetPlanar

def modeNow (s : Screen) : Nat :=
  if !s.arIndex.getLsbD 5 then 0 else if (s.vga.regs.gr 6).getLsbD 0 then 2 else 1

/-- A new mode starts from an empty screen, unless the last picture is held for a while. -/
def enterMode (s : Screen) (fullUpdate : Bool) : Screen × Bool :=
  let mode := s.modeNow
  if mode = s.graphicMode then (s, fullUpdate)
  else
    let d : Display := { s.toDisplay with graphicMode := mode }
    let held := s.graphicMode = 2 ∧ mode ≠ 2 ∧ s.vga.textHoldDefault ≠ 0
    ({ s with toDisplay := if held then d else d.clear }, true)

/-- `vga_refresh` for a blank screen and for graphics. -/
def refresh (s : Screen) (fullUpdate : Bool) : Option Screen :=
  if s.modeNow = 1 then none
  else
    let (s, fullUpdate) := s.enterMode fullUpdate
    if s.graphicMode = 2 then
      if s.paletteQuietPolls ≠ 0 then
        some { s with paletteQuietPolls := s.paletteQuietPolls - 1 }
      else
        let (d, fullUpdate) := s.toDisplay.takePalette fullUpdate
        some (({ s with toDisplay := d } : Screen).graphicRefresh fullUpdate)
    else some s

inductive Access (s : Screen) : Screen → Prop where
  | portWrite (addr : Nat) (val : Word) : Access s (s.ioportWrite addr val)
  | portRead (addr : Nat) : Access s (s.ioportRead addr).2
  | write8 (addr : Word) (val : Byte) : Access s { s with vga := s.vga.memWrite addr val }
  | write16 (addr : Word) (val : BitVec 16) : Access s { s with vga := s.vga.memWrite16 addr val }
  | write32 (addr val : Word) : Access s { s with vga := s.vga.memWrite32 addr val }
  | writeString (addr : Word) (buf : List Byte) : buf.length < 2 ^ 31 →
      Access s { s with vga := (s.vga.memWriteString addr buf).2 }
  | read (addr : Word) : Access s { s with vga := (s.vga.memRead addr).2 }
  | tick (now : Word) : Access s (s.step now).2
  | refresh {t : Screen} (full : Bool) : s.refresh full = some t → Access s t

/-- Besides there are the ports of VBE, the linear framebuffer, and refreshes in text modes, of
which only what they change is modelled. -/
inductive Step (s : Screen) : Screen → Prop where
  | access {t : Screen} : Access s t → Step s t
  | vbe (offset val : Word) : Step s (s.vbeWrite offset val)
  | linear (addr : Word) (bytes : List Byte) : Step s { s with vga := s.vga.put addr bytes }
  | text (fb : Nat → Pixel) (palette : Nat → Word) (redraws : List Rect) : s.modeNow = 1 →
      Step s { s with
        fbDev := { s.fbDev with data := fb }
        graphicMode := 1
        lastPalette := palette
        redraws := redraws }

/-- `vga_init`: no table is valid, and nothing is marked. -/
structure PowerOn (s : Screen) : Prop where
  palette256 : s.lastPalette256Valid = false
  sums : s.planar4PairSumValid = false
  planar640 : s.planar640Valid = false
  quiet : s.paletteQuietPolls = 0
  mode : s.graphicMode = 0
  mode13 : s.vga.mode13DirtyMin = 200 ∧ s.vga.mode13DirtyMax = -1
  rows : s.vga.planar640DirtyMin = 240 ∧ s.vga.planar640DirtyMax = -1

inductive Reachable : Screen → Prop where
  | init {s : Screen} : s.PowerOn → Reachable s
  | step {s t : Screen} : Reachable s → s.Step t → Reachable t

end Screen

end Winspire.Vga
