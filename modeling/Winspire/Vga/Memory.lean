import Winspire.Vga.Registers
import Winspire.Lib.Blit

/-!
# Writes to the video memory

`vga_mem_write` and its word, double word and string forms, and `iomem_write*` of `pc.c`, which
place the linear framebuffer before them.
-/

namespace Winspire.Vga

set_option autoImplicit false

/-- The fields the writes use; `dirtyRender` is the build with `TINY386_LCD_DIRTY_RENDER`. -/
structure VgaState where
  ram : Nat → Byte
  ramSize : Nat
  ramSize_lt : ramSize < 2 ^ 31
  latch : Word
  regs : VgaRegs
  dirtyRender : Bool
  textHoldDefault : Byte
  vramWriteGeneration : Word
  mode13DirtyMin : Int
  mode13DirtyMax : Int
  planar640DirtyMin : Int
  planar640DirtyMax : Int
  planar640DirtyRows : Nat → Bool

def mask16 (i : Nat) : Word :=
  [0x00000000, 0x000000ff, 0x0000ff00, 0x0000ffff, 0x00ff0000, 0x00ff00ff, 0x00ffff00, 0x00ffffff,
   0xff000000, 0xff0000ff, 0xff00ff00, 0xff00ffff, 0xffff0000, 0xffff00ff, 0xffffff00,
   0xffffffff].getD i 0

namespace VgaRegs

/-- `VGA_SR04_CHN_4M`. -/
def chain4 (r : VgaRegs) : Bool := (r.sr 4).getLsbD 3

/-- `sr[2] & (1 << plane)`. -/
def planeEnabled (r : VgaRegs) (plane : Word) : Bool := (r.sr 2).getLsbD plane.toNat

def memoryMapMode (r : VgaRegs) : Nat := (r.gr 6 >>> 2 &&& 3).toNat

/-- Convert to VGA memory offset, or out of the window. -/
def mapAddr (r : VgaRegs) (addr : Word) : Option Word :=
  let addr := addr &&& 0x1ffff
  match r.memoryMapMode with
  | 0 => some addr
  | 1 => if 0x10000 ≤ addr then none else some (addr + r.bankOffset)
  | 2 => if 0x8000 ≤ addr - 0x10000 then none else some (addr - 0x10000)
  | _ => if 0x8000 ≤ addr - 0x18000 then none else some (addr - 0x18000)

end VgaRegs

namespace VgaState

/-- `vga_ram[addr]`, ... `= bytes`. -/
def put (s : VgaState) (addr : Word) (bytes : List Byte) : VgaState :=
  { s with ram := blit s.ram addr.toNat bytes }

/-- `((uint32_t *)vga_ram)[i]`. -/
def getWord (s : VgaState) (i : Nat) : Word :=
  s.ram (4 * i + 3) ++ s.ram (4 * i + 2) ++ s.ram (4 * i + 1) ++ s.ram (4 * i)

def bytes32 (val : Word) : List Byte :=
  [val.setWidth 8, (val >>> 8).setWidth 8, (val >>> 16).setWidth 8, (val >>> 24).setWidth 8]

def bytes16 (val : BitVec 16) : List Byte := [val.setWidth 8, (val >>> 8).setWidth 8]

def putWord (s : VgaState) (i : Nat) (val : Word) : VgaState :=
  { s with ram := blit s.ram (4 * i) (bytes32 val) }

def countWrite (s : VgaState) : VgaState :=
  if s.textHoldDefault ≠ 0 then { s with vramWriteGeneration := s.vramWriteGeneration + 1 } else s

/-- Pixel offset and length of a row as the CRT controller has them. -/
def lineOffset (s : VgaState) : Word := (s.regs.cr 0x13).setWidth 32 <<< 3

def startAddr (s : VgaState) : Word := (s.regs.cr 0x0c ++ s.regs.cr 0x0d).setWidth 32 * 4

def dirtyMode13 (s : VgaState) (addr len : Word) : VgaState :=
  if ¬s.dirtyRender ∨ len = 0 then s
  else if s.mode13DirtyMin = 0 ∧ s.mode13DirtyMax = 199 then s
  else if s.lineOffset < 320 then s
  else if s.lineOffset = 320 ∧ s.startAddr = 0 ∧ addr = 0 ∧ 64000 ≤ len then
    { s with mode13DirtyMin := 0, mode13DirtyMax := 199 }
  else if addr + len - 1 < s.startAddr then s
  else
    let addr' := if addr < s.startAddr then s.startAddr else addr
    let first := (addr' - s.startAddr) / s.lineOffset
    -- The source adds `len` to the moved address.
    let last := (addr' + len - 1 - s.startAddr) / s.lineOffset
    if 200 ≤ first then s
    else
      let last := if 200 ≤ last then 199 else last
      { s with
        mode13DirtyMin := min s.mode13DirtyMin first.toNat
        mode13DirtyMax := max s.mode13DirtyMax last.toNat }

def dirtyPlanar640 (s : VgaState) (addr len : Word) : VgaState :=
  if ¬s.dirtyRender ∨ len = 0 then s
  else if s.lineOffset < 320 then s
  else if addr + len - 1 < s.startAddr then s
  else
    let addr' := if addr < s.startAddr then s.startAddr else addr
    let first := ((addr' - s.startAddr) / s.lineOffset) >>> 1
    let last := ((addr' + len - 1 - s.startAddr) / s.lineOffset) >>> 1
    if 240 ≤ first then s
    else
      let last := if 240 ≤ last then 239 else last
      { s with
        planar640DirtyMin := min s.planar640DirtyMin first.toNat
        planar640DirtyMax := max s.planar640DirtyMax last.toNat
        planar640DirtyRows := fun y =>
          if first.toNat ≤ y ∧ y ≤ last.toNat then true else s.planar640DirtyRows y }

/-- The shortcut for chain 4 with all planes in the 64 KiB window of bank 0. -/
def chain4Addr (s : VgaState) (addr len : Word) : Option Word :=
  let a := addr &&& 0x1ffff
  if ¬s.dirtyRender ∨ ¬s.regs.chain4 then none
  else if s.regs.sr 2 &&& 0x0f ≠ 0x0f then none
  else if s.regs.memoryMapMode ≠ 1 ∨ s.regs.bankOffset ≠ 0 then none
  else if 0x10000 ≤ a ∨ 0x10000 - a < len then none
  else if s.ramSize ≤ a.toNat ∨ s.ramSize - a.toNat < len.toNat then none
  else some a

/-- Rotate, set and reset, the function and the bit mask of a latched write. -/
def latchedValue (s : VgaState) (val8 : Byte) : Word :=
  let r := s.regs
  let val := val8.setWidth 32
  let rotated : Word :=
    let b := (r.gr 3 &&& 7).toNat
    val >>> b ||| val <<< (8 - b)
  let combine (val bitMask : Word) : Word :=
    let val := match (r.gr 3 >>> 3).toNat with
      | 1 => val &&& s.latch
      | 2 => val ||| s.latch
      | 3 => val ^^^ s.latch
      | _ => val
    let bitMask := bitMask ||| bitMask <<< 8
    let bitMask := bitMask ||| bitMask <<< 16
    val &&& bitMask ||| s.latch &&& ~~~bitMask
  match (r.gr 5 &&& 3).toNat with
  | 1 => s.latch
  | 2 => combine (mask16 (val &&& 0x0f).toNat) ((r.gr 8).setWidth 32)
  | 3 => combine (mask16 (r.gr 0).toNat) ((r.gr 8).setWidth 32 &&& rotated)
  | _ =>
    let val := rotated &&& 0xff
    let val := val ||| val <<< 8
    let val := val ||| val <<< 16
    let setMask := mask16 (r.gr 1).toNat
    combine (val &&& ~~~setMask ||| mask16 (r.gr 0).toNat &&& setMask) ((r.gr 8).setWidth 32)

/-- Text mode: even and odd addresses are two planes. -/
def writeOddEven (s : VgaState) (addr : Word) (val : Byte) : VgaState :=
  let plane := (s.regs.gr 4 &&& 2).setWidth 32 ||| addr &&& 1
  if s.regs.planeEnabled plane then
    let addr := (addr &&& ~~~1) <<< 1 ||| plane
    if s.ramSize ≤ addr.toNat then s else (s.dirtyPlanar640 addr 1).put addr [val]
  else s

def writeLatched (s : VgaState) (addr : Word) (val : Byte) : VgaState :=
  let val := s.latchedValue val
  let writeMask := mask16 (s.regs.sr 2).toNat
  if s.ramSize ≤ addr.toNat * 4 then s
  else
    (s.dirtyPlanar640 (addr * 4) 4).putWord addr.toNat
      (s.getWord addr.toNat &&& ~~~writeMask ||| val &&& writeMask)

def memWrite (addr : Word) (val8 : Byte) (s : VgaState) : VgaState :=
  let s := s.countWrite
  match s.chain4Addr addr 1 with
  | some addr => (s.dirtyMode13 addr 1).put addr [val8]
  | none =>
    match s.regs.mapAddr addr with
    | none => s
    | some addr =>
      if s.ramSize ≤ addr.toNat then s
      else if s.regs.chain4 then
        if s.regs.planeEnabled (addr &&& 3) then (s.dirtyMode13 addr 1).put addr [val8] else s
      else if (s.regs.gr 5).getLsbD 4 then s.writeOddEven addr val8
      else s.writeLatched addr val8

/-- Chain 4 behind the window: one test for all the bytes. The source repeats it for each width. -/
def writeChain4 (s : VgaState) (addr : Word) (bytes : List Byte) : Bool × VgaState :=
  match s.regs.mapAddr addr with
  | none => (false, s)
  | some addr =>
    if bytes = [] ∨ s.ramSize ≤ addr.toNat ∨ s.ramSize - addr.toNat < bytes.length then (false, s)
    else if s.regs.planeEnabled (addr &&& 3) then
      (true, (s.dirtyMode13 addr (BitVec.ofNat 32 bytes.length)).put addr bytes)
    else (false, s)

def memWrite16 (addr : Word) (val : BitVec 16) (s : VgaState) : VgaState :=
  let s := s.countWrite
  match s.chain4Addr addr 2 with
  | some addr => (s.dirtyMode13 addr 2).put addr (bytes16 val)
  | none =>
    if s.regs.chain4 then (s.writeChain4 addr (bytes16 val)).2
    else memWrite (addr + 1) ((val >>> 8).setWidth 8) (memWrite addr (val.setWidth 8) s)

def memWrite32 (addr val : Word) (s : VgaState) : VgaState :=
  let s := s.countWrite
  match s.chain4Addr addr 4 with
  | some addr => (s.dirtyMode13 addr 4).put addr (bytes32 val)
  | none =>
    if s.regs.chain4 then (s.writeChain4 addr (bytes32 val)).2
    else
      let s := memWrite addr (val.setWidth 8) s
      let s := memWrite (addr + 1) ((val >>> 8).setWidth 8) s
      let s := memWrite (addr + 2) ((val >>> 16).setWidth 8) s
      memWrite (addr + 3) ((val >>> 24).setWidth 8) s

/-- The loops of `vga_planar_write`: `keepMask` is zero when all planes are written. -/
def fillPlanes (writeMask keepMask : Word) : Nat → List Byte → VgaState → VgaState
  | _, [], s => s
  | i, b :: buf, s =>
    let val := b.setWidth 32 * 0x01010101
    fillPlanes writeMask keepMask (i + 1) buf
      (s.putWord i (val &&& writeMask ||| s.getWord i &&& keepMask))

def planarWrite (s : VgaState) (addr : Word) (buf : List Byte) : Bool × VgaState :=
  let r := s.regs
  let planeMask := r.sr 2 &&& 0x0f
  if ¬s.dirtyRender ∨ buf = [] then (false, s)
  else if r.chain4 ∨ (r.gr 5).getLsbD 4 ∨ r.gr 5 &&& 3 ≠ 0 then (false, s)
  else if r.gr 3 &&& 7 ≠ 0 ∨ r.gr 3 >>> 3 ≠ 0 then (false, s)
  else if r.gr 1 ≠ 0 ∨ r.gr 8 ≠ 0xff then (false, s)
  else if planeMask = 0 then (false, s)
  else match r.mapAddr addr with
    | none => (false, s)
    | some addr =>
      let planeWords := s.ramSize / 4
      if planeWords ≤ addr.toNat ∨ planeWords - addr.toNat < buf.length then (false, s)
      else
        let writeMask := if planeMask = 0x0f then 0xffffffff else mask16 planeMask.toNat
        (true, (fillPlanes writeMask (~~~writeMask) addr.toNat buf s).dirtyPlanar640 (addr * 4)
          (BitVec.ofNat 32 buf.length * 4))

/-- `buf` has the length `len` says. -/
def memWriteString (addr : Word) (buf : List Byte) (s : VgaState) : Bool × VgaState :=
  let s := if buf = [] then s else s.countWrite
  match if buf = [] then none else s.chain4Addr addr (BitVec.ofNat 32 buf.length) with
  | some addr => (true, (s.dirtyMode13 addr (BitVec.ofNat 32 buf.length)).put addr buf)
  | none => if s.regs.chain4 then s.writeChain4 addr buf else s.planarWrite addr buf

end VgaState

/-- `vga_mem` of the machine is the memory of its adapter; `~0` stands for no address. -/
structure Pc where
  vga : VgaState
  pciVgaRamAddr : Word

namespace Pc

/-- `pci_vga_addr`: the address the guest chose, then `VBE_LFB_ADDR`. -/
def pciVgaAddr (pc : Pc) (addr : Word) : Option Word :=
  if pc.pciVgaRamAddr ≠ 0xffffffff ∧ pc.pciVgaRamAddr ≤ addr ∧
      (addr - pc.pciVgaRamAddr).toNat < pc.vga.ramSize then some (addr - pc.pciVgaRamAddr)
  else if 0xe0000000 ≤ addr ∧ (addr - 0xe0000000).toNat < pc.vga.ramSize then
    some (addr - 0xe0000000)
  else none

/-- The loop of `vga_pci_init`: the least power of two that holds the memory. -/
def barSize (ramSize : Nat) : Nat → Word → Word
  | 0, size => size
  | fuel + 1, size => if size.toNat < ramSize then barSize ramSize fuel (size <<< 1) else size

/-- `pci_update_mappings` and `set_pci_vga_bar`; `none` is a disabled region. -/
def updateMappings (config : Option Word) (pc : Pc) : Pc :=
  match config with
  | some addr => { pc with pciVgaRamAddr := addr &&& ~~~(barSize pc.vga.ramSize 31 1 - 1) }
  | none => { pc with pciVgaRamAddr := 0xffffffff }

def iomemWrite8 (addr : Word) (val : Byte) (pc : Pc) : Pc :=
  match pc.pciVgaAddr addr with
  | some offset => { pc with vga := pc.vga.put offset [val] }
  | none => { pc with vga := VgaState.memWrite (addr - 0xa0000) val pc.vga }

def iomemWrite16 (addr : Word) (val : BitVec 16) (pc : Pc) : Pc :=
  match pc.pciVgaAddr addr with
  | some offset =>
    if offset.toNat + 1 < pc.vga.ramSize then
      { pc with vga := pc.vga.put offset (VgaState.bytes16 val) }
    else pc
  | none => { pc with vga := VgaState.memWrite16 (addr - 0xa0000) val pc.vga }

def iomemWrite32 (addr val : Word) (pc : Pc) : Pc :=
  match pc.pciVgaAddr addr with
  | some offset =>
    if offset.toNat + 3 < pc.vga.ramSize then
      { pc with vga := pc.vga.put offset (VgaState.bytes32 val) }
    else pc
  | none => { pc with vga := VgaState.memWrite32 (addr - 0xa0000) val pc.vga }

def iomemWriteString (addr : Word) (buf : List Byte) (pc : Pc) : Bool × Pc :=
  match pc.pciVgaAddr addr with
  | some offset =>
    if buf.length ≤ pc.vga.ramSize - offset.toNat then
      (true, { pc with vga := pc.vga.put offset buf })
    else (false, pc)
  | none =>
    let (done, vga) := VgaState.memWriteString (addr - 0xa0000) buf pc.vga
    (done, { pc with vga := vga })

end Pc

end Winspire.Vga
