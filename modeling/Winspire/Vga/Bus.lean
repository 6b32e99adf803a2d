import Winspire.Vga.Memory

/-!
# Accesses of the processor that reach the adapter

`vga_mem_read` and `iomem_read*`, and the loads and stores of `i386.c` in front of them: what lies
in the legacy window or from 0xe0000000 on goes to the adapter, except loads from the alias of the
BIOS. `none` is a load from RAM.
-/

namespace Winspire.Vga

set_option autoImplicit false

namespace VgaState
variable (s : VgaState)

def getPlane (data : Word) (plane : Nat) : Byte := (data >>> (plane * 8)).setWidth 8

def readMode1 (latch : Word) : Byte :=
  let ret := (latch ^^^ mask16 (s.regs.gr 2).toNat) &&& mask16 (s.regs.gr 7).toNat
  let ret := ret ||| ret >>> 16
  let ret := ret ||| ret >>> 8
  (~~~ret).setWidth 8

/-- The address in the memory of an odd/even access. -/
def oddEvenAddr (addr : Word) : Word :=
  let plane := (s.regs.gr 4 &&& 2).setWidth 32 ||| addr &&& 1
  (addr &&& ~~~1) <<< 1 ||| plane

def memRead (addr : Word) : Byte × VgaState :=
  match s.chain4Addr addr 1 with
  | some addr => (s.ram addr.toNat, s)
  | none =>
    match s.regs.mapAddr addr with
    | none => (0xff, s)
    | some addr =>
      if s.ramSize ≤ addr.toNat then (0xff, s)
      else if s.regs.chain4 then (s.ram addr.toNat, s)
      else if (s.regs.gr 5).getLsbD 4 then
        let addr := s.oddEvenAddr addr
        (if s.ramSize ≤ addr.toNat then 0xff else s.ram addr.toNat, s)
      else if s.ramSize ≤ addr.toNat * 4 then (0xff, s)
      else
        let latch := s.getWord addr.toNat
        (if (s.regs.gr 5).getLsbD 3 then s.readMode1 latch
          else getPlane latch (s.regs.gr 4).toNat, { s with latch := latch })

end VgaState

namespace Pc

def iomemRead8 (addr : Word) (pc : Pc) : Byte × Pc :=
  match pc.pciVgaAddr addr with
  | some offset => (pc.vga.ram offset.toNat, pc)
  | none =>
    let (val, vga) := pc.vga.memRead (addr - 0xa0000)
    (val, { pc with vga := vga })

def iomemRead16 (addr : Word) (pc : Pc) : BitVec 16 × Pc :=
  let (low, pc) := iomemRead8 addr pc
  let (high, pc) := iomemRead8 (addr + 1) pc
  (high ++ low, pc)

def iomemRead32 (addr : Word) (pc : Pc) : Word × Pc :=
  let (low, pc) := iomemRead16 addr pc
  let (high, pc) := iomemRead16 (addr + 2) pc
  (high ++ low, pc)

end Pc

def inIomem (addr : Word) : Bool :=
  if addr < 0xa0000 then false else decide (addr < 0xc0000) || decide (0xe0000000 ≤ addr)

def biosAliasBase : Word := 0xfffe0000

def mapBiosAlias (addr : Word) : Word :=
  if biosAliasBase ≤ addr then addr &&& 0x000fffff else addr

namespace Pc
variable (pc : Pc)

def load8 (addr : Word) : Option Byte × Pc :=
  let addr := mapBiosAlias addr
  if inIomem addr then
    let (val, pc) := iomemRead8 addr pc
    (some val, pc)
  else (none, pc)

def load16 (addr : Word) : Option (BitVec 16) × Pc :=
  let addr := mapBiosAlias addr
  if inIomem addr then
    let (val, pc) := iomemRead16 addr pc
    (some val, pc)
  else (none, pc)

def load32 (addr : Word) : Option Word × Pc :=
  let addr := mapBiosAlias addr
  if inIomem addr then
    let (val, pc) := iomemRead32 addr pc
    (some val, pc)
  else (none, pc)

def store8 (addr : Word) (val : Byte) : Pc := if inIomem addr then iomemWrite8 addr val pc else pc

def store16 (addr : Word) (val : BitVec 16) : Pc :=
  if inIomem addr then iomemWrite16 addr val pc else pc

def store32 (addr val : Word) : Pc := if inIomem addr then iomemWrite32 addr val pc else pc

/-- The call of `iomem_write_string` in a string move of `buf` upwards. -/
def storeString (addr : Word) (buf : List Byte) : Pc :=
  if inIomem addr ∧ inIomem (addr + BitVec.ofNat 32 buf.length - 1) then
    (iomemWriteString addr buf pc).2
  else pc

end Pc

structure SameVideo (s t : VgaState) : Prop where
  ram : s.ram = t.ram
  mode13DirtyMin : s.mode13DirtyMin = t.mode13DirtyMin
  mode13DirtyMax : s.mode13DirtyMax = t.mode13DirtyMax
  planar640DirtyMin : s.planar640DirtyMin = t.planar640DirtyMin
  planar640DirtyMax : s.planar640DirtyMax = t.planar640DirtyMax
  planar640DirtyRows : s.planar640DirtyRows = t.planar640DirtyRows

/-- No store to the address changes video memory or marks, and no load from it the latch. -/
structure Pc.Exclusive (pc : Pc) (addr : Word) : Prop where
  store8 : ∀ val, SameVideo (pc.store8 addr val).vga pc.vga
  store16 : ∀ val, SameVideo (pc.store16 addr val).vga pc.vga
  store32 : ∀ val, SameVideo (pc.store32 addr val).vga pc.vga
  storeString : ∀ buf, SameVideo (pc.storeString addr buf).vga pc.vga
  load8 : (pc.load8 addr).2.vga.latch = pc.vga.latch
  load16 : (pc.load16 addr).2.vga.latch = pc.vga.latch
  load32 : (pc.load32 addr).2.vga.latch = pc.vga.latch

/-- Same registers and address windows; memory, latch and marks may differ. -/
structure Pc.SameWiring (pc pc' : Pc) : Prop where
  regs : pc.vga.regs = pc'.vga.regs
  ramSize : pc.vga.ramSize = pc'.vga.ramSize
  dirtyRender : pc.vga.dirtyRender = pc'.vga.dirtyRender
  pciVgaRamAddr : pc.pciVgaRamAddr = pc'.pciVgaRamAddr

namespace VgaState
variable (s : VgaState)

/-- A write of four bytes at `addr` marks a row for the planar renderer. -/
def MarksRow (addr : Word) : Prop :=
  s.dirtyRender = true ∧ 320 ≤ s.lineOffset ∧ s.startAddr ≤ addr + 4 - 1 ∧
    (((if addr < s.startAddr then s.startAddr else addr) - s.startAddr) / s.lineOffset) >>> 1 < 240

def Touches (addr : Word) : Prop :=
  ∃ o, s.regs.mapAddr addr = some o ∧ o.toNat < s.ramSize ∧
    if s.regs.chain4 then s.regs.planeEnabled (o &&& 3) = true
    else if (s.regs.gr 5).getLsbD 4 then
      s.regs.planeEnabled ((s.regs.gr 4 &&& 2).setWidth 32 ||| o &&& 1) = true ∧
        (s.oddEvenAddr o).toNat < s.ramSize
    else o.toNat * 4 < s.ramSize ∧ (s.regs.sr 2 ≠ 0 ∨ s.MarksRow (o * 4))

def Latches (addr : Word) : Prop :=
  ∃ o, s.regs.mapAddr addr = some o ∧ o.toNat < s.ramSize ∧ s.regs.chain4 = false ∧
    (s.regs.gr 5).getLsbD 4 = false ∧ o.toNat * 4 < s.ramSize

end VgaState

/-- The window of the legacy adapter, which repeats every 128 KiB, is missed: by the first byte in
chain 4, by four bytes otherwise, and by the bytes of a load that are not in the linear
framebuffer. -/
structure Pc.Misses (pc : Pc) (addr : Word) : Prop where
  chain4 : pc.vga.regs.chain4 = true → ¬pc.vga.Touches (addr - 0xa0000)
  planes : pc.vga.regs.chain4 = false → ∀ i < 4, ¬pc.vga.Touches (addr - 0xa0000 + BitVec.ofNat 32 i)
  loads : addr < biosAliasBase → ∀ i < 4, pc.pciVgaAddr (addr + BitVec.ofNat 32 i) = none →
    ¬pc.vga.Latches (addr + BitVec.ofNat 32 i - 0xa0000)

end Winspire.Vga
