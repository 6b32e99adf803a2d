import Winspire.Lib.Blit

/-!
# The network card

The registers of the card, its memory with the remote DMA, and what it does with frames that
arrive. The interrupt line and the packets sent are outputs. Memory behind the end of `mem` is
whatever lies there.
-/

namespace Winspire.Net

set_option autoImplicit false

abbrev Byte := BitVec 8
abbrev Word := BitVec 32

def maxEthFrameSize : Nat := 1514
def minBufSize : Nat := 60
def pmemSize : Nat := 32 * 1024
def pmemStart : Nat := 16 * 1024
def pmemEnd : Nat := pmemSize + pmemStart
def memSize : Nat := pmemEnd

/-- `isr` is a plain byte: one thread uses the card. `irqLevel` is what `set_irq` has been told
last, and `sent` what `send_packet` has been given. -/
structure Ne2000 where
  cmd : Byte
  start : Word
  stop : Word
  boundary : Byte
  tsr : Byte
  tpsr : Byte
  tcnt : BitVec 16
  rcnt : BitVec 16
  rsar : Word
  rsr : Byte
  rxcr : Byte
  isr : Byte
  dcfg : Byte
  imr : Byte
  phys : Nat → Byte
  curpag : Byte
  mult : Nat → Byte
  macaddr : Nat → Byte
  mem : Nat → Byte
  irqLevel : Bool
  sent : List (List Byte)

/-- A bit of `compute_mcast_idx`. -/
def crcBit (b : Byte) (crc : Word) (j : Nat) : Word :=
  let carry := crc.getLsbD 31 ^^ b.getLsbD j
  let shifted := crc <<< 1
  if carry then (shifted ^^^ 0x04c11db6) ||| 1 else shifted

def computeMcastIdx (ep : Nat → Byte) : Nat :=
  let crc := (List.range 6).foldl (fun crc i => (List.range 8).foldl (crcBit (ep i)) crc)
    (0xffffffff : Word)
  (crc >>> 26).toNat

namespace Ne2000

def reset (s : Ne2000) : Ne2000 :=
  let mem := blit s.mem 0 (slice s.macaddr 0 6)
  let mem := Function.update (Function.update mem 14 0x57) 15 0x57
  { s with
    isr := 0x80
    mem := (List.range 16).foldr (fun i mem =>
      let mem := Function.update mem (2 * i) (mem i)
      Function.update mem (2 * i + 1) (mem i)) mem }

def pending (s : Ne2000) : Bool := s.isr &&& s.imr &&& 0x7f != 0

def updateIrq (s : Ne2000) : Ne2000 := { s with irqLevel := s.pending }

def signal (s : Ne2000) (bits : Byte) : Ne2000 := { s with isr := s.isr ||| bits }

def available (s : Ne2000) : Word :=
  let index := s.curpag.setWidth 32 <<< 8
  let boundary := s.boundary.setWidth 32 <<< 8
  if index < boundary then boundary - index else s.stop - s.start - (index - boundary)

def bufferFull (s : Ne2000) : Bool := s.available.toInt < maxEthFrameSize + 4

def canReceive (s : Ne2000) : Bool := s.cmd.getLsbD 0 || !s.bufferFull

def accepts (s : Ne2000) (buf : Nat → Byte) : Bool :=
  if s.rxcr.getLsbD 4 then true
  else if (List.range 6).all fun i => buf i == 0xff then s.rxcr.getLsbD 2
  else if (buf 0).getLsbD 0 then
    s.rxcr.getLsbD 3 && (s.mult (computeMcastIdx buf / 8)).getLsbD (computeMcastIdx buf % 8)
  else (List.range 6).all fun i => s.mem (2 * i) == buf i

/-- Small frames are filled up with zeros. -/
def padded (buf : Nat → Byte) (size : Nat) : List Byte :=
  slice buf 0 size ++ List.replicate (minBufSize - size) 0

/-- The status of a frame that has been received. -/
def status (frame : List Byte) : Byte :=
  if (frame.getD 0 0).getLsbD 0 then 0x01 ||| 0x20 else 0x01

/-- What is left up to the end of the ring. -/
def room (stop index : Word) : Word := if index ≤ stop then stop - index else 0

/-- The loop that stores a frame; outside the ring it does not end. -/
def storeFrame (start stop : Word) (mem : Nat → Byte) (index : Word) (frame : List Byte) :
    Option (Nat → Byte) :=
  if frame = [] then some mem
  else
    let len := min frame.length (room stop index).toNat
    if len = 0 then
      if index = stop ∧ start ≠ stop then storeFrame start stop mem start frame else none
    else
      let index' := index + BitVec.ofNat 32 len
      storeFrame start stop (blit mem index.toNat (frame.take len))
        (if index' = stop then start else index') (frame.drop len)
termination_by 2 * frame.length + if index = stop then 1 else 0
decreasing_by
  · rename_i h
    rw [if_neg h.2, if_pos h.1]
    omega
  · rename_i hlen
    have hflag : ∀ i : Word, (if i = stop then 1 else 0) ≤ 1 := by
      intro i
      split <;> omega
    refine Nat.lt_of_le_of_lt (Nat.add_le_add_left (hflag _) _) ?_
    rw [List.length_drop]
    omega

/-- The address of the next frame, with the four bytes of the header and four for the CRC. -/
def nextFrame (s : Ne2000) (size : Nat) : Word :=
  let next := (s.curpag.setWidth 32 <<< 8) + (BitVec.ofNat 32 (size + 4 + 4 + 255) &&& ~~~0xff)
  if s.stop ≤ next then next - (s.stop - s.start) else next

def takes (s : Ne2000) (buf : Nat → Byte) (size : Nat) : Bool :=
  decide (size ≤ maxEthFrameSize) && !(s.cmd.getLsbD 0 || s.bufferFull) && s.accepts buf

def header (frame : List Byte) (next : Word) : List Byte :=
  let totalLen := BitVec.ofNat 32 (frame.length + 4)
  [status frame, (next >>> 8).setWidth 8, totalLen.setWidth 8, (totalLen >>> 8).setWidth 8]

/-- `ne2000_receive`; `none` when it does not return. -/
def receive (s : Ne2000) (buf : Nat → Byte) (size : Nat) : Option Ne2000 :=
  if s.takes buf size then
    let frame := padded buf size
    let index := s.curpag.setWidth 32 <<< 8
    let next := s.nextFrame frame.length
    let mem := blit s.mem index.toNat (header frame next)
    (storeFrame s.start s.stop mem (index + 4) frame).map fun mem =>
      updateIrq
        { s with
          rsr := status frame
          mem := mem
          curpag := (next >>> 8).setWidth 8
          isr := s.isr ||| 0x01 }
  else some s

def packetStart (s : Ne2000) : Nat :=
  let index := s.tpsr.toNat * 256
  if pmemEnd ≤ index then index - pmemSize else index

/-- The packet is sent, unless it goes beyond the memory. -/
def transmit (s : Ne2000) : Ne2000 :=
  if s.packetStart + s.tcnt.toNat ≤ pmemEnd then
    { s with sent := s.sent ++ [slice s.mem s.packetStart s.tcnt.toNat] }
  else s

/-- A transfer of no bytes is complete at once. -/
def completeEmpty (s : Ne2000) (val : Byte) : Ne2000 :=
  if val &&& 0x18 ≠ 0 ∧ s.rcnt = 0 then (s.signal 0x40).updateIrq else s

def writeCmd (s : Ne2000) (val : Byte) : Ne2000 :=
  let s := { s with cmd := val }
  if val.getLsbD 0 then s
  else
    let s := { s with isr := s.isr &&& ~~~0x80 }.completeEmpty val
    if val.getLsbD 2 then
      let s := { s.transmit with tsr := 0x01 }
      updateIrq { s.signal 0x02 with cmd := s.cmd &&& ~~~0x04 }
    else s

/-- The register behind a port, by its page. -/
def register (s : Ne2000) (addr : Word) : Nat := (addr &&& 0xf).toNat + 16 * (s.cmd >>> 6).toNat

/-- The low or the high byte of a register. -/
def setLow (v : BitVec 16) (val : Byte) : BitVec 16 :=
  v &&& (0xff00 : BitVec 16) ||| val.setWidth 16

def setHigh (v : BitVec 16) (val : Byte) : BitVec 16 :=
  v &&& (0x00ff : BitVec 16) ||| val.setWidth 16 <<< 8

def writeRegister (s : Ne2000) (val : Byte) : Nat → Ne2000
  | 0x01 => { s with start := val.setWidth 32 <<< 8 }
  | 0x02 => { s with stop := val.setWidth 32 <<< 8 }
  | 0x03 => { s with boundary := val }
  | 0x04 => { s with tpsr := val }
  | 0x05 => { s with tcnt := setLow s.tcnt val }
  | 0x06 => { s with tcnt := setHigh s.tcnt val }
  | 0x07 => updateIrq { s with isr := s.isr &&& ~~~(val &&& 0x7f) }
  | 0x08 => { s with rsar := s.rsar &&& (0xff00 : Word) ||| val.setWidth 32 }
  | 0x09 => { s with rsar := s.rsar &&& (0x00ff : Word) ||| val.setWidth 32 <<< 8 }
  | 0x0a => { s with rcnt := setLow s.rcnt val }
  | 0x0b => { s with rcnt := setHigh s.rcnt val }
  | 0x0c => { s with rxcr := val }
  | 0x0e => { s with dcfg := val }
  | 0x0f => updateIrq { s with imr := val }
  | 0x17 => { s with curpag := val }
  | offset =>
    if 0x11 ≤ offset ∧ offset < 0x17 then
      { s with phys := Function.update s.phys (offset - 0x11) val }
    else if 0x18 ≤ offset ∧ offset < 0x20 then
      { s with mult := Function.update s.mult (offset - 0x18) val }
    else s

def ioportWrite (s : Ne2000) (addr : Word) (val : Byte) : Ne2000 :=
  if addr &&& 0xf = 0 then s.writeCmd val else s.writeRegister val (s.register addr)

def readRegister (s : Ne2000) : Nat → Byte
  | 0x03 => s.boundary
  | 0x04 => s.tsr
  | 0x07 => s.isr
  | 0x08 => s.rsar.setWidth 8
  | 0x09 => (s.rsar >>> 8).setWidth 8
  | 0x0a => 0x50
  | 0x0b => 0x43
  | 0x0c => s.rsr
  | 0x17 => s.curpag
  | 0x21 => (s.start >>> 8).setWidth 8
  | 0x22 => (s.stop >>> 8).setWidth 8
  | 0x33 => 0
  | 0x35 => 0x40
  | 0x36 => 0x40
  | offset =>
    if 0x11 ≤ offset ∧ offset < 0x17 then s.phys (offset - 0x11)
    else if 0x18 ≤ offset ∧ offset < 0x20 then s.mult (offset - 0x18)
    else 0

def ioportRead (s : Ne2000) (addr : Word) : Byte :=
  if addr &&& 0xf = 0 then s.cmd else s.readRegister (s.register addr)

/-- The addresses behind which there is memory. -/
def mapped (addr : Nat) : Bool := decide (addr < 32 ∨ pmemStart ≤ addr ∧ addr < memSize)

def memWriteb (s : Ne2000) (addr val : Word) : Ne2000 :=
  if mapped addr.toNat then
    { s with mem := Function.update s.mem addr.toNat (val.setWidth 8) }
  else s

def memWritew (s : Ne2000) (addr val : Word) : Ne2000 :=
  let a := (addr &&& ~~~1).toNat
  if mapped a then
    { s with mem := blit s.mem a [val.setWidth 8, (val >>> 8).setWidth 8] }
  else s

def memReadb (s : Ne2000) (addr : Word) : Word :=
  if mapped addr.toNat then (s.mem addr.toNat).setWidth 32 else 0xff

def memReadw (s : Ne2000) (addr : Word) : Word :=
  let a := (addr &&& ~~~1).toNat
  if mapped a then (s.mem (a + 1) ++ s.mem a).setWidth 32 else 0xffff

def dmaUpdate (s : Ne2000) (len : Nat) : Ne2000 :=
  let rsar := s.rsar + BitVec.ofNat 32 len
  let s := { s with rsar := if rsar = s.stop then s.start else rsar }
  if s.rcnt.toNat ≤ len then ({ s with rcnt := 0 }.signal 0x40).updateIrq
  else { s with rcnt := s.rcnt - BitVec.ofNat 16 len }

def width (s : Ne2000) : Nat := if s.dcfg.getLsbD 0 then 2 else 1

def asicIoportWrite (s : Ne2000) (val : Word) : Ne2000 :=
  if s.rcnt = 0 then s
  else if s.dcfg.getLsbD 0 then (s.memWritew s.rsar val).dmaUpdate 2
  else (s.memWriteb s.rsar val).dmaUpdate 1

def asicIoportRead (s : Ne2000) : Word × Ne2000 :=
  if s.dcfg.getLsbD 0 then (s.memReadw s.rsar, s.dmaUpdate 2)
  else (s.memReadb s.rsar, s.dmaUpdate 1)

def resetIoportRead (s : Ne2000) : Word × Ne2000 := (0, s.reset)

def init (macaddr : Nat → Byte) : Ne2000 :=
  reset
    { cmd := 0, start := 0, stop := 0, boundary := 0, tsr := 0, tpsr := 0, tcnt := 0, rcnt := 0
      rsar := 0, rsr := 0, rxcr := 0, isr := 0, dcfg := 0, imr := 0, phys := fun _ => 0
      curpag := 0, mult := fun _ => 0, macaddr := macaddr, mem := fun _ => 0, irqLevel := false
      sent := [] }

end Ne2000

end Winspire.Net
