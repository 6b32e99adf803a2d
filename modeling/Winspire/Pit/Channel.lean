import Mathlib.Logic.Function.Basic

/-!
# The interval timer of i8254.c

`get_uticks` is a parameter: the clock stands still while a port is accessed, and
`i8254_update_irq` reads it a second time when it loads the count again.
-/

namespace Winspire.Pit

set_option autoImplicit false

abbrev Byte := BitVec 8
abbrev Ticks := BitVec 32

def rwStateLsb : Byte := 1
def rwStateMsb : Byte := 2
def rwStateWord0 : Byte := 3
def rwStateWord1 : Byte := 4

/-- `irq` is `none` where the source has -1. -/
structure PITChannelState where
  count : Ticks
  latchedCount : BitVec 16
  countLatched : Byte
  statusLatched : Bool
  status : Byte
  readState : Byte
  writeState : Byte
  writeLatch : Byte
  rwMode : Byte
  mode : Nat
  bcd : Bool
  gate : Bool
  countLoadTime : Ticks
  lastIrqCount : Ticks
  irq : Option Nat
  deriving DecidableEq, Repr

structure PITState where
  channels : Fin 3 → PITChannelState

def pitFreq : BitVec 64 := 1193182

/-- Ticks since the count was loaded, in 32 bits. -/
def PITChannelState.ticks (now : Ticks) (s : PITChannelState) : Ticks :=
  ((now - s.countLoadTime).setWidth 64 * pitFreq / 1000000).setWidth 32

def PITChannelState.getCount (now : Ticks) (s : PITChannelState) : Ticks :=
  let d := s.ticks now
  match s.mode with
  | 0 | 1 | 4 | 5 => (s.count - d) &&& 0xffff
  | 3 => s.count - (2 * d) % s.count
  | _ => s.count - d % s.count

def PITChannelState.getOut1 (now : Ticks) (s : PITChannelState) : Bool :=
  let d := s.ticks now
  match s.mode with
  | 1 => d < s.count
  | 2 => d % s.count == 0 && d != 0
  | 3 => d % s.count < (s.count + 1) >>> 1
  | 4 | 5 => d == s.count
  | _ => s.count ≤ d

def PITChannelState.loadCount (now val : Ticks) (s : PITChannelState) : PITChannelState :=
  { s with
    countLoadTime := now
    lastIrqCount := 0
    count := if val = 0 then 0x10000 else val }

def PITChannelState.latchCount (now : Ticks) (s : PITChannelState) : PITChannelState :=
  if s.countLatched = 0 then
    { s with latchedCount := (s.getCount now).setWidth 16, countLatched := s.rwMode }
  else s

def bit (b : Bool) (n : Nat) : Byte := if b then 1 <<< n else 0

def PITChannelState.readBack (now : Ticks) (val : Byte) (s : PITChannelState) :
    PITChannelState :=
  let s := if val &&& 0x20 = 0 then s.latchCount now else s
  if val &&& 0x10 = 0 ∧ ¬ s.statusLatched then
    { s with
      status := bit (s.getOut1 now) 7 ||| (s.rwMode <<< 4) ||| (BitVec.ofNat 8 s.mode <<< 1) |||
        bit s.bcd 0
      statusLatched := true }
  else s

def PITChannelState.control (now : Ticks) (val : Byte) (s : PITChannelState) : PITChannelState :=
  let access := (val >>> 4) &&& 3
  if access = 0 then s.latchCount now
  else
    let mode := ((val >>> 1) &&& 7).toNat
    { s with
      rwMode := access
      readState := access
      writeState := access
      mode := if 5 < mode then mode &&& 3 else mode
      bcd := val &&& 1 != 0 }

def PITChannelState.data (now : Ticks) (val : Byte) (s : PITChannelState) : PITChannelState :=
  if s.writeState = rwStateMsb then s.loadCount now (val.setWidth 32 <<< 8)
  else if s.writeState = rwStateWord0 then
    { s with writeLatch := val, writeState := rwStateWord1 }
  else if s.writeState = rwStateWord1 then
    { s.loadCount now (s.writeLatch.setWidth 32 ||| (val.setWidth 32 <<< 8)) with
      writeState := rwStateWord0 }
  else s.loadCount now (val.setWidth 32)

def PITState.setChannel (pit : PITState) (i : Fin 3) (s : PITChannelState) : PITState :=
  { pit with channels := Function.update pit.channels i s }

/-- `addr` has been masked to two bits; 3 is the control port. -/
def PITState.ioportWrite (now : Ticks) (addr : Fin 4) (val : Byte) (pit : PITState) : PITState :=
  if h : addr.val < 3 then
    let i : Fin 3 := ⟨addr, h⟩
    pit.setChannel i ((pit.channels i).data now val)
  else
    let channel := (val >>> 6).toNat
    if hc : channel < 3 then
      let i : Fin 3 := ⟨channel, hc⟩
      pit.setChannel i ((pit.channels i).control now val)
    else
      { pit with channels := fun i =>
          if val &&& (2 <<< i.val) ≠ 0 then (pit.channels i).readBack now val
          else pit.channels i }

/-- What a read of a data port returns, and the channel after it. -/
def PITChannelState.read (now : Ticks) (s : PITChannelState) : Ticks × PITChannelState :=
  if s.statusLatched then (s.status.setWidth 32, { s with statusLatched := false })
  else if s.countLatched ≠ 0 then
    if s.countLatched = rwStateMsb then
      ((s.latchedCount >>> 8).setWidth 32, { s with countLatched := 0 })
    else if s.countLatched = rwStateWord0 then
      ((s.latchedCount &&& 0xff).setWidth 32, { s with countLatched := rwStateMsb })
    else ((s.latchedCount &&& 0xff).setWidth 32, { s with countLatched := 0 })
  else if s.readState = rwStateMsb then ((s.getCount now >>> 8) &&& 0xff, s)
  else if s.readState = rwStateWord0 then
    (s.getCount now &&& 0xff, { s with readState := rwStateWord1 })
  else if s.readState = rwStateWord1 then
    ((s.getCount now >>> 8) &&& 0xff, { s with readState := rwStateWord0 })
  else (s.getCount now &&& 0xff, s)

/-- A call of `set_irq`. -/
structure IrqCall where
  irq : Nat
  level : Bool
  deriving DecidableEq, Repr

def pulse (irq : Nat) : List IrqCall := [⟨irq, true⟩, ⟨irq, false⟩]

/-- After a pulse in mode 2 or 3; the count is loaded again before the ticks wrap. -/
def PITChannelState.pulsed (uticks again dueCount : Ticks) (s : PITChannelState) :
    PITChannelState :=
  let s := { s with lastIrqCount := dueCount }
  if (0x80000000 : Ticks) < uticks - s.countLoadTime then s.loadCount again s.count else s

/-- `i8254_update_irq` on its channel, at the reading `uticks`; `again` is the second reading. -/
def PITChannelState.updateIrq (uticks again : Ticks) (s : PITChannelState) :
    List IrqCall × PITChannelState :=
  let d := s.ticks uticks
  match s.mode with
  | 2 | 3 =>
    let dueCount := d - d % s.count
    let pending := dueCount - s.lastIrqCount
    if pending < s.count then ([], s)
    else match s.irq with
      | none => ([], s)
      | some irq => (pulse irq, s.pulsed uticks again dueCount)
  | 0 | 1 | 4 | 5 =>
    if s.lastIrqCount = 0 ∧ s.count ≤ d then
      match s.irq with
      | none => ([], s)
      | some irq => (pulse irq, { s with lastIrqCount := s.count })
    else ([], s)
  | _ => ([], s)

def PITState.updateIrq (uticks again : Ticks) (pit : PITState) : List IrqCall × PITState :=
  let (calls, s) := (pit.channels 0).updateIrq uticks again
  (calls, pit.setChannel 0 s)

def PITState.rebase (now : Ticks) (pit : PITState) : PITState :=
  { pit with channels := fun i =>
      { pit.channels i with countLoadTime := now, lastIrqCount := 0 } }

/-- `i8254_init`, with `pit_reset`. -/
def PITState.init (now : Ticks) (irq : Nat) : PITState where
  channels i :=
    { count := 0x10000
      latchedCount := 0
      countLatched := 0
      statusLatched := false
      status := 0
      readState := 0
      writeState := 0
      writeLatch := 0
      rwMode := 0
      mode := 3
      bcd := false
      gate := i != 2
      countLoadTime := now
      lastIrqCount := 0
      irq := if i = 0 then some irq else none }

end Winspire.Pit
