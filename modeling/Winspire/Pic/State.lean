import Mathlib.Data.BitVec
import Mathlib.Tactic.Cases

/-!
# The two interrupt controllers

`i8259.c`: the master and the slave, the request to the processor, and the four ports.
-/

namespace Winspire.Pic

set_option autoImplicit false

/-- `PicState`; the fields the source only tests against zero are booleans. -/
structure PicState where
  lastIrr : BitVec 8
  irr : BitVec 8
  imr : BitVec 8
  isr : BitVec 8
  priorityAdd : Nat
  irqBase : BitVec 8
  readRegSelect : Bool
  poll : Bool
  specialMask : Bool
  initState : Nat
  autoEoi : Bool
  rotateOnAutoEoi : Bool
  specialFullyNestedMode : Bool
  init4 : Bool
  singleMode : Bool
  deriving DecidableEq, Repr

def picReset : PicState :=
  ⟨0, 0, 0, 0, 0, 0, false, false, false, 0, false, false, false, false, false⟩

/-- `pics[0]` and `pics[1]`. -/
inductive Chip where
  | master
  | slave
  deriving DecidableEq, Repr

/-- `PicState2`, with the `intr` flag its `raise_fn` sets. -/
structure PicState2 where
  master : PicState
  slave : PicState
  intr : Bool
  deriving DecidableEq, Repr

namespace PicState2

def pic (s : PicState2) : Chip → PicState
  | .master => s.master
  | .slave => s.slave

def setPic (s : PicState2) (p : PicState) : Chip → PicState2
  | .master => { s with master := p }
  | .slave => { s with slave := p }

end PicState2

/-- `1 << irq` in a register. -/
def bit (irq : Nat) : BitVec 8 := 1#8 <<< irq

/-- `i8259_init` and a processor that was not interrupted. -/
def i8259Init : PicState2 := ⟨picReset, picReset, false⟩

def picSetIrq1 (s : PicState) (irq : Nat) (level : Bool) : PicState :=
  if level then
    { s with
      irr := if s.lastIrr &&& bit irq = 0 then s.irr ||| bit irq else s.irr
      lastIrr := s.lastIrr ||| bit irq }
  else { s with lastIrr := s.lastIrr &&& ~~~ bit irq }

/-- The `while` loop of `get_priority`; eight turns see every line. -/
def findPriority (add : Nat) (mask : BitVec 8) : Nat → Nat → Nat
  | 0, priority => priority
  | fuel + 1, priority =>
    if mask.getLsbD ((priority + add) % 8) = false then findPriority add mask fuel (priority + 1)
    else priority

def getPriority (s : PicState) (mask : BitVec 8) : Nat :=
  if mask = 0 then 8 else findPriority s.priorityAdd mask 8 0

/-- What `pic_get_irq` takes to be in service. -/
def inService (chip : Chip) (s : PicState) : BitVec 8 :=
  let mask := if s.specialMask then s.isr &&& ~~~ s.imr else s.isr
  if s.specialFullyNestedMode ∧ chip = .master then mask &&& ~~~ bit 2 else mask

def picGetIrq (chip : Chip) (s : PicState) : Option Nat :=
  let priority := getPriority s (s.irr &&& ~~~ s.imr)
  if priority = 8 then none
  else if priority < getPriority s (inService chip s) then some ((priority + s.priorityAdd) % 8)
  else none

/-- The pulse `pic_update_irq` gives line 2 of the master. -/
def cascade (s : PicState2) : PicState2 :=
  if (picGetIrq .slave s.slave).isSome then
    { s with master := picSetIrq1 (picSetIrq1 s.master 2 true) 2 false }
  else s

def picUpdateIrq (s : PicState2) : PicState2 :=
  let s := cascade s
  if (picGetIrq .master s.master).isSome then { s with intr := true } else s

/-- `irq >> 3` and `irq & 7`. -/
def i8259SetIrq (irq : Fin 16) (level : Bool) (s : PicState2) : PicState2 :=
  let chip := if irq.val / 8 = 0 then Chip.master else Chip.slave
  picUpdateIrq (s.setPic (picSetIrq1 (s.pic chip) (irq.val % 8) level) chip)

def picIntack (s : PicState) (irq : Nat) : PicState :=
  let s :=
    if s.autoEoi then
      if s.rotateOnAutoEoi then { s with priorityAdd := (irq + 1) % 8 } else s
    else { s with isr := s.isr ||| bit irq }
  { s with irr := s.irr &&& ~~~ bit irq }

def i8259ReadIrq (s : PicState2) : Nat × PicState2 :=
  match picGetIrq .master s.master with
  | some irq =>
    let s := { s with master := picIntack s.master irq }
    if irq = 2 then
      match picGetIrq .slave s.slave with
      | some irq2 =>
        let s := { s with slave := picIntack s.slave irq2 }
        (s.slave.irqBase.toNat + irq2, picUpdateIrq s)
      | none => (s.slave.irqBase.toNat + 7, picUpdateIrq s)
    else (s.master.irqBase.toNat + irq, picUpdateIrq s)
  | none => (s.master.irqBase.toNat + 7, picUpdateIrq s)

/-- `cpui386_step` takes the interrupt. -/
def acknowledge (s : PicState2) : Nat × PicState2 := i8259ReadIrq { s with intr := false }

def writeOcw2 (chip : Chip) (val : BitVec 32) (s : PicState2) : PicState2 :=
  let p := s.pic chip
  match (val >>> 5).toNat with
  | 0 => s.setPic { p with rotateOnAutoEoi := false } chip
  | 4 => s.setPic { p with rotateOnAutoEoi := true } chip
  | 1 =>
    let priority := getPriority p p.isr
    if priority ≠ 8 then
      let irq := (priority + p.priorityAdd) % 8
      picUpdateIrq (s.setPic { p with isr := p.isr &&& ~~~ bit irq } chip)
    else s
  | 5 =>
    let priority := getPriority p p.isr
    if priority ≠ 8 then
      let irq := (priority + p.priorityAdd) % 8
      picUpdateIrq
        (s.setPic { p with isr := p.isr &&& ~~~ bit irq, priorityAdd := (irq + 1) % 8 } chip)
    else s
  | 3 =>
    let irq := (val &&& 7).toNat
    picUpdateIrq (s.setPic { p with isr := p.isr &&& ~~~ bit irq } chip)
  | 6 => picUpdateIrq (s.setPic { p with priorityAdd := (val + 1 &&& 7).toNat } chip)
  | 7 =>
    let irq := (val &&& 7).toNat
    picUpdateIrq
      (s.setPic { p with isr := p.isr &&& ~~~ bit irq, priorityAdd := (irq + 1) % 8 } chip)
  | _ => s

/-- OCW3: poll, register select and special mask mode. -/
def writeOcw3 (val : BitVec 32) (p : PicState) : PicState :=
  { p with
    poll := if val.getLsbD 2 then true else p.poll
    readRegSelect := if val.getLsbD 1 then val.getLsbD 0 else p.readRegSelect
    specialMask := if val.getLsbD 6 then val.getLsbD 5 else p.specialMask }

def writeIcw1 (val : BitVec 32) : PicState :=
  { picReset with initState := 1, init4 := val.getLsbD 0, singleMode := val.getLsbD 1 }

/-- ICW2 to ICW4, by `init_state`. -/
def writeIcw (val : BitVec 32) (p : PicState) : PicState :=
  match p.initState with
  | 1 =>
    { p with
      irqBase := (val &&& 0xf8).setWidth 8
      initState := if p.singleMode then if p.init4 then 3 else 0 else 2 }
  | 2 => { p with initState := if p.init4 then 3 else 0 }
  | 3 =>
    { p with
      specialFullyNestedMode := val.getLsbD 4
      autoEoi := val.getLsbD 1
      initState := 0 }
  | _ => p

/-- `none` is the `abort` of `hw_error`. -/
def picIoportWrite (chip : Chip) (addr val : BitVec 32) (s : PicState2) : Option PicState2 :=
  let p := s.pic chip
  if addr &&& 1 = 0 then
    if val.getLsbD 4 then
      if val.getLsbD 3 then none else some (s.setPic (writeIcw1 val) chip)
    else if val.getLsbD 3 then some (s.setPic (writeOcw3 val p) chip)
    else some (writeOcw2 chip val s)
  else if p.initState = 0 then some (picUpdateIrq (s.setPic { p with imr := val.setWidth 8 } chip))
  else some (s.setPic (writeIcw val p) chip)

def picPollRead (chip : Chip) (addr : BitVec 32) (s : PicState2) : Nat × PicState2 :=
  match picGetIrq chip (s.pic chip) with
  | some ret =>
    let s :=
      if addr >>> 7 ≠ 0 then
        { s with
          master :=
            { s.master with
              isr := s.master.isr &&& ~~~ bit 2
              irr := s.master.irr &&& ~~~ bit 2 } }
      else s
    let p := s.pic chip
    let s := s.setPic { p with irr := p.irr &&& ~~~ bit ret, isr := p.isr &&& ~~~ bit ret } chip
    (ret, if addr >>> 7 ≠ 0 ∨ ret ≠ 2 then picUpdateIrq s else s)
  | none => (7, picUpdateIrq s)

def picIoportRead (chip : Chip) (addr : BitVec 32) (s : PicState2) : Nat × PicState2 :=
  let p := s.pic chip
  if p.poll then
    let (ret, s) := picPollRead chip addr s
    (ret, s.setPic { s.pic chip with poll := false } chip)
  else if addr &&& 1 = 0 then
    if p.readRegSelect then (p.isr.toNat, s) else (p.irr.toNat, s)
  else (p.imr.toNat, s)

/-- `addr == 0x20 || addr == 0x21`. -/
def chipAt (addr : BitVec 32) : Chip := if addr = 0x20 ∨ addr = 0x21 then .master else .slave

def i8259IoportRead (addr : BitVec 32) (s : PicState2) : Nat × PicState2 :=
  picIoportRead (chipAt addr) addr s

def i8259IoportWrite (addr val : BitVec 32) (s : PicState2) : Option PicState2 :=
  picIoportWrite (chipAt addr) addr val s

end Winspire.Pic
