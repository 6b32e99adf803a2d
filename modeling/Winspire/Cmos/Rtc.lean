import Mathlib.Data.List.Basic
import Mathlib.Logic.Function.Basic
import Winspire.Lib.Boundaries

/-!
# The clock chip of misc.c

`CMOS` on the calculator, where the RTC counts 32768 ticks a second on `get_uticks`. The time of
the host is a parameter.
-/

namespace Winspire.Cmos

open Boundaries

set_option autoImplicit false

abbrev Byte := BitVec 8
abbrev Ticks := BitVec 32

/-- `struct tm`. -/
structure HostTime where
  sec : Nat
  min : Nat
  hour : Nat
  wday : Nat
  mday : Nat
  mon : Nat
  year : Nat
  deriving DecidableEq, Repr

structure CMOS where
  data : Fin 128 → Byte
  index : Fin 128
  irq : Nat
  irqTimeout : Ticks
  irqPeriod : Ticks

/-- A call of `set_irq`. -/
structure IrqCall where
  irq : Nat
  level : Bool
  deriving DecidableEq, Repr

def bin2bcd (a : Nat) : Byte := BitVec.ofNat 8 (((a / 10) <<< 4) ||| (a % 10))

def rtcRegA : Fin 128 := 10
def rtcRegB : Fin 128 := 11
def rtcRegC : Fin 128 := 12
def rtcRegD : Fin 128 := 13
def regAUip : Byte := 0x80
def regBPie : Byte := 0x40

def CMOS.setData (s : CMOS) (i : Fin 128) (b : Byte) : CMOS :=
  { s with data := Function.update s.data i b }

def CMOS.updateTime (tm : HostTime) (s : CMOS) : CMOS :=
  let s := s.setData 0 (bin2bcd tm.sec)
  let s := s.setData 2 (bin2bcd tm.min)
  let s := s.setData 4 (bin2bcd tm.hour)
  let s := s.setData 6 (bin2bcd tm.wday)
  let s := s.setData 7 (bin2bcd tm.mday)
  let s := s.setData 8 (bin2bcd (tm.mon + 1))
  let s := s.setData 9 (bin2bcd (tm.year % 100))
  s.setData 0x32 (bin2bcd (tm.year / 100 + 19))

/-- The bytes of `mem_size` in `cmos_init`. -/
def CMOS.setMemSize (memSize : Nat) (s : CMOS) : CMOS :=
  if 1024 * 1024 ≤ memSize then
    if 64 * 1024 * 1024 ≤ memSize then
      let memSize := memSize - 16 * 1024 * 1024
      (s.setData 0x35 (BitVec.ofNat 8 (memSize >>> 24))).setData 0x34
        (BitVec.ofNat 8 (memSize >>> 16))
    else
      let memSize := memSize - 1024 * 1024
      (s.setData 0x31 (BitVec.ofNat 8 (memSize >>> 18))).setData 0x30
        (BitVec.ofNat 8 (memSize >>> 10))
  else s

def CMOS.init (memSize irq : Nat) (tm : HostTime) : CMOS :=
  let s : CMOS := ⟨fun _ => 0, 0, irq, 0, 0⟩
  let s := s.updateTime tm
  let s := s.setData rtcRegA 0x26
  let s := s.setData rtcRegB 0x02
  let s := s.setData rtcRegC 0
  let s := s.setData rtcRegD 0x80
  s.setMemSize memSize

def getTimer (uticks : Ticks) : Ticks := (uticks.setWidth 64 * 32768 / 1000000).setWidth 32

/-- `s->data[RTC_REG_B] & REG_B_PIE`. -/
def CMOS.enabled (s : CMOS) : Bool := s.data rtcRegB &&& regBPie != 0

def CMOS.periodCode (s : CMOS) : Nat := (s.data rtcRegA &&& 0x0f).toNat

/-- `irq_period` for a code. -/
def periodBits (code : Nat) : Nat := (if code ≤ 2 then code + 7 else code) - 1

def nextTimeout (now period : Ticks) : Ticks := (now + period) &&& ~~~(period - 1)

def CMOS.updateTimer (uticks : Ticks) (s : CMOS) : CMOS :=
  if s.enabled ∧ s.periodCode ≠ 0 then
    let period := (1 : Ticks) <<< periodBits s.periodCode
    { s with irqPeriod := period, irqTimeout := nextTimeout (getTimer uticks) period }
  else s

def CMOS.updateIrq (uticks : Ticks) (s : CMOS) : List IrqCall × CMOS :=
  if s.enabled then
    let now := getTimer uticks
    let d := now - s.irqTimeout
    if 0 ≤ d.toInt then
      ([⟨s.irq, true⟩, ⟨s.irq, false⟩],
        { s.setData rtcRegC (s.data rtcRegC ||| 0xc0) with
          irqTimeout := nextTimeout now s.irqPeriod })
    else ([], s)
  else ([], s)

def CMOS.ioportRead (index : Bool) (tm : HostTime) (s : CMOS) : Byte × CMOS :=
  if index then (0xff, s)
  else
    let s := s.updateTime tm
    (s.data s.index, s)

/-- Port 0x70 takes the index, 0x71 the data. -/
def CMOS.ioportWrite (uticks : Ticks) (index : Bool) (val : Byte) (s : CMOS) : CMOS :=
  if index then { s with index := Fin.ofNat 128 (val &&& 0x7f).toNat }
  else if s.index = rtcRegA then
    (s.setData rtcRegA ((val &&& ~~~regAUip) ||| (s.data rtcRegA &&& regAUip))).updateTimer uticks
  else if s.index = rtcRegB then (s.setData rtcRegB val).updateTimer uticks
  else s.setData s.index val

end Winspire.Cmos
