import Winspire.Cpu.Lookup

/-!
# Instruction fetches of i386.c

One page translation is kept across instructions (`ifetch.laddr`, `ifetch.xaddr`), and inside an
instruction a running physical pointer (`ifetch.paddr`, 0 when it is off).
-/

namespace Winspire.Cpu

open Faulting

set_option autoImplicit false

/-- The linear address of the next instruction byte. -/
def CPUI386.codeAddr (s : CPUI386) : Word := (s.seg .cs).base + s.nextIp

/-- `phys_mem_size - 4096` is unsigned in the comparison. -/
def CPUI386.keepsPage (s : CPUI386) (paddr : Word) : Bool :=
  paddr < BitVec.ofNat 32 s.memSize - 4096 && !inIomem (paddr + 16)

def CPUI386.keepPage (s : CPUI386) (laddr paddr : Word) : CPUI386 :=
  { s with ifetch := { s.ifetch with laddr := laddr &&& pageMask, xaddr := paddr ^^^ laddr } }

/-- The part of `peek8` behind its cached page. -/
def peek8Slow : M Byte := do
  let laddr := (← get).codeAddr
  let res ← translate8r .cs (← get).nextIp
  let paddr := mapBiosAlias res.addr1
  let s ← get
  match s.iomemReader .b8 paddr with
  | some read => return (← iomemRead .b8 read paddr).setWidth 8
  | none =>
    if ¬ s.inMem paddr then return 0
    else do
      let val ← pload8 paddr
      onlyIf (s.keepsPage paddr = true) (modify fun s => s.keepPage laddr paddr)
      return val

def peek8 : M Byte := do
  let s ← get
  if s.codeAddr ^^^ s.ifetch.laddr < 4096 then pload8 (s.ifetch.xaddr ^^^ s.codeAddr)
  else peek8Slow

def peek8a : M Byte := do
  let s ← get
  if s.ifetch.paddr ≠ 0 then pload8 s.ifetch.paddr else peek8

/-- `next_ip += n`. -/
def CPUI386.skip (s : CPUI386) (n : Word) : CPUI386 := { s with nextIp := s.nextIp + n }

/-- `ifetch.paddr += n; next_ip += n`. -/
def CPUI386.advance (s : CPUI386) (n : Word) : CPUI386 :=
  { s with ifetch := { s.ifetch with paddr := s.ifetch.paddr + n }, nextIp := s.nextIp + n }

def fetch8 : M Byte := do
  let s ← get
  if s.ifetch.paddr ≠ 0 then
    let val ← pload8 s.ifetch.paddr
    modify fun s => s.advance 1
    return val
  else
    let val ← peek8
    modify fun s => s.skip 1
    return val

def fetch8pf : M Byte := do
  let s ← get
  if s.codeAddr ^^^ s.ifetch.laddr < 4096 - 16 then
    let paddr := s.ifetch.xaddr ^^^ s.codeAddr
    let val ← pload8 paddr
    modify fun s => { s with ifetch := { s.ifetch with paddr := paddr + 1 } }
    modify fun s => s.skip 1
    return val
  else
    modify fun s => { s with ifetch := { s.ifetch with paddr := 0 } }
    let val ← peek8
    modify fun s => s.skip 1
    return val

def fetch16 : M (BitVec 16) := do
  let s ← get
  if s.ifetch.paddr ≠ 0 then
    let val ← pload16 s.ifetch.paddr
    modify fun s => s.advance 2
    return val
  else if s.codeAddr ^^^ s.ifetch.laddr < 4095 then
    let val ← pload16 (s.ifetch.xaddr ^^^ s.codeAddr)
    modify fun s => s.skip 2
    return val
  else
    let val ← load16 (← translate16 1 .cs s.nextIp)
    modify fun s => s.skip 2
    return val

def fetch32 : M Word := do
  let s ← get
  if s.ifetch.paddr ≠ 0 then
    let val ← pload32 s.ifetch.paddr
    modify fun s => s.advance 4
    return val
  else if s.codeAddr ^^^ s.ifetch.laddr < 4093 then
    let val ← pload32 (s.ifetch.xaddr ^^^ s.codeAddr)
    modify fun s => s.skip 4
    return val
  else
    let val ← load32 (← translate32 1 .cs s.nextIp)
    modify fun s => s.skip 4
    return val

/-- The top of the loop of `cpu_exec1`, up to the first byte. -/
def CPUI386.beginInsn (s : CPUI386) : CPUI386 :=
  let nextIp := if s.code16 then s.nextIp &&& 0xffff else s.nextIp
  { s with nextIp := nextIp, ip := nextIp }

end Winspire.Cpu
