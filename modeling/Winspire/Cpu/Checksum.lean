import Winspire.Cpu.Fusion
import Winspire.Cpu.Shifts

/-!
# The checksum loop of the Win2k boot

`win2k_boot_checksum_fast_loop` of i386.c, and the dispatcher for 32-bit code as far as it runs
the twelve instructions the function replaces. Whether `win2k_boot_fast` is set is a parameter;
`cycle` is counted in instructions.
-/

namespace Winspire.Cpu

open Faulting

set_option autoImplicit false

def tried {α : Type} (x : M α) : M (Option α) :=
  Prog.catchFault (do return some (← x)) (pure none)

/-- `cr2`, `excerr` and `excno` as they were in `t`. -/
def restoreException (t : CPUI386) : M Unit :=
  modify fun s => { s with cr2 := t.cr2, excno := t.excno, excerr := t.excerr }

def codeMatchesFrom : List Byte → Word → M Bool
  | [], _ => return true
  | b :: bs, i => do
    match ← tried (translate8r .cs ((← get).ip + i)) with
    | none => return false
    | some code =>
      if (← load8 code) ≠ b then return false
      else codeMatchesFrom bs (i + 1)

def win2kBootCodeMatches (signature : List Byte) : M Bool := do
  let saved ← get
  let found ← codeMatchesFrom signature 0
  onlyIf (found = false) (restoreException saved)
  return found

/-- The loop of `win2k_boot_ram_range`. A round moves on by a byte at least, so `size` rounds are
enough. -/
def ramRangeFrom (seg : SegReg) (addr size : Word) (rwm : Nat) : Nat → Word → M Bool
  | 0, _ => return true
  | n + 1, offset =>
    if offset < size then do
      match ← tried (translate8 rwm seg (addr + offset)) with
      | none => return false
      | some mem =>
        if inIomem mem.addr1 ∨ BitVec.ofNat 32 (← get).memSize ≤ mem.addr1 then return false
        else
          let chunk := 0x1000 - ((addr + offset) &&& 0xfff)
          let chunk := if size - offset < chunk then size - offset else chunk
          ramRangeFrom seg addr size rwm n (offset + chunk)
    else return true

def win2kBootRamRange (seg : SegReg) (addr size : Word) (rwm : Nat) : M Bool :=
  ramRangeFrom seg addr size rwm size.toNat 0

def checksumSignature : List Byte :=
  [0x0f, 0xb7, 0x10, 0x01, 0x55, 0x08, 0x40, 0x8b,
   0x55, 0x08, 0x8b, 0x75, 0x08, 0x81, 0xe2, 0xff,
   0xff, 0x00, 0x00, 0x40, 0xc1, 0xee, 0x10, 0x03,
   0xd6, 0x49, 0x89, 0x55, 0x08, 0x75, 0xe1]

/-- The offsets overlap; they are compared as 64-bit numbers. -/
def offsetsOverlap (source count ebp : Word) : Bool :=
  source.toNat < ebp.toNat + 8 + 4 && ebp.toNat + 8 < source.toNat + (count * 2).toNat

/-- The checks before the first word; `none` goes to `fallback`. -/
def checksumOperands (ebp source count : Word) : M (Option OptAddr) := do
  let s ← get
  if count = 0 ∨ 0x01000000 < count then return none
  else if (s.seg .ds).base = (s.seg .ss).base ∧ offsetsOverlap source count ebp then return none
  else
    match ← tried (translate32 2 .ss (ebp + 8)) with
    | none => return none
    | some accumulator =>
      if ← win2kBootRamRange .ds source (count * 2) 1 then return some accumulator
      else return none

def addWord (accumulator : Word) (word : BitVec 16) : Word × Word :=
  let sum := accumulator + word.setWidth 32
  ((sum &&& (0xffff : Word)) + (sum >>> 16), sum >>> 16)

def sumWords (source : Word) : Nat → Word → Word × Word → M (Word × Word)
  | 0, _, acc => return acc
  | n + 1, i, acc => do
    let word ← (translate16 1 .ds (source + i * 2)).catchFault (stop .aborted)
    let w ← load16 word
    sumWords source n (i + 1) (addWord acc.1 w)

def CPUI386.afterChecksum (s : CPUI386) (source count accumulator high : Word) : CPUI386 :=
  let s := s.setGpr 0 (source + count * 2)
  let s := s.setGpr 1 0
  let s := s.setGpr 2 accumulator
  let s := s.setGpr 6 high
  { s with
    flags := (s.flags &&& ~~~(CF ||| PF ||| AF ||| ZF ||| SF ||| OF)) ||| PF ||| ZF
    cc := { s.cc with mask := 0 }
    nextIp := s.ip + 0x1f }

/-- `none` is 0; otherwise what is added to `cycle`. -/
def win2kBootChecksumFastLoop (bootFast : Bool) : M (Option Word) := do
  let s ← get
  if ¬ bootFast ∨ s.code16 ∨ hasBit s.flags VM ∨ s.cpl ≠ 0 then return none
  else if ← win2kBootCodeMatches checksumSignature then do
    let saved ← get
    let source := lreg32 saved 0
    let count := lreg32 saved 1
    match ← checksumOperands (lreg32 saved 5) source count with
    | none => do
      restoreException saved
      return none
    | some mem => do
      let accumulator ← load32 mem
      let (accumulator, high) ← sumWords source count.toNat 0 (accumulator, 0)
      store32 mem accumulator
      modify fun s => s.afterChecksum source count accumulator high
      return some (count * 12 - 1)
  else return none

/-- Flags of an instruction; a failed assertion ends the program. -/
def withFlags (f : LazyFlags → Option LazyFlags) : M Unit := do
  match f (← get).toLazyFlags with
  | some l => modify fun s => { s with toLazyFlags := l }
  | none => stop .aborted

/-- `sreg32` and `saddr32`; there is no store to an immediate operand. -/
def RmOperand.store32 (v : Word) : RmOperand → M Unit
  | reg i => sreg32 i v
  | addr meml => Cpu.store32 meml v
  | imm _ => pure ()

inductive AluOp where
  | add
  | or
  | and
  | sub
  | xor
  deriving DecidableEq, Repr

def AluOp.flags : AluOp → Word → Word → LazyFlags → LazyFlags
  | add => LazyFlags.add .b32
  | or => LazyFlags.or .b32
  | and => LazyFlags.and .b32
  | sub => LazyFlags.sub .b32
  | xor => LazyFlags.xor .b32

/-- `AOP_helper` and `LOP_helper`. -/
def aluOperands (op : AluOp) (a b : RmOperand) : M Unit := do
  let x ← a.load .b32
  let y ← b.load .b32
  modify fun s => { s with toLazyFlags := op.flags x y s.toLazyFlags }
  a.store32 (← get).cc.dst

def movOperands (a b : RmOperand) : M Unit := do
  a.store32 (← b.load .b32)

/-- `INCDEC_helper` of a register. -/
def incDecReg (f : Word → LazyFlags → Option LazyFlags) (i : Fin 8) : M Unit := do
  let s ← get
  withFlags (f (lreg32 s i))
  sreg32 i (← get).cc.dst

/-- `SHR_helper`: nothing is stored when the count is 0. -/
def shrOperand (a : RmOperand) (b : Word) : M Unit := do
  let x ← a.load .b32
  match LazyFlags.shrHelper .b32 x b (← get).toLazyFlags with
  | none => stop .aborted
  | some (l, dst) =>
    onlyIf (b &&& 0x1f ≠ 0) do
      modify fun s => { s with toLazyFlags := l }
      a.store32 dst

def cond (s : LazyFlags) (b1 : Byte) : Option Bool :=
  match (b1 &&& 0xf).toNat with
  | 0x0 => s.getOF
  | 0x1 => s.getOF.map not
  | 0x2 => s.getCF
  | 0x3 => s.getCF.map not
  | 0x4 => some s.getZF
  | 0x5 => some !s.getZF
  | 0x6 => if s.getZF then some true else s.getCF
  | 0x7 => if s.getZF then some false else s.getCF.map not
  | 0x8 => some s.getSF
  | 0x9 => some !s.getSF
  | 0xa => some s.getPF
  | 0xb => some !s.getPF
  | 0xc => s.getOF.map fun of => s.getSF != of
  | 0xd => s.getOF.map fun of => s.getSF == of
  | 0xe => if s.getZF then some true else s.getOF.map fun of => s.getSF != of
  | _ => if s.getZF then some false else s.getOF.map fun of => s.getSF == of

def jcc8 (b1 : Byte) : M Unit := do
  let imm8 ← fetch8
  match cond (← get).toLazyFlags b1 with
  | none => stop .aborted
  | some c => onlyIf (c = true) (modify fun s => s.skip (imm8.signExtend 32))

/-- The arithmetic of 0x01 to 0x33; `none` is MOV. -/
def aluOf (b1 : Byte) : Option AluOp :=
  match b1.toNat with
  | 0x01 | 0x03 => some .add
  | 0x09 | 0x0b => some .or
  | 0x21 | 0x23 => some .and
  | 0x29 | 0x2b => some .sub
  | 0x31 | 0x33 => some .xor
  | _ => none

/-- ADD, OR, AND, SUB, XOR and MOV between a register and an operand, in either direction. -/
def fastEvGv (b1 : Byte) : M Unit := do
  let _ ← peek8a
  let modrm ← fetch8
  let rwm := if b1.toNat ∈ [0x01, 0x09, 0x21, 0x29, 0x31, 0x89] then 2 else 1
  let e ← rmOperand .b32 rwm noPrefixes modrm
  let g := RmOperand.reg (regField modrm)
  let (a, b) := if b1 &&& 2 = 0 then (e, g) else (g, e)
  match aluOf b1 with
  | some op => aluOperands op a b
  | none => movOperands a b

def group1 : Fin 8 → Option AluOp
  | 0 => some .add
  | 1 => some .or
  | 4 => some .and
  | 5 => some .sub
  | 6 => some .xor
  | _ => none

/-- 0x81 but for ADC, SBB and CMP. -/
def fastEvIv (rest : Byte → M Unit) : M Unit := do
  match group1 (← peekGroup) with
  | none => rest 0x81
  | some op =>
    let modrm ← fetch8
    if modField modrm = 3 then aluOperands op (.reg (rmField modrm)) (.imm (← fetch32))
    else
      let (addr, seg) ← modsib32 (modField modrm) (rmField modrm) none
      let imm32 ← fetch32
      let meml ← translate32 2 seg addr
      aluOperands op (.addr meml) (.imm imm32)

/-- SHR of 0xc1, by the table. -/
def shiftEvIb (rest : Byte → M Unit) : M Unit := do
  if (← peekGroup) = 5 then
    let modrm ← fetch8
    if modField modrm = 3 then shrOperand (.reg (rmField modrm)) (← fetchImm8 .b32)
    else
      let (addr, seg) ← modsib32 (modField modrm) (rmField modrm) none
      let imm32 ← fetchImm8 .b32
      let meml ← translate32 3 seg addr
      shrOperand (.addr meml) imm32
  else rest 0xc1

/-- `__GE_helper16` and `MOVZXdw`. -/
def movzxGvEw : M Unit := do
  let modrm ← fetch8
  let opr ← (← rmOperand .b16 1 noPrefixes modrm).load .b16
  sreg32 (regField modrm) opr

/-- 0x0f: the fast dispatcher takes the near jumps, the table the others. -/
def twoByte (rest : Byte → M Unit) : M Unit := do
  let op2 ← peek8a
  if op2 &&& 0xf0 = 0x80 then rest 0x0f
  else
    let op2 ← fetch8
    if op2 = 0xb7 then movzxGvEw else rest op2

/-- The rest of an instruction without prefixes, behind its first byte. `rest` is what happens to
the instructions that are not spelled out. -/
def execute (rest : Byte → M Unit) (b1 : Byte) : M Unit := do
  let s ← get
  if s.code16 ∨ hasBit s.flags VM then rest b1
  else if b1 &&& 0xf8 = 0x40 then incDecReg (LazyFlags.inc .b32) (rmField b1)
  else if b1 &&& 0xf8 = 0x48 then incDecReg (LazyFlags.dec .b32) (rmField b1)
  else if b1 &&& 0xf0 = 0x70 then jcc8 b1
  else match b1.toNat with
    | 0x0f => twoByte rest
    | 0x01 | 0x03 | 0x09 | 0x0b | 0x21 | 0x23 | 0x29 | 0x2b | 0x31 | 0x33 | 0x89 | 0x8b =>
      fastEvGv b1
    | 0x81 => fastEvIv rest
    | 0xc1 => shiftEvIb rest
    | _ => rest b1

def insn (rest : Byte → M Unit) : M Unit := do
  modify CPUI386.beginInsn
  let b1 ← fetch8pf
  execute rest b1

/-- Instructions one after the other, until EIP is `exit` for the first time. -/
inductive RunsTo (rest : Byte → M Unit) (exit : Word) : CPUI386 → Nat → CPUI386 → Prop where
  | here {s : CPUI386} (h : s.nextIp = exit) : RunsTo rest exit s 0 s
  | next {s t u : CPUI386} {n : Nat} (hs : s.nextIp ≠ exit) (h : insn rest s = .ok () t)
      (hr : RunsTo rest exit t n u) : RunsTo rest exit s (n + 1) u

end Winspire.Cpu
