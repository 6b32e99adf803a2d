import Winspire.Cpu.Fetch

/-!
# Operands of i386.c

The prefixes of an instruction, its modrm byte and the operands it names.
-/

namespace Winspire.Cpu

open Faulting

set_option autoImplicit false

/-- `curr_seg` is `none` where the source has -1. -/
structure Prefixes where
  opsz16 : Bool
  adsz16 : Bool
  rep : Nat
  currSeg : Option SegReg
  deriving DecidableEq, Repr

/-- `none` is a byte that is no prefix. -/
def Prefixes.take (code16 : Bool) (p : Prefixes) (b1 : Byte) : Option Prefixes :=
  match b1.toNat with
  | 0x26 => some { p with currSeg := some .es }
  | 0x2e => some { p with currSeg := some .cs }
  | 0x36 => some { p with currSeg := some .ss }
  | 0x3e => some { p with currSeg := some .ds }
  | 0x64 => some { p with currSeg := some .fs }
  | 0x65 => some { p with currSeg := some .gs }
  | 0x66 => some { p with opsz16 := !code16 }
  | 0x67 => some { p with adsz16 := !code16 }
  | 0xf3 => some { p with rep := 1 }
  | 0xf2 => some { p with rep := 2 }
  | 0xf0 => some p
  | _ => none

/-- The loop over the prefixes, which does not count them. -/
inductive TakesPrefixes (code16 : Bool) :
    Prefixes → Byte → CPUI386 → Prefixes → Byte → CPUI386 → Prop where
  | done {p b1 s} (h : p.take code16 b1 = none) : TakesPrefixes code16 p b1 s p b1 s
  | next {p p' q b1 b2 b s t u} (hp : p.take code16 b1 = some p') (hf : fetch8 s = .ok b2 t)
      (h : TakesPrefixes code16 p' b2 t q b u) : TakesPrefixes code16 p b1 s q b u

def modField (modrm : Byte) : Nat := (modrm >>> 6).toNat
def regField (modrm : Byte) : Fin 8 := ((modrm >>> 3).setWidth 3).toFin
def rmField (modrm : Byte) : Fin 8 := (modrm.setWidth 3).toFin

def stackSeg (r : Fin 8) (seg : Option SegReg) : Option SegReg :=
  if r = 4 ∨ r = 5 then seg <|> some .ss else seg

def sibBase (mod : Nat) (b : Fin 8) (seg : Option SegReg) : M (Word × Option SegReg) :=
  if b = 5 ∧ mod = 0 then do return (← fetch32, seg)
  else do return (← gets fun s => s.gpr b, stackSeg b seg)

def sibIndex (sib : Byte) : M Word :=
  let i := regField sib
  if i ≠ 4 then gets fun s => s.gpr i <<< (sib >>> 6).toNat else pure 0

def modsib32Base (mod : Nat) (rm : Fin 8) (seg : Option SegReg) : M (Word × Option SegReg) :=
  if rm = 4 then do
    let sib ← fetch8
    let (addr, seg) ← sibBase mod (rmField sib) seg
    let index ← sibIndex sib
    return (addr + index, seg)
  else if rm = 5 ∧ mod = 0 then do return (← fetch32, seg)
  else do return (← gets fun s => s.gpr rm, stackSeg rm seg)

def disp32 : Nat → M Word
  | 1 => do return (← fetch8).signExtend 32
  | 2 => fetch32
  | _ => pure 0

def modsib32 (mod : Nat) (rm : Fin 8) (seg : Option SegReg) : M (Word × SegReg) := do
  let (addr, seg) ← modsib32Base mod rm seg
  return (addr + (← disp32 mod), seg.getD .ds)

def modsib16Base (s : CPUI386) : Fin 8 → Word
  | 0 => s.gpr 3 + s.gpr 6
  | 1 => s.gpr 3 + s.gpr 7
  | 2 => s.gpr 5 + s.gpr 6
  | 3 => s.gpr 5 + s.gpr 7
  | 4 => s.gpr 6
  | 5 => s.gpr 7
  | 6 => s.gpr 5
  | 7 => s.gpr 3

def disp16 : Nat → M Word
  | 1 => do return (← fetch8).signExtend 32
  | 2 => do return (← fetch16).setWidth 32
  | _ => pure 0

def modsib16Addr (mod : Nat) (rm : Fin 8) : M Word :=
  if rm = 6 ∧ mod = 0 then do return (← fetch16).setWidth 32
  else do
    let base ← gets fun s => modsib16Base s rm
    return (base + (← disp16 mod)) &&& 0xffff

def modsib16 (mod : Nat) (rm : Fin 8) (seg : Option SegReg) : M (Word × SegReg) := do
  let addr ← modsib16Addr mod rm
  let stack := rm = 2 ∨ rm = 3 ∨ (mod ≠ 0 ∧ rm = 6)
  return (addr, seg.getD (if stack then .ss else .ds))

def modsib (adsz16 : Bool) (mod : Nat) (rm : Fin 8) (seg : Option SegReg) : M (Word × SegReg) :=
  if adsz16 then modsib16 mod rm seg else modsib32 mod rm seg

def fetchW : Width → M Word
  | .b8 => do return (← fetch8).setWidth 32
  | .b16 => do return (← fetch16).setWidth 32
  | .b32 => fetch32

def lregW (w : Width) (s : CPUI386) (i : Fin 8) : Word :=
  match w with
  | .b8 => (lreg8 s i).setWidth 32
  | .b16 => (lreg16 s i).setWidth 32
  | .b32 => lreg32 s i

/-- `lreg`, `laddr` and `limm` of the instruction macros. -/
inductive RmOperand where
  | reg (i : Fin 8)
  | addr (meml : OptAddr)
  | imm (v : Word)
  deriving DecidableEq, Repr

def RmOperand.load (w : Width) : RmOperand → M Word
  | reg i => gets fun s => lregW w s i
  | addr meml => loadW meml w
  | imm v => pure v

/-- `modsib` and `translate`. -/
def memOperand (w : Width) (rwm : Nat) (p : Prefixes) (modrm : Byte) : M RmOperand := do
  let (addr, seg) ← modsib p.adsz16 (modField modrm) (rmField modrm) p.currSeg
  return .addr (← translateW w rwm seg addr)

def rmOperand (w : Width) (rwm : Nat) (p : Prefixes) (modrm : Byte) : M RmOperand :=
  if modField modrm = 3 then pure (.reg (rmField modrm)) else memOperand w rwm p modrm

end Winspire.Cpu
