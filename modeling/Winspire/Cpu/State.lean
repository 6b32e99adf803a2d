import Mathlib.Logic.Function.Basic
import Winspire.Lib.Faulting
import Winspire.Cpu.Flags

/-!
# The processor of i386.c

`CPUI386` as the calculator build has it, and its accesses to guest memory. A false return with
an exception set is a fault; a failed assertion or `cpu_abort` stops the program, and so does an
access outside `phys_mem`, which is undefined. FPU state, the cycle counter and the callbacks of
I/O ports are left out.
-/

namespace Winspire.Cpu

open Faulting

set_option autoImplicit false

/-- The segment registers, with `SEG_LDT` and `SEG_TR`. -/
inductive SegReg where
  | es
  | cs
  | ss
  | ds
  | fs
  | gs
  | ldt
  | tr
  deriving DecidableEq, Repr

structure Segment where
  sel : Word
  base : Word
  limit : Word
  flags : Word
  deriving DecidableEq, Repr

structure DescTable where
  base : Word
  limit : Word
  deriving DecidableEq, Repr

/-- The row of `pte_lookup` an entry points to. -/
structure PteClass where
  wp : Bool
  bits : BitVec 2
  deriving DecidableEq, Repr

/-- `ppte` is the index of the page table entry in `phys_mem`. -/
structure TlbEntry where
  lpgno : Word
  xaddr : Word
  pteLookup : PteClass
  ppte : Word
  deriving DecidableEq, Repr

structure DtlbRead where
  lpgno : Word
  xaddr : Word
  cpl : Bool
  deriving DecidableEq, Repr

structure DtlbWrite where
  lpgno : Word
  xaddr : Word
  ppte : Option Word
  dirty : Bool
  cpl : Bool
  deriving DecidableEq, Repr

def tlbSize : Nat := 1024
def dtlbFastSlots : Nat := 1024

/-- `unsigned long` has 32 bits on the calculator. -/
structure IFetch where
  laddr : Word
  xaddr : Word
  paddr : Word
  deriving DecidableEq, Repr

/-- An access of a memory-mapped device: its size, address and, for a write, value. -/
inductive IoEvent where
  | read (w : Width) (addr : Word)
  | write (w : Width) (addr val : Word)
  | writeString (addr : Word) (buf : List Byte)
  deriving DecidableEq, Repr

/-- The callbacks for memory-mapped devices, `none` where the pointer is null. What a read
returns, and whether a string is taken, depends on the accesses before it. -/
structure CpuCb where
  iomemRead : Width → Option (List IoEvent → Word → Word)
  iomemWrite : Width → Bool
  iomemWriteString : Option (List IoEvent → Word → List Byte → Bool)

structure Sysenter where
  cs : Word
  eip : Word
  esp : Word
  deriving DecidableEq, Repr

structure CPUI386 extends LazyFlags where
  gpr : Fin 8 → Word
  ip : Word
  nextIp : Word
  gen : Gen
  cpl : Nat
  code16 : Bool
  spMask : Word
  halt : Bool
  fpu : Bool
  seg : SegReg → Segment
  idt : DescTable
  gdt : DescTable
  cr0 : Word
  cr2 : Word
  cr3 : Word
  dr : Fin 8 → Word
  ifetch : IFetch
  dtlbRead : Nat → DtlbRead
  dtlbWrite : Nat → DtlbWrite
  bulkRepRam : Bool
  bulkRepStos : Bool
  repYield : Bool
  tlb : Nat → TlbEntry
  mem : Nat → Byte
  memSize : Nat
  excno : Nat
  excerr : Word
  intr : Bool
  cb : CpuCb
  io : List IoEvent
  sysenter : Sysenter

def exDE : Nat := 0
def exDB : Nat := 1
def exBP : Nat := 3
def exOF : Nat := 4
def exBR : Nat := 5
def exUD : Nat := 6
def exNM : Nat := 7
def exTS : Nat := 10
def exNP : Nat := 11
def exSS : Nat := 12
def exGP : Nat := 13
def exPF : Nat := 14

/-- `wild` is an index outside `phys_mem`. -/
inductive Stop where
  | aborted
  | wild
  deriving DecidableEq, Repr

abbrev M (α : Type) : Type := Prog CPUI386 Stop α

export Faulting.Prog (get gets modify fault stop onlyIf)

def throwEx (no : Nat) (err : Word) : M Unit := do
  modify fun s => { s with excno := no, excerr := err }
  fault

/-- `THROW0` leaves `excerr` as it is. -/
def throw0 (no : Nat) : M Unit := do
  modify fun s => { s with excno := no }
  fault

theorem registers_ne_zero : (8 : Nat) ≠ 0 := by decide

instance neZero_registers : @NeZero Nat Zero.ofOfNat0 8 := ⟨registers_ne_zero⟩

theorem highByte_lt (i : Fin 8) : i.val - 4 < 8 := Nat.lt_of_le_of_lt (Nat.sub_le _ _) i.isLt

def lreg32 (s : CPUI386) (i : Fin 8) : Word := s.gpr i

def lreg16 (s : CPUI386) (i : Fin 8) : BitVec 16 := (s.gpr i).setWidth 16

def lreg8 (s : CPUI386) (i : Fin 8) : Byte :=
  if 3 < i.val then (s.gpr ⟨i.val - 4, highByte_lt i⟩ >>> 8).setWidth 8 else (s.gpr i).setWidth 8

def CPUI386.setGpr (s : CPUI386) (i : Fin 8) (v : Word) : CPUI386 :=
  { s with gpr := Function.update s.gpr i v }

theorem setGpr_self (s : CPUI386) (i : Fin 8) (v : Word) : (s.setGpr i v).gpr i = v := by
  unfold CPUI386.setGpr
  exact Function.update_self i v s.gpr

def sreg32 (i : Fin 8) (v : Word) : M Unit := modify fun s => s.setGpr i v

def sreg16 (i : Fin 8) (v : Word) : M Unit :=
  modify fun s => s.setGpr i ((s.gpr i &&& ~~~(0xffff : Word)) ||| (v &&& 0xffff))

def sreg8 (i : Fin 8) (v : Word) : M Unit :=
  modify fun s =>
    if 3 < i.val then
      let j : Fin 8 := ⟨i.val - 4, highByte_lt i⟩
      s.setGpr j ((s.gpr j &&& ~~~(0xff00 : Word)) ||| ((v &&& 0xff) <<< 8))
    else s.setGpr i ((s.gpr i &&& ~~~(0xff : Word)) ||| (v &&& 0xff))

def setSp (v mask : Word) : M Unit :=
  modify fun s => s.setGpr 4 ((v &&& mask) ||| (s.gpr 4 &&& ~~~mask))

def CPUI386.setSeg (s : CPUI386) (r : SegReg) (d : Segment) : CPUI386 :=
  { s with seg := Function.update s.seg r d }

def CPUI386.inMem (s : CPUI386) (a : Word) : Prop := a.toNat < s.memSize

instance (s : CPUI386) (a : Word) : Decidable (s.inMem a) := inferInstanceAs (Decidable (_ < _))

def CPUI386.setMem (s : CPUI386) (a : Word) (b : Byte) : CPUI386 :=
  { s with mem := Function.update s.mem a.toNat b }

def CPUI386.byteAt (s : CPUI386) (a : Word) : Byte := s.mem a.toNat

def CPUI386.wordAt (s : CPUI386) (a : Word) : BitVec 16 := s.byteAt (a + 1) ++ s.byteAt a

def CPUI386.dwordAt (s : CPUI386) (a : Word) : Word :=
  s.byteAt (a + 3) ++ s.byteAt (a + 2) ++ s.byteAt (a + 1) ++ s.byteAt a

def pload8 (a : Word) : M Byte := do
  let s ← get
  if s.inMem a then return s.byteAt a else stop .wild

def pload16 (a : Word) : M (BitVec 16) := do
  let s ← get
  if s.inMem a ∧ s.inMem (a + 1) then return s.wordAt a else stop .wild

def pload32 (a : Word) : M Word := do
  let s ← get
  if s.inMem a ∧ s.inMem (a + 1) ∧ s.inMem (a + 2) ∧ s.inMem (a + 3) then return s.dwordAt a
  else stop .wild

def pstore8 (a : Word) (v : Byte) : M Unit := do
  let s ← get
  if s.inMem a then modify fun s => s.setMem a v else stop .wild

def pstore16 (a : Word) (v : BitVec 16) : M Unit := do
  pstore8 a (v.setWidth 8)
  pstore8 (a + 1) ((v >>> 8).setWidth 8)

def pstore32 (a : Word) (v : Word) : M Unit := do
  pstore8 a (v.setWidth 8)
  pstore8 (a + 1) ((v >>> 8).setWidth 8)
  pstore8 (a + 2) ((v >>> 16).setWidth 8)
  pstore8 (a + 3) ((v >>> 24).setWidth 8)

end Winspire.Cpu
