import Winspire.Cpu.Transfer

/-!
# System instructions of i386.c

The instructions that load segment registers, control registers, descriptor tables and the flags
that take privilege, after their operands are decoded.
-/

namespace Winspire.Cpu

open Faulting

set_option autoImplicit false

/-- `Ew`, read: a register or a memory operand. -/
inductive Operand where
  | reg (i : Fin 8)
  | mem (seg : SegReg) (addr : Word)
  deriving DecidableEq, Repr

inductive Located where
  | reg (i : Fin 8)
  | mem (m : OptAddr)
  deriving DecidableEq, Repr

def Operand.locate : Operand → M Located
  | .reg i => pure (.reg i)
  | .mem seg addr => do return .mem (← translate16 1 seg addr)

/-- Only the low bits of a register are used, for either operand size. -/
def Located.load : Located → M Word
  | .reg i => do return lreg32 (← get) i
  | .mem m => do return (← load16 m).setWidth 32

/-- `Ap` and `Ep`. -/
inductive FarPtr where
  | imm (off sel : Word)
  | mem (seg : SegReg) (addr : Word)
  deriving DecidableEq, Repr

def FarPtr.load (opsz16 : Bool) : FarPtr → M (Word × Word)
  | .imm off sel => pure (off, sel)
  | .mem seg addr => do
    let w := if opsz16 then Width.b16 else Width.b32
    let moff ← translateW w 1 seg addr
    let mseg ← translate16 1 seg (addr + w.size)
    let off ← loadW moff w
    return (off, (← load16 mseg).setWidth 32)

inductive SysInsn where
  | movSeg (a : SegReg) (src : Operand)
  | popSeg (opsz16 : Bool) (seg : SegReg)
  | lseg (opsz16 : Bool) (seg : SegReg) (reg : Fin 8) (currSeg : SegReg) (addr : Word)
  | jmpFar (opsz16 : Bool) (ptr : FarPtr)
  | callFar (opsz16 : Bool) (ptr : FarPtr)
  | retFar (opsz16 : Bool) (n : Word)
  | iret (opsz16 : Bool)
  | int (no : Byte)
  | popf (opsz16 : Bool)
  | cli
  | sti
  | lgdt (opsz16 : Bool) (currSeg : SegReg) (addr : Word)
  | lidt (opsz16 : Bool) (currSeg : SegReg) (addr : Word)
  | lldt (src : Operand)
  | ltr (src : Operand)
  | movtc (reg rm : Fin 8)
  | movtd (reg rm : Fin 8)
  | lmsw (src : Operand)
  | clts
  | wrmsr
  | sysenter
  | sysexit
  deriving DecidableEq, Repr

/-- `pmcall` and `pmret` take over from real and V86 mode. -/
def CPUI386.inProtected (s : CPUI386) : Prop := hasBit s.cr0 1 = true ∧ hasBit s.flags VM = false

instance (s : CPUI386) : Decidable s.inProtected := inferInstanceAs (Decidable (_ ∧ _))

def opWidth (opsz16 : Bool) : Width := if opsz16 then .b16 else .b32

def stackSlot (w : Width) (rwm : Nat) (addr : Word) : M OptAddr := do
  translateW w rwm .ss (addr &&& (← get).spMask)

def movSeg (a : SegReg) (src : Operand) : M Unit := do
  let l ← src.locate
  onlyIf (a = .cs) (throw0 exUD)
  let v ← l.load
  setSeg a v

/-- `POPSeg`; the slot has 16 bits for either operand size. -/
def popSeg (opsz16 : Bool) (seg : SegReg) : M Unit := do
  let sp := lreg32 (← get) 4
  let spMask := (← get).spMask
  let meml ← stackSlot .b16 1 sp
  let v ← loadW meml .b16
  setSeg seg v
  setSp (sp + (opWidth opsz16).size) spMask

def lseg (opsz16 : Bool) (seg : SegReg) (reg : Fin 8) (currSeg : SegReg) (addr : Word) : M Unit := do
  let w := opWidth opsz16
  let meml1 ← translateW w 1 currSeg addr
  let meml2 ← translate16 1 currSeg (addr + w.size)
  let r ← loadW meml1 w
  let v ← load16 meml2
  setSeg seg (v.setWidth 32)
  if opsz16 then sreg16 reg r else sreg32 reg r

def jmpFar (opsz16 : Bool) (ptr : FarPtr) : M Unit := do
  let p ← ptr.load opsz16
  let s ← get
  if s.inProtected then pmcall opsz16 p.1 p.2 true
  else
    setSeg .cs p.2
    setNextIp p.1

def callFar (opsz16 : Bool) (ptr : FarPtr) : M Unit := do
  let p ← ptr.load opsz16
  let s ← get
  if s.inProtected then pmcall opsz16 p.1 p.2 false
  else
    let w := opWidth opsz16
    let sp := lreg32 s 4
    let meml1 ← stackSlot w 2 (sp - w.size)
    let meml2 ← stackSlot w 2 (sp - 2 * w.size)
    setSp (sp - 2 * w.size) s.spMask
    storeSlots w [meml1, meml2] [(s.seg .cs).sel, s.nextIp]
    setSeg .cs p.2
    setNextIp p.1

/-- `RETFARw`, and `RETFAR` for `n = 0`. -/
def retFar (opsz16 : Bool) (n : Word) : M Unit := do
  let s ← get
  if s.inProtected then pmret opsz16 n false
  else
    let w := opWidth opsz16
    let sp := lreg32 s 4
    let meml1 ← stackSlot w 1 sp
    let newip ← loadW meml1 w
    let meml2 ← stackSlot w 1 (sp + w.size)
    let newcs ← loadW meml2 w
    setSeg .cs newcs
    setSp (sp + 2 * w.size + n) s.spMask
    setNextIp newip

/-- The flags IRET loads in real and V86 mode; V86 mode keeps IOPL. -/
def CPUI386.iretRealFlags (s : CPUI386) (image : Word) : Word :=
  let flags :=
    if hasBit s.flags VM then (s.flags &&& (0xffff0000 ||| IOPL)) ||| (image &&& ~~~IOPL)
    else (s.flags &&& 0xffff0000) ||| image
  (flags &&& s.eflagsMask) ||| 0x2

def iretReal (opsz16 : Bool) : M Unit := do
  let s ← get
  onlyIf (¬ opsz16) (stop .aborted)
  let sp := lreg32 s 4
  let meml1 ← stackSlot .b16 1 sp
  let newip ← loadW meml1 .b16
  let meml2 ← stackSlot .b16 1 (sp + 2)
  let newcs ← loadW meml2 .b16
  let meml3 ← stackSlot .b16 1 (sp + 4)
  let oldflags := s.flags
  let image ← loadW meml3 .b16
  setFlags fun _ => s.iretRealFlags image
  (setSeg .cs newcs).catchFault do
    setFlags fun _ => oldflags
    fault
  dropMask
  setSp (sp + 6) s.spMask
  setNextIp newip

def iret (opsz16 : Bool) : M Unit := do
  let s ← get
  if hasBit s.cr0 1 ∧ (¬ hasBit s.flags VM ∨ s.toLazyFlags.getIOPL < 3) then pmret opsz16 0 true
  else iretReal opsz16

def int (no : Byte) : M Unit := do
  let s ← get
  onlyIf (hasBit s.flags VM ∧ s.toLazyFlags.getIOPL < 3) (throwEx exGP 0)
  let oldip := s.ip
  modify fun s => { s with ip := s.nextIp }
  (callIsr no false 0).catchFault do
    modify fun s => { s with ip := oldip }
    fault

/-- `POPF`; `LazyFlags.popf` is what it does to the flags. -/
def popf (opsz16 : Bool) : M Unit := do
  let s ← get
  onlyIf s.toLazyFlags.flagsTrap (throwEx exGP 0)
  let w := opWidth opsz16
  let sp := lreg32 s 4
  let meml ← stackSlot w 1 sp
  setSp (sp + w.size) s.spMask
  let image ← loadW meml w
  modify fun s => { s with
    toLazyFlags := s.toLazyFlags.popf s.gen opsz16 (hasBit s.cr0 1) s.cpl image }

/-- `CLI` and `STI`. -/
def setIF (on : Bool) : M Unit := do
  let s ← get
  onlyIf (s.toLazyFlags.getIOPL < s.cpl) (throwEx exGP 0)
  setFlags fun f => if on then f ||| IF else f &&& ~~~IF

/-- `LXXX`, with the register it is for. -/
def loadTable (opsz16 : Bool) (currSeg : SegReg) (addr : Word)
    (set : CPUI386 → DescTable → CPUI386) : M Unit := do
  let s ← get
  onlyIf (s.cpl ≠ 0) (throwEx exGP 0)
  let meml1 ← translate16 1 currSeg addr
  let meml2 ← translate32 1 currSeg (addr + 2)
  let limit ← load16 meml1
  let base ← load32 meml2
  modify fun s => set s ⟨if opsz16 then base &&& 0xffffff else base, limit.setWidth 32⟩

/-- `LLDT` and `LTR`. -/
def loadSystemSeg (seg : SegReg) (src : Operand) : M Unit := do
  let l ← src.locate
  onlyIf ((← get).cpl ≠ 0) (throwEx exGP 0)
  let v ← l.load
  setSeg seg v

def movtc (reg rm : Fin 8) : M Unit := do
  let s ← get
  onlyIf (s.cpl ≠ 0) (throwEx exGP 0)
  let v := lreg32 s rm
  match reg.val with
  | 0 => modify fun s => s.movCr0 v
  | 2 => modify fun s => { s with cr2 := v }
  | 3 => modify fun s => CPUI386.tlbClear { s with cr3 := v }
  | 4 => pure ()
  | _ => throw0 exUD

def movtd (reg rm : Fin 8) : M Unit :=
  modify fun s => { s with dr := Function.update s.dr reg (lreg32 s rm) }

def lmsw (src : Operand) : M Unit := do
  let l ← src.locate
  onlyIf ((← get).cpl ≠ 0) (throwEx exGP 0)
  let v ← l.load
  modify fun s => { s with cr0 := (s.cr0 &&& (~~~0xf ||| 1)) ||| (v &&& 0xf) }

def clts : M Unit := modify fun s => { s with cr0 := s.cr0 &&& ~~~8 }

def wrmsr : M Unit := do
  let s ← get
  onlyIf (s.cpl ≠ 0) (throwEx exGP 0)
  let v := s.gpr 0
  if s.gpr 1 = 0x174 then modify fun s => { s with sysenter := { s.sysenter with cs := v } }
  else if s.gpr 1 = 0x176 then modify fun s => { s with sysenter := { s.sysenter with eip := v } }
  else if s.gpr 1 = 0x175 then modify fun s => { s with sysenter := { s.sysenter with esp := v } }
  else throwEx exGP 0

def SysInsn.exec : SysInsn → M Unit
  | .movSeg a src => Cpu.movSeg a src
  | .popSeg opsz16 seg => Cpu.popSeg opsz16 seg
  | .lseg opsz16 seg reg currSeg addr => Cpu.lseg opsz16 seg reg currSeg addr
  | .jmpFar opsz16 ptr => Cpu.jmpFar opsz16 ptr
  | .callFar opsz16 ptr => Cpu.callFar opsz16 ptr
  | .retFar opsz16 n => Cpu.retFar opsz16 n
  | .iret opsz16 => Cpu.iret opsz16
  | .int no => Cpu.int no
  | .popf opsz16 => Cpu.popf opsz16
  | .cli => setIF false
  | .sti => setIF true
  | .lgdt opsz16 currSeg addr => loadTable opsz16 currSeg addr fun s t => { s with gdt := t }
  | .lidt opsz16 currSeg addr => loadTable opsz16 currSeg addr fun s t => { s with idt := t }
  | .lldt src => loadSystemSeg .ldt src
  | .ltr src => loadSystemSeg .tr src
  | .movtc reg rm => Cpu.movtc reg rm
  | .movtd reg rm => Cpu.movtd reg rm
  | .lmsw src => Cpu.lmsw src
  | .clts => Cpu.clts
  | .wrmsr => Cpu.wrmsr
  | .sysenter => Cpu.sysenter
  | .sysexit => Cpu.sysexit

def CPUI386.resetPm (s : CPUI386) (startAddr : Word) : CPUI386 :=
  let s := s.reset
  let flat : Segment := { sel := 0x10, base := 0, limit := 0xffffffff, flags := segBig }
  { s with
    cr0 := 1
    nextIp := startAddr
    cpl := 0
    code16 := false
    spMask := 0xffffffff
    seg := fun r => match r with
      | .cs => { flat with sel := 0x8 }
      | .ss | .ds | .es => flat
      | r => s.seg r }

end Winspire.Cpu
