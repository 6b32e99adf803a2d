import Winspire.Lib.Pages
import Winspire.Cpu.Operands

/-!
# CMP or TEST with the jump behind it

`try_jcc8` looks at the bytes behind a CMP or TEST and takes a JZ or JNZ it finds there.
-/

namespace Winspire.Cpu

open Faulting Pages

set_option autoImplicit false

def tryJcc8 : M Unit := do
  let s ← get
  if s.ifetch.paddr ≠ 0 then
    let op ← pload8 s.ifetch.paddr
    if op &&& ~~~1 = 0x74 then
      if (s.cc.dst == 0) ^^ hasBit (op.setWidth 32) 1 then
        let d ← pload8 (s.ifetch.paddr + 1)
        modify fun s => s.skip (d.signExtend 32 + 2)

inductive CompareOp where
  | cmp
  | test
  deriving DecidableEq, Repr

def CompareOp.flags : CompareOp → Width → Word → Word → LazyFlags → LazyFlags
  | cmp, w, a, b => LazyFlags.cmp w a b
  | test, w, a, b => LazyFlags.test w a b

/-- `CMP_helper` and `TEST_helper`, up to the call of `try_jcc8`. -/
def compareOperands (op : CompareOp) (w : Width) (a b : RmOperand) : M Unit := do
  let x ← a.load w
  let y ← b.load w
  modify fun s => { s with toLazyFlags := op.flags w x y s.toLazyFlags }

/-- `EG_helper`. -/
def compareEG (op : CompareOp) (w : Width) (p : Prefixes) : M Unit := do
  let modrm ← fetch8
  compareOperands op w (← rmOperand w 1 p modrm) (.reg (regField modrm))

/-- `GE_helper`: the second operand is loaded first. -/
def compareGE (op : CompareOp) (w : Width) (p : Prefixes) : M Unit := do
  let modrm ← fetch8
  let opr ← (← rmOperand w 1 p modrm).load w
  compareOperands op w (.reg (regField modrm)) (.imm opr)

/-- `ALIb` and `AXIv`. -/
def compareAI (op : CompareOp) (w : Width) : M Unit := do
  compareOperands op w (.reg 0) (.imm (← fetchW w))

/-- `EI_helper` and `EIb_helper`, by what fetches the immediate operand. -/
def compareEI (op : CompareOp) (w : Width) (imm : M Word) (p : Prefixes) : M Unit := do
  let modrm ← fetch8
  if modField modrm = 3 then compareOperands op w (.reg (rmField modrm)) (.imm (← imm))
  else
    let (addr, seg) ← modsib p.adsz16 (modField modrm) (rmField modrm) p.currSeg
    let v ← imm
    let meml ← translateW w 1 seg addr
    compareOperands op w (.addr meml) (.imm v)

/-- `imm8`, extended to the width. -/
def fetchImm8 (w : Width) : M Word := do
  let imm8 ← fetch8
  return ((imm8.signExtend 32).setWidth w.bits).setWidth 32

def Prefixes.width (p : Prefixes) : Width := if p.opsz16 then .b16 else .b32

/-- `GRPBEG`: the group field of the modrm byte that follows. -/
def peekGroup : M (Fin 8) := do return regField (← peek8a)

/-- The cases of CMP and TEST, up to `try_jcc8`; `false` is another instruction. -/
def compareCase (p : Prefixes) (b1 : Byte) : M Bool := do
  match b1.toNat with
  | 0x38 => compareEG .cmp .b8 p; return true
  | 0x39 => compareEG .cmp p.width p; return true
  | 0x3a => compareGE .cmp .b8 p; return true
  | 0x3b => compareGE .cmp p.width p; return true
  | 0x3c => compareAI .cmp .b8; return true
  | 0x3d => compareAI .cmp p.width; return true
  | 0x84 => compareEG .test .b8 p; return true
  | 0x85 => compareEG .test p.width p; return true
  | 0xa8 => compareAI .test .b8; return true
  | 0xa9 => compareAI .test p.width; return true
  | 0x80 | 0x82 =>
    let group ← peekGroup
    onlyIf (group = 7) (compareEI .cmp .b8 (fetchW .b8) p)
    return group = 7
  | 0x81 =>
    let group ← peekGroup
    onlyIf (group = 7) (compareEI .cmp p.width (fetchW p.width) p)
    return group = 7
  | 0x83 =>
    let group ← peekGroup
    onlyIf (group = 7) (compareEI .cmp p.width (fetchImm8 p.width) p)
    return group = 7
  | 0xf6 =>
    let group ← peekGroup
    onlyIf (group = 0 ∨ group = 1) (compareEI .test .b8 (fetchW .b8) p)
    return group = 0 ∨ group = 1
  | 0xf7 =>
    let group ← peekGroup
    onlyIf (group = 0 ∨ group = 1) (compareEI .test p.width (fetchW p.width) p)
    return group = 0 ∨ group = 1
  | _ => return false

-- 32-bit code outside V86 mode has its own dispatcher, for instructions without prefixes.
def noPrefixes : Prefixes := ⟨false, false, 0, none⟩

/-- Where an operand is in memory, the register operand of 0x3b is read before it. -/
def fastCompareGE (op : CompareOp) : M Unit := do
  let _ ← peek8a
  let modrm ← fetch8
  compareOperands op .b32 (.reg (regField modrm)) (← rmOperand .b32 1 noPrefixes modrm)

def fastCompareEG (op : CompareOp) : M Unit := do
  let _ ← peek8a
  compareEG op .b32 noPrefixes

/-- Bytes for which the fast dispatcher may run a CMP or TEST. -/
def isFastCompare (b1 : Byte) : Bool :=
  b1.toNat ∈ [0x3d, 0xa9, 0x39, 0x3b, 0x85, 0x81, 0x83]

def fastCompareCase (b1 : Byte) : M Bool := do
  match b1.toNat with
  | 0x3d => compareAI .cmp .b32; return true
  | 0xa9 => compareAI .test .b32; return true
  | 0x39 => fastCompareEG .cmp; return true
  | 0x3b => fastCompareGE .cmp; return true
  | 0x85 => fastCompareEG .test; return true
  | 0x81 =>
    let group ← peekGroup
    onlyIf (group = 7) (compareEI .cmp .b32 (fetchW .b32) noPrefixes)
    return group = 7
  | 0x83 =>
    let group ← peekGroup
    onlyIf (group = 7) (compareEI .cmp .b32 (fetchImm8 .b32) noPrefixes)
    return group = 7
  | _ => return false

def CPUI386.fastDispatch (s : CPUI386) (b1 : Byte) : Bool :=
  !s.code16 && !hasBit s.flags VM && isFastCompare b1

/-- An instruction that starts in `s` is a CMP or TEST and calls `try_jcc8` in `u`. -/
def CallsTryJcc8 (s u : CPUI386) : Prop :=
  ∃ b1 t, fetch8pf s.beginInsn = .ok b1 t ∧
    if s.fastDispatch b1 then fastCompareCase b1 t = .ok true u
    else ∃ p b t', TakesPrefixes s.code16 ⟨s.code16, s.code16, 0, none⟩ b1 t p b t' ∧
      compareCase p b t' = .ok true u

def isJzJnz (op : Byte) : Bool := op == 0x74 || op == 0x75

/-- `COND` of JZ and JNZ. -/
def CPUI386.cond (s : CPUI386) (op : Byte) : Bool :=
  if op = 0x74 then s.getZF else !s.getZF

/-- The next instruction, executed if it is JZ or JNZ. -/
def followingJcc8 : M Bool := do
  modify CPUI386.beginInsn
  let b1 ← fetch8pf
  if isJzJnz b1 then
    let imm8 ← fetch8
    let s ← get
    onlyIf (s.cond b1 = true) (modify fun s => s.skip (imm8.signExtend 32))
    return true
  else return false

def CPUI386.nextAddr (s : CPUI386) : Word := s.beginInsn.nextIp

structure SameGuest (s t : CPUI386) : Prop where
  flags : t.toLazyFlags = s.toLazyFlags
  gpr : t.gpr = s.gpr
  seg : t.seg = s.seg
  cpl : t.cpl = s.cpl
  code16 : t.code16 = s.code16
  cr0 : t.cr0 = s.cr0
  cr2 : t.cr2 = s.cr2
  cr3 : t.cr3 = s.cr3
  mem : t.mem = s.mem
  io : t.io = s.io
  next : t.nextAddr = s.nextAddr

/-- After `try_jcc8` the guest is where it is without it, the jump still to come or executed. -/
def Invisible (s : CPUI386) : Prop :=
  ∃ s', tryJcc8 s = .ok () s' ∧
    (SameGuest s s' ∨ ∃ t, followingJcc8 s = .ok true t ∧ SameGuest t s')

/-- The peeked bytes are the ones that are executed next: they are in the page in which the
CMP or TEST starts, and IP does not wrap before them. -/
structure CPUI386.JumpInPage (s : CPUI386) : Prop where
  kept : s.ifetch.laddr ≠ noPage
  room : offset 12 ((s.seg .cs).base + s.ip) + (s.nextIp - s.ip).toNat + 2 ≤ 4096
  wrap : s.code16 = true → s.nextIp.toNat ≤ 0xffff

/-- The displacement of a jump that `try_jcc8` takes. -/
def CPUI386.peekedJump (s : CPUI386) : Option Word :=
  let op := s.byteAt s.ifetch.paddr
  if isJzJnz op && s.cond op then some ((s.byteAt (s.ifetch.paddr + 1)).signExtend 32) else none

structure CPUI386.PeekInMem (s : CPUI386) : Prop where
  op : s.inMem s.ifetch.paddr
  disp : s.peekedJump ≠ none → s.inMem (s.ifetch.paddr + 1)

/-- The next two bytes, as they are fetched normally. -/
def bytesAhead : M (Byte × Byte) := do
  modify CPUI386.beginInsn
  let b1 ← fetch8pf
  let imm8 ← fetch8
  return (b1, imm8)

/-- The bytes fetched normally are a jump by `d`, too, or one that is not taken where `d` is 0. -/
def CPUI386.LandsBy (s : CPUI386) (d : Word) : Prop :=
  ∃ op imm8 t, bytesAhead s = .ok (op, imm8) t ∧ isJzJnz op = true ∧
    (if s.cond op then imm8.signExtend 32 else 0) = d ∧
    t.mem = s.mem ∧ t.io = s.io ∧ t.cr2 = s.cr2

def CPUI386.FusionSafe (s : CPUI386) : Prop :=
  s.ifetch.paddr = 0 ∨ s.JumpInPage ∨ (s.PeekInMem ∧ ∀ d, s.peekedJump = some d →
    (s.skip (d + 2)).nextAddr = s.nextAddr ∨ s.LandsBy d)

end Winspire.Cpu
