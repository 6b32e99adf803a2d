import Mathlib.Data.Nat.Basic

/-!
# Lazy flags of i386.c

`flags` holds the flags that are not in `cc.mask`; the others are computed from the operands and
the result of the last arithmetic instruction. `none` is a failed assertion.
-/

namespace Winspire.Cpu

set_option autoImplicit false

abbrev Byte := BitVec 8
abbrev Word := BitVec 32

inductive Width where
  | b8
  | b16
  | b32
  deriving DecidableEq, Repr

def Width.bits : Width → Nat
  | .b8 => 8
  | .b16 => 16
  | .b32 => 32

def sext (w : Width) (a : Word) : Word := (a.setWidth w.bits).signExtend 32

def CF : Word := 0x1
def PF : Word := 0x4
def AF : Word := 0x10
def ZF : Word := 0x40
def SF : Word := 0x80
def TF : Word := 0x100
def IF : Word := 0x200
def DF : Word := 0x400
def OF : Word := 0x800
def IOPL : Word := 0x3000
def NT : Word := 0x4000
def RF : Word := 0x10000
def VM : Word := 0x20000

def hasBit (x m : Word) : Bool := x &&& m != 0

def setBit (x : Word) (f : Bool) (m : Word) : Word :=
  (x &&& ~~~m) ||| (if f then m else 0)

inductive CcOp where
  | adc
  | add
  | sbb
  | sub
  | neg (w : Width)
  | dec (w : Width)
  | inc (w : Width)
  | imul (w : Width)
  | mul (w : Width)
  | sar
  | shl
  | shr
  | shld
  | shrd
  | bsf
  | bsr
  | and
  | or
  | xor
  deriving DecidableEq, Repr

structure Cc where
  op : CcOp
  dst : Word
  dst2 : Word
  src1 : Word
  src2 : Word
  mask : Word
  deriving DecidableEq, Repr

structure LazyFlags where
  flags : Word
  cc : Cc
  deriving DecidableEq, Repr

/-- `EFLAGS_MASK` of the processor generations `cpui386_new` accepts. -/
inductive Gen where
  | i386
  | i486
  | i586
  | i686
  deriving DecidableEq, Repr

def Gen.eflagsMask : Gen → Word
  | .i386 => 0x37fd7
  | .i486 => 0x77fd7
  | .i586 | .i686 => 0x277fd7

namespace LazyFlags

def getCF (s : LazyFlags) : Option Bool :=
  if hasBit s.cc.mask CF then
    match s.cc.op with
    | .adc => some (s.cc.dst ≤ s.cc.src2)
    | .add => some (s.cc.dst < s.cc.src2)
    | .sbb => some (s.cc.src1 ≤ s.cc.src2)
    | .sub => some (s.cc.src1 < s.cc.src2)
    | .neg _ => some (s.cc.dst != 0)
    | .dec _ | .inc _ => none
    | .imul .b8 => some (sext .b8 s.cc.dst != s.cc.dst)
    | .imul .b16 => some (sext .b16 s.cc.dst != s.cc.dst)
    | .imul .b32 => some (s.cc.dst.sshiftRight 31 != s.cc.dst2)
    | .mul .b8 => some (s.cc.dst >>> 8 != 0)
    | .mul .b16 => some (s.cc.dst >>> 16 != 0)
    | .mul .b32 => some (s.cc.dst2 != 0)
    | .shl | .shr | .sar => some (hasBit s.cc.dst2 1)
    | .shld => some (s.cc.dst2 >>> 31 != 0)
    | .shrd => some (hasBit s.cc.dst2 1)
    | .bsf | .bsr => some false
    | .and | .or | .xor => some false
  else some (hasBit s.flags CF)

/-- Eight entries of `parity_tab` a line. -/
def parityTab : List Bool :=
  [true, false, false, true, false, true, true, false,
   false, true, true, false, true, false, false, true,
   false, true, true, false, true, false, false, true,
   true, false, false, true, false, true, true, false,
   false, true, true, false, true, false, false, true,
   true, false, false, true, false, true, true, false,
   true, false, false, true, false, true, true, false,
   false, true, true, false, true, false, false, true,
   false, true, true, false, true, false, false, true,
   true, false, false, true, false, true, true, false,
   true, false, false, true, false, true, true, false,
   false, true, true, false, true, false, false, true,
   true, false, false, true, false, true, true, false,
   false, true, true, false, true, false, false, true,
   false, true, true, false, true, false, false, true,
   true, false, false, true, false, true, true, false,
   false, true, true, false, true, false, false, true,
   true, false, false, true, false, true, true, false,
   true, false, false, true, false, true, true, false,
   false, true, true, false, true, false, false, true,
   true, false, false, true, false, true, true, false,
   false, true, true, false, true, false, false, true,
   false, true, true, false, true, false, false, true,
   true, false, false, true, false, true, true, false,
   true, false, false, true, false, true, true, false,
   false, true, true, false, true, false, false, true,
   false, true, true, false, true, false, false, true,
   true, false, false, true, false, true, true, false,
   false, true, true, false, true, false, false, true,
   true, false, false, true, false, true, true, false,
   true, false, false, true, false, true, true, false,
   false, true, true, false, true, false, false, true]

def getPF (s : LazyFlags) : Bool :=
  if hasBit s.cc.mask PF then parityTab.getD (s.cc.dst &&& 0xff).toNat false
  else hasBit s.flags PF

def getAF (s : LazyFlags) : Bool :=
  if hasBit s.cc.mask AF then
    match s.cc.op with
    | .adc | .add | .sbb | .sub =>
      hasBit ((s.cc.src1 ^^^ s.cc.src2 ^^^ s.cc.dst) >>> 4) 1
    | .neg _ => s.cc.dst &&& 0xf != 0
    | .dec _ => s.cc.dst &&& 0xf == 0xf
    | .inc _ => s.cc.dst &&& 0xf == 0
    | _ => false
  else hasBit s.flags AF

def getZF (s : LazyFlags) : Bool :=
  if hasBit s.cc.mask ZF then s.cc.dst == 0 else hasBit s.flags ZF

def getSF (s : LazyFlags) : Bool :=
  if hasBit s.cc.mask SF then s.cc.dst.msb else hasBit s.flags SF

def getOF (s : LazyFlags) : Option Bool :=
  if hasBit s.cc.mask OF then
    match s.cc.op with
    | .adc | .add =>
      some (~~~(s.cc.src1 ^^^ s.cc.src2) &&& (s.cc.dst ^^^ s.cc.src2)).msb
    | .sbb | .sub => some ((s.cc.src1 ^^^ s.cc.src2) &&& (s.cc.dst ^^^ s.cc.src1)).msb
    | .dec .b8 => some (s.cc.dst == sext .b8 (~~~(1 <<< 7)))
    | .dec .b16 => some (s.cc.dst == sext .b16 (~~~(1 <<< 15)))
    | .dec .b32 => some (s.cc.dst == sext .b32 (~~~(1 <<< 31)))
    | .inc .b8 | .neg .b8 => some (s.cc.dst == sext .b8 (1 <<< 7))
    | .inc .b16 | .neg .b16 => some (s.cc.dst == sext .b16 (1 <<< 15))
    | .inc .b32 | .neg .b32 => some (s.cc.dst == sext .b32 (1 <<< 31))
    | .imul _ | .mul _ => s.getCF
    | .sar => some false
    | .shl => some (s.cc.dst.msb ^^ hasBit s.cc.dst2 1)
    | .shr => some s.cc.src1.msb
    | .shld | .shrd => some (s.cc.src1 ^^^ s.cc.dst).msb
    | .bsf | .bsr => some false
    | .and | .or | .xor => some false
  else some (hasBit s.flags OF)

def setFlag (s : LazyFlags) (f : Bool) (m : Word) : LazyFlags :=
  { s with flags := setBit s.flags f m }

def setMask (s : LazyFlags) (mask : Word) : LazyFlags :=
  { s with cc := { s.cc with mask := mask } }

def refreshFlags (s : LazyFlags) : Option LazyFlags := do
  let s := s.setFlag (← s.getCF) CF
  let s := s.setFlag s.getPF PF
  let s := s.setFlag s.getAF AF
  let s := s.setFlag s.getZF ZF
  let s := s.setFlag s.getSF SF
  let s := s.setFlag (← s.getOF) OF
  return s

def getIOPL (s : LazyFlags) : Nat := ((s.flags &&& IOPL) >>> 12).toNat

-- An arithmetic helper leaves its result in `cc.dst` (and `cc.dst2`), from where it is stored.
def arithMask : Word := CF ||| PF ||| AF ||| ZF ||| SF ||| OF
def logicMask : Word := CF ||| PF ||| ZF ||| SF ||| OF
def incDecMask : Word := PF ||| AF ||| ZF ||| SF ||| OF

def acopHelper (name1 name2 : CcOp) (w : Width) (op : Word → Word → Word) (a b : Word)
    (s : LazyFlags) : Option LazyFlags := do
  let cf ← s.getCF
  let src1 := sext w a
  let src2 := sext w b
  return { s with cc := { s.cc with
    src1 := src1
    src2 := src2
    dst := sext w (op (op src1 src2) (if cf then 1 else 0))
    op := if cf then name1 else name2
    mask := arithMask } }

def aop0Helper (name : CcOp) (w : Width) (op : Word → Word → Word) (a b : Word)
    (s : LazyFlags) : LazyFlags :=
  { s with cc := { s.cc with
    src1 := sext w a
    src2 := sext w b
    dst := sext w (op (sext w a) (sext w b))
    op := name
    mask := arithMask } }

def lop0Helper (name : CcOp) (w : Width) (op : Word → Word → Word) (a b : Word)
    (s : LazyFlags) : LazyFlags :=
  { s with cc := { s.cc with dst := sext w (op a b), op := name, mask := logicMask } }

def incDecHelper (name : Width → CcOp) (w : Width) (op : Word → Word → Word) (a : Word)
    (s : LazyFlags) : Option LazyFlags := do
  let cf ← s.getCF
  return { s with
    flags := setBit s.flags cf CF
    cc := { s.cc with dst := sext w (op (sext w a) 1), op := name w, mask := incDecMask } }

def negHelper (w : Width) (a : Word) (s : LazyFlags) : LazyFlags :=
  { s with cc := { s.cc with
    src1 := sext w a
    dst := sext w (-(sext w a))
    op := .neg w
    mask := arithMask } }

def adc (w : Width) (a b : Word) : LazyFlags → Option LazyFlags :=
  acopHelper .adc .add w (· + ·) a b
def sbb (w : Width) (a b : Word) : LazyFlags → Option LazyFlags :=
  acopHelper .sbb .sub w (· - ·) a b
def add (w : Width) (a b : Word) : LazyFlags → LazyFlags := aop0Helper .add w (· + ·) a b
def sub (w : Width) (a b : Word) : LazyFlags → LazyFlags := aop0Helper .sub w (· - ·) a b
def cmp (w : Width) (a b : Word) : LazyFlags → LazyFlags := aop0Helper .sub w (· - ·) a b
def and (w : Width) (a b : Word) : LazyFlags → LazyFlags := lop0Helper .and w (· &&& ·) a b
def or (w : Width) (a b : Word) : LazyFlags → LazyFlags := lop0Helper .or w (· ||| ·) a b
def xor (w : Width) (a b : Word) : LazyFlags → LazyFlags := lop0Helper .xor w (· ^^^ ·) a b
def test (w : Width) (a b : Word) : LazyFlags → LazyFlags := lop0Helper .and w (· &&& ·) a b
def inc (w : Width) (a : Word) : LazyFlags → Option LazyFlags :=
  incDecHelper .inc w (· + ·) a
def dec (w : Width) (a : Word) : LazyFlags → Option LazyFlags :=
  incDecHelper .dec w (· - ·) a
def neg (w : Width) (a : Word) : LazyFlags → LazyFlags := negHelper w a

/-- The products that fit in a word: `src1` and `src2` are already extended. -/
def mulShort (op : CcOp) (src1 src2 dst : Word) (s : LazyFlags) : LazyFlags :=
  { s with cc := { s.cc with
    src1 := src1
    src2 := src2
    dst := dst
    op := op
    mask := arithMask } }

/-- The products that are computed in 64 bits. -/
def mulLong (op : CcOp) (src1 src2 : Word) (res : BitVec 64) (s : LazyFlags) : LazyFlags :=
  { s with cc := { s.cc with
    src1 := src1
    src2 := src2
    dst := res.setWidth 32
    dst2 := (res >>> 32).setWidth 32
    op := op
    mask := arithMask } }

def imulShort (op : CcOp) (src1 src2 : Word) : LazyFlags → LazyFlags :=
  mulShort op src1 src2 (src1 * src2)

def imulLong (src1 src2 : Word) : LazyFlags → LazyFlags :=
  mulLong (.imul .b32) src1 src2 (src1.signExtend 64 * src2.signExtend 64)

def imul2w (a b : Word) : LazyFlags → LazyFlags :=
  imulShort (.imul .b16) (sext .b16 a) (sext .b16 b)
def imul2d (a b : Word) : LazyFlags → LazyFlags := imulLong (sext .b32 a) (sext .b32 b)
def imul2wIb (b c : Word) : LazyFlags → LazyFlags :=
  imulShort (.imul .b16) (sext .b16 b) (sext .b8 c)
def imul2wIw (b c : Word) : LazyFlags → LazyFlags :=
  imulShort (.imul .b16) (sext .b16 b) (sext .b16 c)
def imul2dIb (b c : Word) : LazyFlags → LazyFlags := imulLong (sext .b32 b) (sext .b8 c)
def imul2dId (b c : Word) : LazyFlags → LazyFlags := imulLong (sext .b32 b) (sext .b32 c)

/-- `acc` is AL, AX or EAX. -/
def imulb (acc a : Word) : LazyFlags → LazyFlags :=
  imulShort (.imul .b8) (sext .b8 acc) (sext .b8 a)
def imulw (acc a : Word) : LazyFlags → LazyFlags :=
  imulShort (.imul .b16) (sext .b16 acc) (sext .b16 a)
def imuld (acc a : Word) : LazyFlags → LazyFlags := imulLong (sext .b32 acc) (sext .b32 a)
def mulb (acc a : Word) : LazyFlags → LazyFlags :=
  mulShort (.mul .b8) acc a (sext .b16 (acc * a))
def mulw (acc a : Word) : LazyFlags → LazyFlags := mulShort (.mul .b16) acc a (acc * a)
def muld (acc a : Word) : LazyFlags → LazyFlags :=
  mulLong (.mul .b32) acc a (acc.setWidth 64 * a.setWidth 64)

def lahf (s : LazyFlags) : Option LazyFlags := do
  return (← s.refreshFlags).setMask 0

def sahf (gen : Gen) (ah : Byte) (s : LazyFlags) : LazyFlags :=
  let s := s.setMask (s.cc.mask &&& OF)
  { s with flags := (((s.flags &&& ~~~0xff) ||| ah.setWidth 32) &&& gen.eflagsMask) ||| 0x2 }

def cmc (s : LazyFlags) : Option LazyFlags := do
  let cf ← s.getCF
  return (s.setMask (s.cc.mask &&& ~~~CF)).setFlag (!cf) CF

def clc (s : LazyFlags) : LazyFlags :=
  let s := s.setMask (s.cc.mask &&& ~~~CF)
  { s with flags := s.flags &&& ~~~CF }

def stc (s : LazyFlags) : LazyFlags :=
  let s := s.setMask (s.cc.mask &&& ~~~CF)
  { s with flags := s.flags ||| CF }

def flagsTrap (s : LazyFlags) : Bool := hasBit s.flags VM && decide (s.getIOPL < 3)

/-- What PUSHF does to the flags before it stores them. -/
def pushf (s : LazyFlags) : Option LazyFlags := do
  return (← s.refreshFlags).setMask 0

def popfKept (pe : Bool) (cpl : Nat) (s : LazyFlags) : Word :=
  let mask := VM
  if pe then
    let mask := if 0 < cpl then mask ||| IOPL else mask
    if s.getIOPL < cpl then mask ||| IF else mask
  else mask

/-- POPF with the image `v` read from the stack; only its low half counts when `opsz16`. -/
def popf (gen : Gen) (opsz16 pe : Bool) (cpl : Nat) (v : Word) (s : LazyFlags) : LazyFlags :=
  let mask := s.popfKept pe cpl
  let flags :=
    if opsz16 then
      (s.flags &&& (0xffff0000 ||| mask)) ||| ((v.setWidth 16).setWidth 32 &&& ~~~mask)
    else (s.flags &&& mask) ||| (v &&& ~~~mask)
  ({ s with flags := (flags &&& gen.eflagsMask) ||| 0x2 } : LazyFlags).setMask 0

end LazyFlags

end Winspire.Cpu
