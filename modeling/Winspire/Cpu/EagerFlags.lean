import Winspire.Lib.SignExtend
import Winspire.Cpu.Flags

/-!
# The flags of the x86 definition

The arithmetic flags after an instruction, from its operands alone. `none` is a flag the
definition leaves undefined.
-/

namespace Winspire.Cpu

open SignExtend

set_option autoImplicit false

structure EFlags where
  cf : Bool
  pf : Option Bool
  af : Option Bool
  zf : Option Bool
  sf : Option Bool
  of : Bool
  deriving DecidableEq, Repr

namespace EFlags

section Arithmetic

variable {n : Nat}

/-- The low byte has an even number of ones. -/
def evenParity (r : BitVec n) : Bool :=
  ((List.range 8).countP fun i => r.getLsbD i) % 2 == 0

def ofResult (r : BitVec n) (cf of : Bool) (af : Option Bool) : EFlags where
  cf := cf
  pf := some (evenParity r)
  af := af
  zf := some (decide (r = 0))
  sf := some r.msb
  of := of

def add (a b : BitVec n) (c : Bool) : EFlags :=
  let r := a + b + (BitVec.ofBool c).setWidth n
  ofResult r (decide (2 ^ n ≤ a.toNat + b.toNat + c.toNat))
    (decide (r.toInt ≠ a.toInt + b.toInt + c.toNat))
    (some (decide (16 ≤ a.toNat % 16 + b.toNat % 16 + c.toNat)))

def sub (a b : BitVec n) (c : Bool) : EFlags :=
  let r := a - b - (BitVec.ofBool c).setWidth n
  ofResult r (decide (a.toNat < b.toNat + c.toNat))
    (decide (r.toInt ≠ a.toInt - b.toInt - c.toNat))
    (some (decide (a.toNat % 16 < b.toNat % 16 + c.toNat)))

def logic (r : BitVec n) : EFlags := ofResult r false false none

/-- `wide` says that the product does not fit in the low half of its destination. -/
def product (wide : Bool) : EFlags := ⟨wide, none, none, none, none, wide⟩

def mul (a b : BitVec n) : EFlags := product (decide (2 ^ n ≤ a.toNat * b.toNat))

/-- The product of signed numbers, into a destination of `n` bits. -/
def imul {m : Nat} (a : BitVec n) (b : BitVec m) : EFlags :=
  product (decide ((a * b.signExtend n).toInt ≠ a.toInt * b.toInt))

end Arithmetic

end EFlags

/-- The instructions that read or write the arithmetic flags, with their operands. -/
inductive FlagInsn where
  | add (w : Width) (a b : BitVec w.bits)
  | adc (w : Width) (a b : BitVec w.bits)
  | sub (w : Width) (a b : BitVec w.bits)
  | sbb (w : Width) (a b : BitVec w.bits)
  | cmp (w : Width) (a b : BitVec w.bits)
  | and (w : Width) (a b : BitVec w.bits)
  | or (w : Width) (a b : BitVec w.bits)
  | xor (w : Width) (a b : BitVec w.bits)
  | test (w : Width) (a b : BitVec w.bits)
  | inc (w : Width) (a : BitVec w.bits)
  | dec (w : Width) (a : BitVec w.bits)
  | neg (w : Width) (a : BitVec w.bits)
  | imul2w (a b : BitVec 16)
  | imul2d (a b : BitVec 32)
  | imul2wIb (b : BitVec 16) (c : BitVec 8)
  | imul2wIw (b c : BitVec 16)
  | imul2dIb (b : BitVec 32) (c : BitVec 8)
  | imul2dId (b c : BitVec 32)
  | imulb (acc a : BitVec 8)
  | imulw (acc a : BitVec 16)
  | imuld (acc a : BitVec 32)
  | mulb (acc a : BitVec 8)
  | mulw (acc a : BitVec 16)
  | muld (acc a : BitVec 32)
  | clc
  | stc
  | cmc
  | lahf
  | sahf (ah : Byte)
  | pushf
  | popf (opsz16 pe : Bool) (cpl : Nat) (image : Word)

namespace FlagInsn

/-- The effect of the instruction on the flags by the x86 definition. -/
def eager (e : EFlags) : FlagInsn → EFlags
  | add _ a b => .add a b false
  | adc _ a b => .add a b e.cf
  | sub _ a b => .sub a b false
  | sbb _ a b => .sub a b e.cf
  | cmp _ a b => .sub a b false
  | and _ a b => .logic (a &&& b)
  | or _ a b => .logic (a ||| b)
  | xor _ a b => .logic (a ^^^ b)
  | test _ a b => .logic (a &&& b)
  | inc _ a => { EFlags.add a 1 false with cf := e.cf }
  | dec _ a => { EFlags.sub a 1 false with cf := e.cf }
  | neg _ a => .sub 0 a false
  | imul2w a b => .imul a b
  | imul2d a b => .imul a b
  | imul2wIb b c => .imul b c
  | imul2wIw b c => .imul b c
  | imul2dIb b c => .imul b c
  | imul2dId b c => .imul b c
  | imulb acc a => .imul acc a
  | imulw acc a => .imul acc a
  | imuld acc a => .imul acc a
  | mulb acc a => .mul acc a
  | mulw acc a => .mul acc a
  | muld acc a => .mul acc a
  | clc => { e with cf := false }
  | stc => { e with cf := true }
  | cmc => { e with cf := !e.cf }
  | lahf => e
  | sahf ah =>
    { e with
      cf := ah.getLsbD 0
      pf := some (ah.getLsbD 2)
      af := some (ah.getLsbD 4)
      zf := some (ah.getLsbD 6)
      sf := some (ah.getLsbD 7) }
  | pushf => e
  | popf _ _ _ image =>
    { cf := image.getLsbD 0
      pf := some (image.getLsbD 2)
      af := some (image.getLsbD 4)
      zf := some (image.getLsbD 6)
      sf := some (image.getLsbD 7)
      of := image.getLsbD 11 }

/-- The same instruction on the flags of i386.c; `none` is a failed assertion. -/
def exec (gen : Gen) (s : LazyFlags) : FlagInsn → Option LazyFlags
  | add w a b => some (s.add w (a.setWidth 32) (b.setWidth 32))
  | adc w a b => s.adc w (a.setWidth 32) (b.setWidth 32)
  | sub w a b => some (s.sub w (a.setWidth 32) (b.setWidth 32))
  | sbb w a b => s.sbb w (a.setWidth 32) (b.setWidth 32)
  | cmp w a b => some (s.cmp w (a.setWidth 32) (b.setWidth 32))
  | and w a b => some (s.and w (a.setWidth 32) (b.setWidth 32))
  | or w a b => some (s.or w (a.setWidth 32) (b.setWidth 32))
  | xor w a b => some (s.xor w (a.setWidth 32) (b.setWidth 32))
  | test w a b => some (s.test w (a.setWidth 32) (b.setWidth 32))
  | inc w a => s.inc w (a.setWidth 32)
  | dec w a => s.dec w (a.setWidth 32)
  | neg w a => some (s.neg w (a.setWidth 32))
  | imul2w a b => some (s.imul2w (a.setWidth 32) (b.setWidth 32))
  | imul2d a b => some (s.imul2d a b)
  | imul2wIb b c => some (s.imul2wIb (b.setWidth 32) (c.setWidth 32))
  | imul2wIw b c => some (s.imul2wIw (b.setWidth 32) (c.setWidth 32))
  | imul2dIb b c => some (s.imul2dIb b (c.setWidth 32))
  | imul2dId b c => some (s.imul2dId b c)
  | imulb acc a => some (s.imulb (acc.setWidth 32) (a.setWidth 32))
  | imulw acc a => some (s.imulw (acc.setWidth 32) (a.setWidth 32))
  | imuld acc a => some (s.imuld acc a)
  | mulb acc a => some (s.mulb (acc.setWidth 32) (a.setWidth 32))
  | mulw acc a => some (s.mulw (acc.setWidth 32) (a.setWidth 32))
  | muld acc a => some (s.muld acc a)
  | clc => some s.clc
  | stc => some s.stc
  | cmc => s.cmc
  | lahf => s.lahf
  | sahf ah => some (s.sahf gen ah)
  | pushf => s.pushf
  | popf opsz16 pe cpl image => some (s.popf gen opsz16 pe cpl image)

def traps (s : LazyFlags) : FlagInsn → Bool
  | pushf | popf .. => s.flagsTrap
  | _ => false

end FlagInsn

namespace LazyFlags

/-- The `get_*` functions return the defined flags of `e`. -/
structure Shows (s : LazyFlags) (e : EFlags) : Prop where
  cf : s.getCF = some e.cf
  pf : ∀ b, e.pf = some b → s.getPF = b
  af : ∀ b, e.af = some b → s.getAF = b
  zf : ∀ b, e.zf = some b → s.getZF = b
  sf : ∀ b, e.sf = some b → s.getSF = b
  of : s.getOF = some e.of

/-- And `refresh_flags` stores the same flags, and changes no others. -/
structure Agrees (s : LazyFlags) (e : EFlags) : Prop where
  shows : s.Shows e
  refresh : ∃ s', s.refreshFlags = some s' ∧ (s'.setMask 0).Shows e ∧
    s'.flags &&& ~~~arithMask = s.flags &&& ~~~arithMask

end LazyFlags

end Winspire.Cpu
