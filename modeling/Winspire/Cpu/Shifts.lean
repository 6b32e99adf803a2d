import Winspire.Cpu.EagerFlags

/-!
# Shifts and rotates

The helpers of i386.c and the x86 definition. A helper gives the flags and the operand as they
are after it; `none` is a failed assertion or a shift the host leaves undefined.
-/

namespace Winspire.Cpu

set_option autoImplicit false

/-- A shift of a word by its width or more, or by a negative amount, is undefined. -/
def hostShl (x n : Word) : Option Word := if n.toNat < 32 then some (x <<< n.toNat) else none

def hostShr (x n : Word) : Option Word := if n.toNat < 32 then some (x >>> n.toNat) else none

def hostSar (x n : Word) : Option Word :=
  if n.toNat < 32 then some (x.sshiftRight n.toNat) else none

def Width.bit (w : Width) : Word := BitVec.ofNat 32 w.bits

namespace LazyFlags

/-- CF and OF stored in `flags`. -/
def setCarries (s : LazyFlags) (cf of : Bool) : LazyFlags :=
  ((s.setFlag cf CF).setFlag of OF).setMask (s.cc.mask &&& ~~~(CF ||| OF))

def shlHelper (w : Width) (x b : Word) (s : LazyFlags) : Option (LazyFlags × Word) := do
  let y := b &&& 0x1f
  if y ≠ 0 then
    let dst := sext w (← hostShl x y)
    let dst2 := (← hostShr x (w.bit - y)) &&& 1
    return ({ s with cc := { s.cc with dst, dst2, op := .shl, mask := logicMask } }, dst)
  else return (s, x)

def shrHelper (w : Width) (x b : Word) (s : LazyFlags) : Option (LazyFlags × Word) := do
  let y := b &&& 0x1f
  if y ≠ 0 then
    let src1 := sext w x
    let dst := sext w (← hostShr x y)
    let dst2 := (← hostShr x (y - 1)) &&& 1
    return ({ s with cc := { s.cc with src1, dst, dst2, op := .shr, mask := logicMask } }, dst)
  else return (s, x)

def sarHelper (w : Width) (x b : Word) (s : LazyFlags) : Option (LazyFlags × Word) := do
  let x' := sext w x
  let y := b &&& 0x1f
  if y ≠ 0 then
    let dst ← hostSar x' y
    let dst2 := (← hostSar x' (y - 1)) &&& 1
    return ({ s with cc := { s.cc with dst, dst2, op := .sar, mask := logicMask } }, dst)
  else return (s, x)

/-- The count is not masked before it is compared with zero. -/
def rolHelper (w : Width) (x b : Word) (s : LazyFlags) : Option (LazyFlags × Word) := do
  let y := b &&& (w.bit - 1)
  let res ← if y ≠ 0 then do
      let l ← hostShl x y
      let r ← hostShr x (w.bit - y)
      some (sext w (l ||| r))
    else some x
  if b ≠ 0 then
    let cf1 := hasBit res 1
    return (s.setCarries cf1 (res.msb ^^ cf1), res)
  else return (s, res)

def rorHelper (w : Width) (x b : Word) (s : LazyFlags) : Option (LazyFlags × Word) := do
  let y := b &&& (w.bit - 1)
  let res ← if y ≠ 0 then do
      let r ← hostShr x y
      let l ← hostShl x (w.bit - y)
      some (sext w (r ||| l))
    else some x
  if b ≠ 0 then
    let cf1 := hasBit (res >>> (w.bits - 1)) 1
    return (s.setCarries cf1 (hasBit ((res ^^^ res <<< 1) >>> (w.bits - 1)) 1), res)
  else return (s, res)

def rclHelper (w : Width) (x b : Word) (s : LazyFlags) : Option (LazyFlags × Word) := do
  let y := (b &&& 0x1f) % (w.bit + 1)
  if y ≠ 0 then
    let cf : Word := if ← s.getCF then 1 else 0
    let l ← hostShl x y
    let m ← hostShl cf (y - 1)
    let r ← if y ≠ 1 then hostShr x (w.bit + 1 - y) else some 0
    let res := sext w (l ||| m ||| r)
    let cf1 := hasBit (← hostShr x (w.bit - y)) 1
    return (s.setCarries cf1 (res.msb ^^ cf1), res)
  else return (s, x)

def rcrHelper (w : Width) (x b : Word) (s : LazyFlags) : Option (LazyFlags × Word) := do
  let y := (b &&& 0x1f) % (w.bit + 1)
  if y ≠ 0 then
    let cf : Word := if ← s.getCF then 1 else 0
    let r ← hostShr x y
    let m ← hostShl cf (w.bit - y)
    let l ← if y ≠ 1 then hostShl x (w.bit + 1 - y) else some 0
    let res := sext w (r ||| m ||| l)
    let cf1 := hasBit (sext w (← hostShl x (w.bit - y)) >>> (w.bits - 1)) 1
    return (s.setCarries cf1 (hasBit ((res ^^^ res <<< 1) >>> (w.bits - 1)) 1), res)
  else return (s, x)

/-- Counts above the width exchange the operands. -/
def shldHelper (w : Width) (x y c : Word) (s : LazyFlags) : Option (LazyFlags × Word) := do
  let count := c &&& 0x1f
  if count ≠ 0 then
    let src1 := sext w x
    let (x, y, count) := if w.bit < count then (y, x, count - w.bit) else (x, y, count)
    let l ← hostShl x count
    let r ← hostShr y (w.bit - count)
    let dst := sext w (l ||| r)
    let dst2 ← if count = 1 then some (sext w x) else do
      let l ← hostShl x (count - 1)
      let r ← hostShr y (w.bit - (count - 1))
      some (sext w (l ||| r))
    return ({ s with cc := { s.cc with src1, dst, dst2, op := .shld, mask := logicMask } }, dst)
  else return (s, x)

def shrdHelper (w : Width) (x y c : Word) (s : LazyFlags) : Option (LazyFlags × Word) := do
  let count := c &&& 0x1f
  if count ≠ 0 then
    let (x, y, count) := if w.bit < count then (y, x, count - w.bit) else (x, y, count)
    let src1 := sext w x
    let r ← hostShr x count
    let l ← hostShl y (w.bit - count)
    let dst := sext w (r ||| l)
    let dst2 ← if count = 1 then some (sext w x) else do
      let r ← hostShr x (count - 1)
      let l ← hostShl y (w.bit - (count - 1))
      some (sext w (r ||| l))
    return ({ s with cc := { s.cc with src1, dst, dst2, op := .shrd, mask := logicMask } }, dst)
  else return (s, x)

end LazyFlags

inductive ShiftOp where
  | shl
  | shr
  | sar
  | rol
  | ror
  | rcl
  | rcr
  | shld
  | shrd
  deriving DecidableEq, Repr

def ShiftOp.HasForm : ShiftOp → Width → Prop
  | shld, .b8 | shrd, .b8 => False
  | _, _ => True

/-- The macro of an operation and a width; `y` is the second register of SHLD and SHRD. -/
def ShiftOp.helper (op : ShiftOp) (w : Width) (x y b : Word) (s : LazyFlags) :
    Option (LazyFlags × Word) :=
  match op with
  | shl => s.shlHelper w x b
  | shr => s.shrHelper w x b
  | sar => s.sarHelper w x b
  | rol => s.rolHelper w x b
  | ror => s.rorHelper w x b
  | rcl => s.rclHelper w x b
  | rcr => s.rcrHelper w x b
  | shld => s.shldHelper w x y b
  | shrd => s.shrdHelper w x y b

structure FlagSet (α : Type) where
  cf : α
  pf : α
  af : α
  zf : α
  sf : α
  of : α
  deriving DecidableEq, Repr

/-- What the `get_*` functions return. -/
def LazyFlags.shown (s : LazyFlags) : Option (FlagSet Bool) := do
  return ⟨← s.getCF, s.getPF, s.getAF, s.getZF, s.getSF, ← s.getOF⟩

/-- `none` is what the definition leaves undefined. -/
structure Shifted (n : Nat) where
  result : Option (BitVec n)
  flags : FlagSet (Option Bool)

namespace Shifted

variable {n : Nat}

def same (x : BitVec n) (e : FlagSet Bool) : Shifted n where
  result := some x
  flags := ⟨some e.cf, some e.pf, some e.af, some e.zf, some e.sf, some e.of⟩

def undefined : Shifted n where
  result := none
  flags := ⟨none, none, none, none, none, none⟩

def shift (r : BitVec n) (cf of : Option Bool) : Shifted n where
  result := some r
  flags := ⟨cf, some (EFlags.evenParity r), none, some (decide (r = 0)), some r.msb, of⟩

def rotate (e : FlagSet Bool) (r : BitVec n) (cf : Bool) (of : Option Bool) : Shifted n where
  result := some r
  flags := ⟨some cf, some e.pf, some e.af, some e.zf, some e.sf, of⟩

end Shifted

def byOne (count : Nat) (of : Bool) : Option Bool := if count = 1 then some of else none

/-- The operation by a count from 1 to 31. -/
def ShiftOp.shifted {n : Nat} (e : FlagSet Bool) (x y : BitVec n) (count : Nat) :
    ShiftOp → Shifted n
  | shl =>
    let r := x <<< count
    .shift r (if count < n then some (x.getLsbD (n - count)) else none)
      (byOne count (r.msb ^^ x.getLsbD (n - count)))
  | shr =>
    .shift (x >>> count) (if count < n then some (x.getLsbD (count - 1)) else none)
      (byOne count x.msb)
  | sar =>
    .shift (x.sshiftRight count) (some ((x.sshiftRight (count - 1)).getLsbD 0)) (byOne count false)
  | rol =>
    let r := x.rotateLeft count
    .rotate e r (r.getLsbD 0) (byOne count (r.msb ^^ r.getLsbD 0))
  | ror =>
    let r := x.rotateRight count
    .rotate e r r.msb (byOne count (r.msb ^^ r.getLsbD (n - 2)))
  | rcl =>
    -- the carry is bit `n` of what rotates
    let r := (BitVec.cons e.cf x).rotateLeft count
    .rotate e (r.setWidth n) r.msb (byOne count ((r.setWidth n).msb ^^ r.msb))
  | rcr =>
    let r := (BitVec.cons e.cf x).rotateRight count
    .rotate e (r.setWidth n) r.msb (byOne count (x.msb ^^ e.cf))
  | shld =>
    if count ≤ n then
      let r := ((x ++ y) <<< count >>> n).setWidth n
      .shift r (some (x.getLsbD (n - count))) (byOne count (x.msb ^^ r.msb))
    else .undefined
  | shrd =>
    if count ≤ n then
      let r := ((y ++ x) >>> count).setWidth n
      .shift r (some (x.getLsbD (count - 1))) (byOne count (x.msb ^^ r.msb))
    else .undefined

/-- The count is masked to 5 bits; by 0, nothing changes. -/
def ShiftOp.eager {n : Nat} (op : ShiftOp) (e : FlagSet Bool) (x y : BitVec n) (b : Word) :
    Shifted n :=
  if b.toNat % 32 = 0 then .same x e else op.shifted e x y (b.toNat % 32)

/-- The flags that are defined are as they should be. -/
structure FlagSet.Allows (f : FlagSet (Option Bool)) (e : FlagSet Bool) : Prop where
  cf : ∀ b, f.cf = some b → e.cf = b
  pf : ∀ b, f.pf = some b → e.pf = b
  af : ∀ b, f.af = some b → e.af = b
  zf : ∀ b, f.zf = some b → e.zf = b
  sf : ∀ b, f.sf = some b → e.sf = b
  of : ∀ b, f.of = some b → e.of = b

/-- The helper ends, without an undefined shift, with the result and the flags of `f`. -/
def Shifted.Follows {w : Width} (f : Shifted w.bits) (out : Option (LazyFlags × Word)) : Prop :=
  ∃ s' r e', out = some (s', r) ∧ (∀ v, f.result = some v → r.setWidth w.bits = v) ∧
    s'.shown = some e' ∧ f.flags.Allows e'

/-- The helper does what the definition says. -/
def ShiftOp.Right (op : ShiftOp) (w : Width) (x y : BitVec w.bits) (b : Word) (s : LazyFlags)
    (e : FlagSet Bool) : Prop :=
  (op.eager e x y b).Follows (op.helper w (x.setWidth 32) (y.setWidth 32) b s)

end Winspire.Cpu
