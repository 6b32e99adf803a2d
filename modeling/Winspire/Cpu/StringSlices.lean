import Winspire.Cpu.RepStrings

/-!
# Slices of string instructions

A helper that yields is entered again until it does not. With `rep_yield` clear it runs through.
-/

namespace Winspire.Cpu

open Faulting Pages

set_option autoImplicit false

inductive StringOp where
  | movs
  | stos
  | lods
  | scas
  | cmps
  deriving DecidableEq, Repr

def StringOp.helper (op : StringOp) (slice : Nat) (w : Width) (a16 : Bool) (seg : SegReg)
    (rep : Rep) : M Bool :=
  match op with
  | .movs => movsHelper slice w a16 seg rep
  | .stos => stosHelper slice w a16 rep
  | .lods => lodsHelper slice w a16 seg rep
  | .scas => scasHelper slice w a16 rep
  | .cmps => cmpsHelper slice w a16 seg rep

/-- The same bytes are decoded before each slice, so `next_ip` is behind them again. `true` if it
would still yield. -/
def resume (helper : M Bool) : Nat → M Bool
  | 0 => return true
  | rounds + 1 => do
    let s ← get
    if ← helper then
      modify fun t => { t with nextIp := s.nextIp }
      resume helper rounds
    else return false

/-- With `rep_yield` clear. -/
def CPUI386.noYield (s : CPUI386) : CPUI386 := s.outer id id fun _ => false

section Resume

variable {a16 : Bool} {slice rounds : Nat} {x : M Unit} {helper : M Bool} {s t : CPUI386}
  {R F : CPUI386 → CPUI386 → Prop} {P : CPUI386 → Prop}

/-- A slice moves the count by what it does. -/
def SliceBound (slice : Nat) (a16 : Bool) (helper : M Bool) (s : CPUI386) : Prop :=
  ∀ b t, helper s = .ok b t → lregA a16 s 1 ≠ 0 →
    (lregA a16 t 1).toNat < (lregA a16 s 1).toNat ∧
      (lregA a16 s 1).toNat ≤ (lregA a16 t 1).toNat + slice

/-- In slices and in one go, from one state to states that `R` compares and faults that `F`
compares. -/
def SlicesAgree (R F : CPUI386 → CPUI386 → Prop) (slice : Nat) (a16 : Bool) (helper : M Bool)
    (s : CPUI386) : Prop :=
  (∀ rounds, (lregA a16 s 1).toNat < rounds →
    ((resume helper rounds s).map CPUI386.noYield).Rel R F (helper s.noYield)) ∧
  SliceBound slice a16 helper s

end Resume

section Bulk

variable {loose deaf back : Bool} {s t : CPUI386} {w : Width} {a16 : Bool} {seg : SegReg}
  {slice : Nat} {ms md : OptAddr}

/-- The elements of MOVS as the chunks run them, both operands translated before the load. -/
def MovsSlices (loose deaf : Bool) (w : Width) (a16 : Bool) (seg : SegReg) (s : CPUI386) : Prop :=
  Along (lregA a16 s 1).toNat (movsAhead w a16 seg (s.dir w))
    (MovsRound loose deaf w a16 seg (hasBit s.flags DF)) s

end Bulk

section Lods

variable {s t : CPUI386} {w : Width} {a16 : Bool} {seg : SegReg} {slice : Nat}
  {ip : Word → Word} {yield : Bool → Bool}

/-- What loading the operands of an element leaves alone. -/
structure Loaded (s s' : CPUI386) : Prop where
  aligned : s'.Aligned
  flags : s'.flags = s.flags
  count : s'.gpr 1 = s.gpr 1
  value : s'.gpr 0 = s.gpr 0

theorem Loaded.trans {u : CPUI386} (h : Loaded s t) (h' : Loaded t u) : Loaded s u where
  aligned := h'.aligned
  flags := h'.flags.trans h.flags
  count := h'.count.trans h.count
  value := h'.value.trans h.value

end Lods

section Compare

variable {s t : CPUI386} {w : Width} {a16 : Bool} {rep : Rep} {seg : SegReg} {slice : Nat}
  {pair : M (Word × Word)}

end Compare

section All

variable {loose deaf : Bool} {s : CPUI386} {op : StringOp} {w : Width} {a16 : Bool} {rep : Rep}
  {seg : SegReg} {slice : Nat}

/-- What the elements must be; LODS, SCAS and CMPS go one by one in any case. -/
def StringOp.Fits (op : StringOp) (loose deaf : Bool) (w : Width) (a16 : Bool) (seg : SegReg)
    (s : CPUI386) : Prop :=
  match op with
  | .movs => Fresh loose s ∧ MovsSlices loose deaf w a16 seg s
  | .stos => StosFits w a16 s
  | .lods => True
  | .scas => True
  | .cmps => True

theorem SlicesAgree.mono {R F R' F' : CPUI386 → CPUI386 → Prop} {helper helper' : M Bool}
    (hR : ∀ s t, R s t → R' s t) (hF : ∀ s t, F s t → F' s t)
    (h : SlicesAgree R F slice a16 helper s) (he : helper' = helper) :
    SlicesAgree R' F' slice a16 helper' s := by
  rw [he]
  exact ⟨fun rounds hrounds => (h.1 rounds hrounds).mono hR hF, h.2⟩

end All

end Winspire.Cpu
