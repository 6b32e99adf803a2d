import Winspire.Cpu.Backstage
import Winspire.Cpu.Bounds
import Winspire.Cpu.Operands
import Winspire.Cpu.StringOps

/-!
# Division

`IDIVb` to `DIVd` and `__AAM_helper` of i386.c. The host divides before the quotient is checked,
and what it must not divide ends the program.
-/

namespace Winspire.Cpu

open Faulting

set_option autoImplicit false

def hostSdiv {n : Nat} (x y : BitVec n) : M (BitVec n) :=
  if y = 0 ∨ (x = BitVec.intMin n ∧ y = -1) then stop .aborted else pure (x.sdiv y)

def hostSrem {n : Nat} (x y : BitVec n) : M (BitVec n) :=
  if y = 0 ∨ (x = BitVec.intMin n ∧ y = -1) then stop .aborted else pure (x.srem y)

def hostUdiv {n : Nat} (x y : BitVec n) : M (BitVec n) :=
  if y = 0 then stop .aborted else pure (x / y)

def hostUmod {n : Nat} (x y : BitVec n) : M (BitVec n) :=
  if y = 0 then stop .aborted else pure (x % y)

/-- The text of `IDIVb` to `IDIVd`: the dividend has `n` bits, `hi` and `lo` bound the quotient,
and the remainder goes to register `r`. -/
def IDIV {n : Nat} (w : Width) (dividend : CPUI386 → BitVec n) (hi lo : BitVec n) (r : Fin 8)
    (a : RmOperand) : M Unit := do
  let src1 ← gets dividend
  let src2 := ((← a.load w).setWidth w.bits).signExtend n
  if src2 = 0 then throw0 exDE
  else do
    let res ← hostSdiv src1 src2
    if hi.slt res ∨ res.slt lo then throw0 exDE
    else do
      sregW 0 (res.setWidth 32) w
      sregW r ((← hostSrem src1 src2).setWidth 32) w

/-- The text of `DIVb` to `DIVd`; `bypass` is for the tests of old processors. -/
def DIV {n : Nat} (w : Width) (dividend : CPUI386 → BitVec n) (hi : BitVec n) (r : Fin 8)
    (bypass : BitVec n → BitVec n → LazyFlags → LazyFlags) (a : RmOperand) : M Unit := do
  let src1 ← gets dividend
  let src2 := (← a.load w).setWidth n
  if src2 = 0 then throw0 exDE
  else do
    let res ← hostUdiv src1 src2
    if hi < res then throw0 exDE
    else do
      modify fun s => { s with toLazyFlags := bypass src1 src2 s.toLazyFlags }
      sregW 0 (res.setWidth 32) w
      sregW r ((← hostUmod src1 src2).setWidth 32) w

def dividend8 (s : CPUI386) : BitVec 16 := lreg16 s 0

def dividend16 (s : CPUI386) : Word := (lreg16 s 0).setWidth 32 ||| (lreg16 s 2).setWidth 32 <<< 16

def dividend32 (s : CPUI386) : BitVec 64 :=
  (lreg32 s 2).setWidth 64 <<< 32 ||| (lreg32 s 0).setWidth 64

def IDIVb : RmOperand → M Unit := IDIV .b8 (fun s => (dividend8 s).signExtend 32) 127 (-128) 4

def IDIVw : RmOperand → M Unit := IDIV .b16 dividend16 32767 (-32768) 2

def IDIVd : RmOperand → M Unit := IDIV .b32 dividend32 2147483647 (-2147483648) 2

def cyrixBypass (src1 src2 : Word) (s : LazyFlags) : LazyFlags :=
  if src1 = 0x5 ∧ src2 = 0x2 then
    { s with cc := { s.cc with mask := s.cc.mask &&& ~~~ZF }, flags := s.flags ||| ZF }
  else s

/-- The NexGen 0x5555/2 test. -/
def nexgenBypass (src1 src2 : Word) (s : LazyFlags) : LazyFlags :=
  if src1 = 0x5555 ∧ src2 = 0x2 then
    { s with cc := { s.cc with mask := s.cc.mask &&& ~~~ZF }, flags := s.flags &&& ~~~ZF }
  else s

def DIVb : RmOperand → M Unit := DIV .b8 (fun s => (dividend8 s).setWidth 32) 0xff 4 cyrixBypass

def DIVw : RmOperand → M Unit := DIV .b16 dividend16 0xffff 2 nexgenBypass

def DIVd : RmOperand → M Unit := DIV .b32 dividend32 0xffffffff 2 (fun _ _ s => s)

def AAM (i : RmOperand) : M Unit := do
  let imm := (← i.load .b8).setWidth 8
  let al := lreg8 (← get) 0
  let res ← hostUmod al imm
  sreg8 4 ((← hostUdiv al imm).setWidth 32)
  sreg8 0 (res.setWidth 32)
  modify fun s => { s with
    flags := s.flags &&& ~~~(OF ||| AF ||| CF)
    cc := { s.cc with dst := sext .b8 (res.setWidth 32), mask := ZF ||| SF ||| PF } }

inductive Division where
  | idivb
  | idivw
  | idivd
  | divb
  | divw
  | divd
  | aam
  deriving DecidableEq, Repr

namespace Division

def width : Division → Width
  | idivb | divb | aam => .b8
  | idivw | divw => .b16
  | idivd | divd => .b32

def exec : Division → RmOperand → M Unit
  | idivb => IDIVb
  | idivw => IDIVw
  | idivd => IDIVd
  | divb => DIVb
  | divw => DIVw
  | divd => DIVd
  | aam => AAM

def dividend (i : Division) (s : CPUI386) : Int :=
  match i with
  | idivb => (lreg16 s 0).toInt
  | idivw => (lreg16 s 2 ++ lreg16 s 0).toInt
  | idivd => (lreg32 s 2 ++ lreg32 s 0).toInt
  | divb => (lreg16 s 0).toNat
  | divw => (lreg16 s 2 ++ lreg16 s 0).toNat
  | divd => (lreg32 s 2 ++ lreg32 s 0).toNat
  | aam => (lreg8 s 0).toNat

/-- The operand `v` as a number. -/
def divisor (i : Division) (v : Word) : Int :=
  match i with
  | idivb | idivw | idivd => (v.setWidth i.width.bits).toInt
  | divb | divw | divd => v.toNat
  | aam => (v.setWidth 8).toNat

def Fits (i : Division) (q : Int) : Prop :=
  match i with
  | idivb | idivw | idivd => -2 ^ (i.width.bits - 1) ≤ q ∧ q < 2 ^ (i.width.bits - 1)
  | divb | divw | divd | aam => 0 ≤ q ∧ q < 2 ^ i.width.bits

/-- The registers of the quotient and of the remainder. -/
def places : Division → Fin 8 × Fin 8
  | idivb | divb => (0, 4)
  | idivw | divw | idivd | divd => (0, 2)
  | aam => (4, 0)

def put (i : Division) (q r : Int) : M Unit := do
  sregW i.places.1 (BitVec.ofInt 32 q) i.width
  sregW i.places.2 (BitVec.ofInt 32 r) i.width

/-- `v` is the operand and `t` the state in which it has been read. -/
structure Exact (i : Division) (a : RmOperand) (v : Word) (s t : CPUI386) : Prop where
  refuses : i.divisor v = 0 ∨ ¬ i.Fits ((i.dividend s).tdiv (i.divisor v)) →
    i.exec a s = .fault { t with excno := exDE } ∧ t.gpr = s.gpr
  divides : i.divisor v ≠ 0 → i.Fits ((i.dividend s).tdiv (i.divisor v)) →
    ∃ l, i.exec a s = i.put ((i.dividend s).tdiv (i.divisor v))
      ((i.dividend s).tmod (i.divisor v)) { t with toLazyFlags := l }

/-- The operands the host must not divide. -/
def Undefined (i : Division) (n d : Int) : Prop :=
  match i with
  | idivw => n = -2 ^ 31 ∧ d = -1
  | idivd => n = -2 ^ 63 ∧ d = -1
  | aam => d = 0
  | _ => False

end Division

section Host

variable {n : Nat} {x y : BitVec n}

theorem hostSdiv_eq (hy : y ≠ 0) (h : ¬ (x = BitVec.intMin n ∧ y = -1)) :
    hostSdiv x y = pure (x.sdiv y) := if_neg (not_or_intro hy h)

theorem hostSrem_eq (hy : y ≠ 0) (h : ¬ (x = BitVec.intMin n ∧ y = -1)) :
    hostSrem x y = pure (x.srem y) := if_neg (not_or_intro hy h)

theorem hostSdiv_undefined (hx : x = BitVec.intMin n) (hy : y = -1) :
    hostSdiv x y = stop .aborted := if_pos (Or.inr ⟨hx, hy⟩)

theorem hostUdiv_eq (hy : y ≠ 0) : hostUdiv x y = pure (x / y) := if_neg hy

theorem hostUmod_eq (hy : y ≠ 0) : hostUmod x y = pure (x % y) := if_neg hy

/-- The low bits of a result are those of the number it stands for. -/
theorem setWidth_of_toInt (hn : 32 ≤ n) {q : Int} (h : x.toInt = q) :
    x.setWidth 32 = BitVec.ofInt 32 q := by
  rw [← h, ← BitVec.signExtend_eq_setWidth_of_le x hn]
  rfl

theorem setWidth_of_toNat {q : Nat} (h : x.toNat = q) : x.setWidth 32 = BitVec.ofInt 32 q := by
  rw [← h, BitVec.ofInt_natCast, BitVec.ofNat_toNat]

end Host

theorem RmOperand.load_gpr {w : Width} {a : RmOperand} {v : Word} {s t : CPUI386}
    (h : a.load w s = .ok v t) : t.gpr = s.gpr := by
  cases a with
  | reg i => cases h; rfl
  | addr meml =>
    have hb := wp_ok (backstage_loadW meml w s) h
    unfold Backstage at hb
    rw [hb]
  | imm v => cases h; rfl

theorem dividend16_eq (s : CPUI386) : dividend16 s = lreg16 s 2 ++ lreg16 s 0 := by
  have h := @BitVec.setWidth_append_eq_shiftLeft_setWidth_or 16 16 32 (lreg16 s 2) (lreg16 s 0)
  rw [BitVec.setWidth_eq] at h
  rw [h, dividend16, BitVec.or_comm]

theorem dividend32_eq (s : CPUI386) : dividend32 s = lreg32 s 2 ++ lreg32 s 0 := by
  have h := @BitVec.setWidth_append_eq_shiftLeft_setWidth_or 32 32 64 (lreg32 s 2) (lreg32 s 0)
  rw [BitVec.setWidth_eq] at h
  exact h.symm

section Signed

variable {n : Nat} {w : Width} {dividend : CPUI386 → BitVec n} {hi lo : BitVec n} {r : Fin 8}
  {a : RmOperand} {v : Word} {s t : CPUI386}

theorem toInt_divisor (hw : w.bits ≤ n) :
    ((v.setWidth w.bits).signExtend n).toInt = (v.setWidth w.bits).toInt :=
  BitVec.toInt_signExtend_of_le hw

theorem divisor_eq_zero_iff (hw : w.bits ≤ n) :
    (v.setWidth w.bits).signExtend n = 0 ↔ (v.setWidth w.bits).toInt = 0 := by
  rw [← BitVec.toInt_inj, toInt_divisor hw, BitVec.ofNat_eq_ofNat, BitVec.toInt_zero]

theorem divisor_eq_neg_one_iff (hw : w.bits ≤ n) :
    (v.setWidth w.bits).signExtend n = -1 ↔ (v.setWidth w.bits).toInt = -1 := by
  have hn : 0 < n := by have := w.bits_pos; omega
  have h1 : (-1 : BitVec n).toInt = -1 := by
    rw [BitVec.ofNat_eq_ofNat, BitVec.neg_one_eq_allOnes, BitVec.toInt_allOnes, if_pos hn]
  rw [← BitVec.toInt_inj, toInt_divisor hw, h1]

theorem IDIV_zero (hw : w.bits ≤ n) (hl : a.load w s = .ok v t)
    (h0 : (v.setWidth w.bits).toInt = 0) :
    IDIV w dividend hi lo r a s = .fault { t with excno := exDE } := by
  unfold IDIV
  rw [gets_bind_run, bind_run_ok hl, if_pos ((divisor_eq_zero_iff hw).mpr h0)]
  rfl

theorem IDIV_undefined (hw : w.bits ≤ n) (hl : a.load w s = .ok v t)
    (hx : dividend s = BitVec.intMin n) (h1 : (v.setWidth w.bits).toInt = -1) :
    IDIV w dividend hi lo r a s = .stop .aborted := by
  have hne : (v.setWidth w.bits).toInt ≠ 0 := by omega
  unfold IDIV
  rw [gets_bind_run, bind_run_ok hl, if_neg (fun h => hne ((divisor_eq_zero_iff hw).mp h)),
    hostSdiv_undefined hx ((divisor_eq_neg_one_iff hw).mpr h1)]
  rfl

/-- Where the host may divide, the quotient is checked and both results are stored. -/
theorem IDIV_defined (hn : 32 ≤ n) (hw : w.bits ≤ n) (hl : a.load w s = .ok v t)
    (h0 : (v.setWidth w.bits).toInt ≠ 0)
    (hd : ¬ (dividend s = BitVec.intMin n ∧ (v.setWidth w.bits).toInt = -1)) :
    IDIV w dividend hi lo r a s =
      if lo.toInt ≤ (dividend s).toInt.tdiv (v.setWidth w.bits).toInt ∧
          (dividend s).toInt.tdiv (v.setWidth w.bits).toInt ≤ hi.toInt then
        (do
          sregW 0 (BitVec.ofInt 32 ((dividend s).toInt.tdiv (v.setWidth w.bits).toInt)) w
          sregW r (BitVec.ofInt 32 ((dividend s).toInt.tmod (v.setWidth w.bits).toInt)) w) t
      else .fault { t with excno := exDE } := by
  have hy0 : (v.setWidth w.bits).signExtend n ≠ 0 := fun h => h0 ((divisor_eq_zero_iff hw).mp h)
  have hdef : ¬ (dividend s = BitVec.intMin n ∧ (v.setWidth w.bits).signExtend n = -1) :=
    fun h => hd ⟨h.1, (divisor_eq_neg_one_iff hw).mp h.2⟩
  have hq : ((dividend s).sdiv ((v.setWidth w.bits).signExtend n)).toInt =
      (dividend s).toInt.tdiv (v.setWidth w.bits).toInt := by
    rw [BitVec.toInt_sdiv_of_ne_or_ne _ _ (not_and_or.mp hdef), toInt_divisor hw]
  have hr : ((dividend s).srem ((v.setWidth w.bits).signExtend n)).toInt =
      (dividend s).toInt.tmod (v.setWidth w.bits).toInt := by
    rw [BitVec.toInt_srem, toInt_divisor hw]
  have hcheck : (hi.slt ((dividend s).sdiv ((v.setWidth w.bits).signExtend n)) ∨
      ((dividend s).sdiv ((v.setWidth w.bits).signExtend n)).slt lo) ↔
        ¬ (lo.toInt ≤ (dividend s).toInt.tdiv (v.setWidth w.bits).toInt ∧
          (dividend s).toInt.tdiv (v.setWidth w.bits).toInt ≤ hi.toInt) := by
    rw [BitVec.slt_iff_toInt_lt, BitVec.slt_iff_toInt_lt, hq]
    omega
  unfold IDIV
  rw [gets_bind_run, bind_run_ok hl, if_neg hy0, hostSdiv_eq hy0 hdef, hostSrem_eq hy0 hdef,
    pure_bind_run, setWidth_of_toInt hn hq]
  by_cases hfit : lo.toInt ≤ (dividend s).toInt.tdiv (v.setWidth w.bits).toInt ∧
      (dividend s).toInt.tdiv (v.setWidth w.bits).toInt ≤ hi.toInt
  · rw [if_pos hfit, if_neg (fun h => hcheck.mp h hfit), ← setWidth_of_toInt hn hr]
    rfl
  · rw [if_neg hfit, if_pos (hcheck.mpr hfit)]
    rfl

end Signed

section Unsigned

variable {n : Nat} {w : Width} {dividend : CPUI386 → BitVec n} {hi : BitVec n} {r : Fin 8}
  {bypass : BitVec n → BitVec n → LazyFlags → LazyFlags} {a : RmOperand} {v : Word}
  {s t : CPUI386}

theorem toNat_divisor (hn : 32 ≤ n) : (v.setWidth n).toNat = v.toNat :=
  BitVec.toNat_setWidth_of_le hn

theorem udivisor_eq_zero_iff (hn : 32 ≤ n) : v.setWidth n = 0 ↔ v.toNat = 0 := by
  rw [← BitVec.toNat_inj, toNat_divisor hn, BitVec.ofNat_eq_ofNat, BitVec.toNat_ofNat,
    Nat.zero_mod]

theorem DIV_zero (hn : 32 ≤ n) (hl : a.load w s = .ok v t) (h0 : v.toNat = 0) :
    DIV w dividend hi r bypass a s = .fault { t with excno := exDE } := by
  unfold DIV
  rw [gets_bind_run, bind_run_ok hl, if_pos ((udivisor_eq_zero_iff hn).mpr h0)]
  rfl

theorem DIV_nonzero (hn : 32 ≤ n) (hl : a.load w s = .ok v t) (h0 : v.toNat ≠ 0) :
    DIV w dividend hi r bypass a s =
      if (dividend s).toNat / v.toNat ≤ hi.toNat then
        (do
          sregW 0 (BitVec.ofInt 32 ((dividend s).toNat / v.toNat : Nat)) w
          sregW r (BitVec.ofInt 32 ((dividend s).toNat % v.toNat : Nat)) w)
          { t with toLazyFlags := bypass (dividend s) (v.setWidth n) t.toLazyFlags }
      else .fault { t with excno := exDE } := by
  have hy0 : v.setWidth n ≠ 0 := fun h => h0 ((udivisor_eq_zero_iff hn).mp h)
  have hq : (dividend s / v.setWidth n).toNat = (dividend s).toNat / v.toNat := by
    rw [BitVec.toNat_udiv, toNat_divisor hn]
  have hr : (dividend s % v.setWidth n).toNat = (dividend s).toNat % v.toNat := by
    rw [BitVec.toNat_umod, toNat_divisor hn]
  have hcheck : hi < dividend s / v.setWidth n ↔
      ¬ (dividend s).toNat / v.toNat ≤ hi.toNat := by
    rw [BitVec.lt_def, hq]
    exact Nat.not_le.symm
  unfold DIV
  rw [gets_bind_run, bind_run_ok hl, if_neg hy0, hostUdiv_eq hy0, hostUmod_eq hy0,
    pure_bind_run, setWidth_of_toNat hq]
  by_cases hfit : (dividend s).toNat / v.toNat ≤ hi.toNat
  · rw [if_pos hfit, if_neg (fun h => hcheck.mp h hfit), ← setWidth_of_toNat hr]
    rfl
  · rw [if_neg hfit, if_pos (hcheck.mpr hfit)]
    rfl

end Unsigned

theorem AAM_zero {a : RmOperand} {v : Word} {s t : CPUI386} (hl : a.load .b8 s = .ok v t)
    (h0 : v.setWidth 8 = 0) : AAM a s = .stop .aborted := by
  unfold AAM
  rw [bind_run_ok hl, get_bind_run, h0]
  rfl

theorem AAM_nonzero {a : RmOperand} {v : Word} {s t : CPUI386} (hl : a.load .b8 s = .ok v t)
    (h0 : v.setWidth 8 ≠ 0) :
    ∃ l, AAM a s =
      (do
        sreg8 4 (BitVec.ofInt 32 ((lreg8 t 0).toNat / (v.setWidth 8).toNat : Nat))
        sreg8 0 (BitVec.ofInt 32 ((lreg8 t 0).toNat % (v.setWidth 8).toNat : Nat)))
        { t with toLazyFlags := l } := by
  have hq : (lreg8 t 0 / v.setWidth 8).toNat = (lreg8 t 0).toNat / (v.setWidth 8).toNat :=
    BitVec.toNat_udiv
  have hr : (lreg8 t 0 % v.setWidth 8).toNat = (lreg8 t 0).toNat % (v.setWidth 8).toNat :=
    BitVec.toNat_umod
  rw [← setWidth_of_toNat hq, ← setWidth_of_toNat hr]
  unfold AAM
  rw [bind_run_ok hl, get_bind_run, hostUmod_eq h0, hostUdiv_eq h0]
  exact ⟨_, rfl⟩

namespace Division

variable {i : Division} {a : RmOperand} {v : Word} {s t : CPUI386}

theorem exact_signed {n : Nat} {dividend : CPUI386 → BitVec n} {hi lo : BitVec n} (hn : 32 ≤ n)
    (hw : i.width.bits ≤ n) (hl : a.load i.width s = .ok v t)
    (hexec : i.exec a s = IDIV i.width dividend hi lo i.places.2 a s) (hp : i.places.1 = 0)
    (hdiv : i.divisor v = (v.setWidth i.width.bits).toInt)
    (hx : i.dividend s = (dividend s).toInt)
    (hfits : ∀ q, i.Fits q ↔ lo.toInt ≤ q ∧ q ≤ hi.toInt)
    (hd : ¬ (dividend s = BitVec.intMin n ∧ i.divisor v = -1)) : i.Exact a v s t := by
  rw [hdiv] at hd
  constructor
  · intro h
    refine ⟨?_, RmOperand.load_gpr hl⟩
    by_cases h0 : (v.setWidth i.width.bits).toInt = 0
    · rw [hexec, IDIV_zero hw hl h0]
    · have hout := h.resolve_left (by rwa [hdiv])
      rw [hfits, hx, hdiv] at hout
      rw [hexec, IDIV_defined hn hw hl h0 hd, if_neg hout]
  · intro h0 hfit
    rw [hdiv] at h0
    rw [hfits, hx, hdiv] at hfit
    refine ⟨t.toLazyFlags, ?_⟩
    rw [hexec, IDIV_defined hn hw hl h0 hd, if_pos hfit, hx, hdiv]
    unfold put
    rw [hp]

theorem exact_unsigned {n : Nat} {dividend : CPUI386 → BitVec n} {hi : BitVec n}
    {bypass : BitVec n → BitVec n → LazyFlags → LazyFlags} (hn : 32 ≤ n)
    (hl : a.load i.width s = .ok v t)
    (hexec : i.exec a s = DIV i.width dividend hi i.places.2 bypass a s) (hp : i.places.1 = 0)
    (hdiv : i.divisor v = v.toNat) (hx : i.dividend s = (dividend s).toNat)
    (hfits : ∀ q : Nat, i.Fits q ↔ q ≤ hi.toNat) : i.Exact a v s t := by
  have hq : (i.dividend s).tdiv (i.divisor v) = ((dividend s).toNat / v.toNat : Nat) := by
    rw [hx, hdiv, Int.ofNat_tdiv]
  have hr : (i.dividend s).tmod (i.divisor v) = ((dividend s).toNat % v.toNat : Nat) := by
    rw [hx, hdiv, Int.ofNat_tmod]
  constructor
  · intro h
    refine ⟨?_, RmOperand.load_gpr hl⟩
    by_cases h0 : v.toNat = 0
    · rw [hexec, DIV_zero hn hl h0]
    · have hout := h.resolve_left (by rw [hdiv]; exact_mod_cast h0)
      rw [hq, hfits] at hout
      rw [hexec, DIV_nonzero hn hl h0, if_neg hout]
  · intro h0 hfit
    have hne : v.toNat ≠ 0 := by
      rw [hdiv] at h0
      exact_mod_cast h0
    rw [hq, hfits] at hfit
    refine ⟨bypass (dividend s) (v.setWidth n) t.toLazyFlags, ?_⟩
    rw [hexec, DIV_nonzero hn hl hne, if_pos hfit, hq, hr]
    unfold put
    rw [hp]

theorem exact_aam (hl : a.load .b8 s = .ok v t) (h0 : aam.divisor v ≠ 0) : aam.Exact a v s t := by
  have hv : v.setWidth 8 ≠ 0 := by
    intro h
    exact h0 (congrArg (fun x : Byte => (x.toNat : Int)) h)
  have hal : lreg8 t 0 = lreg8 s 0 := by
    unfold lreg8
    rw [RmOperand.load_gpr hl]
  have hle : (lreg8 s 0).toNat / (v.setWidth 8).toNat < 256 :=
    Nat.lt_of_le_of_lt (Nat.div_le_self _ _) (lreg8 s 0).isLt
  constructor
  · intro h
    have hq : (aam.dividend s).tdiv (aam.divisor v) =
        ((lreg8 s 0).toNat / (v.setWidth 8).toNat : Nat) := (Int.ofNat_tdiv _ _).symm
    have hfit : aam.Fits ((aam.dividend s).tdiv (aam.divisor v)) := by
      rw [hq]
      exact ⟨Int.natCast_nonneg _, Int.ofNat_lt.mpr hle⟩
    exact absurd hfit (h.resolve_left h0)
  · intro _ _
    obtain ⟨l, hrun⟩ := AAM_nonzero hl hv
    rw [hal, Int.ofNat_tdiv, Int.ofNat_tmod] at hrun
    exact ⟨l, hrun⟩

/-- What the host must not divide ends the program instead of raising #DE. -/
theorem undefined_stops (hl : a.load i.width s = .ok v t)
    (h : i.Undefined (i.dividend s) (i.divisor v)) : i.exec a s = .stop .aborted := by
  cases i with
  | idivw =>
    rcases h with ⟨hx, hd⟩
    have hmin : dividend16 s = BitVec.intMin 32 := by
      rw [dividend16_eq]
      exact BitVec.eq_of_toInt_eq hx
    exact IDIV_undefined (by decide) hl hmin hd
  | idivd =>
    rcases h with ⟨hx, hd⟩
    have hmin : dividend32 s = BitVec.intMin 64 := by
      rw [dividend32_eq]
      exact BitVec.eq_of_toInt_eq hx
    exact IDIV_undefined (by decide) hl hmin hd
  | aam =>
    have h0 : v.setWidth 8 = 0 := BitVec.eq_of_toNat_eq (Int.ofNat_inj.mp h)
    exact AAM_zero hl h0
  | idivb | divb | divw | divd => exact h.elim

theorem undefined_refused (h : i.Undefined (i.dividend s) (i.divisor v)) :
    i.divisor v = 0 ∨ ¬ i.Fits ((i.dividend s).tdiv (i.divisor v)) := by
  cases i with
  | idivw =>
    rcases h with ⟨hx, hd⟩
    rw [hx, hd]
    right
    unfold Fits
    decide
  | idivd =>
    rcases h with ⟨hx, hd⟩
    rw [hx, hd]
    right
    unfold Fits
    decide
  | aam => exact Or.inl h
  | idivb | divb | divw | divd => exact h.elim

theorem exact_of_defined (hl : a.load i.width s = .ok v t)
    (h : ¬ i.Undefined (i.dividend s) (i.divisor v)) : i.Exact a v s t := by
  cases i with
  | idivb =>
    have hx : ((dividend8 s).signExtend 32).toInt = (lreg16 s 0).toInt :=
      BitVec.toInt_signExtend_of_le (by decide)
    refine exact_signed (n := 32) (by decide) (by decide) hl rfl rfl rfl hx.symm ?_ ?_
    · intro q
      change -2 ^ 7 ≤ q ∧ q < 2 ^ 7 ↔ -128 ≤ q ∧ q ≤ 127
      omega
    · rintro ⟨hmin, -⟩
      have hlow := (lreg16 s 0).le_toInt
      rw [← hx, hmin] at hlow
      exact absurd hlow (by decide)
  | idivw =>
    have hx : (dividend16 s).toInt = (lreg16 s 2 ++ lreg16 s 0).toInt := by rw [dividend16_eq]
    refine exact_signed (n := 32) (by decide) (by decide) hl rfl rfl rfl hx.symm ?_ ?_
    · intro q
      change -2 ^ 15 ≤ q ∧ q < 2 ^ 15 ↔ -32768 ≤ q ∧ q ≤ 32767
      omega
    · rintro ⟨hmin, hd⟩
      exact h ⟨hx.symm.trans (congrArg BitVec.toInt hmin), hd⟩
  | idivd =>
    have hx : (dividend32 s).toInt = (lreg32 s 2 ++ lreg32 s 0).toInt := by rw [dividend32_eq]
    refine exact_signed (n := 64) (by decide) (by decide) hl rfl rfl rfl hx.symm ?_ ?_
    · intro q
      change -2 ^ 31 ≤ q ∧ q < 2 ^ 31 ↔ -2147483648 ≤ q ∧ q ≤ 2147483647
      omega
    · rintro ⟨hmin, hd⟩
      exact h ⟨hx.symm.trans (congrArg BitVec.toInt hmin), hd⟩
  | divb =>
    have hx : ((dividend8 s).setWidth 32).toNat = (lreg16 s 0).toNat :=
      BitVec.toNat_setWidth_of_le (by decide)
    refine exact_unsigned (n := 32) (by decide) hl rfl rfl rfl (Int.ofNat_inj.mpr hx.symm) ?_
    intro q
    change (0 : Int) ≤ q ∧ (q : Int) < 2 ^ 8 ↔ q ≤ 255
    omega
  | divw =>
    have hx : (dividend16 s).toNat = (lreg16 s 2 ++ lreg16 s 0).toNat := by rw [dividend16_eq]
    refine exact_unsigned (n := 32) (by decide) hl rfl rfl rfl (Int.ofNat_inj.mpr hx.symm) ?_
    intro q
    change (0 : Int) ≤ q ∧ (q : Int) < 2 ^ 16 ↔ q ≤ 65535
    omega
  | divd =>
    have hx : (dividend32 s).toNat = (lreg32 s 2 ++ lreg32 s 0).toNat := by rw [dividend32_eq]
    have hexec : divd.exec a s = DIV .b32 dividend32 0xffffffff 2 (fun _ _ l => l) a s := rfl
    refine exact_unsigned (by decide) hl hexec rfl rfl (Int.ofNat_inj.mpr hx.symm) ?_
    intro q
    change (0 : Int) ≤ q ∧ (q : Int) < 2 ^ 32 ↔ q ≤ 4294967295
    omega
  | aam => exact exact_aam hl h

/-- Division is right exactly where the host may do it. -/
theorem exact_iff (i : Division) (hl : a.load i.width s = .ok v t) :
    i.Exact a v s t ↔ ¬ i.Undefined (i.dividend s) (i.divisor v) := by
  constructor
  · intro h hu
    have hfault := (h.refuses (undefined_refused hu)).1
    rw [undefined_stops hl hu] at hfault
    exact nomatch hfault
  · exact exact_of_defined hl

/-- 100 in AX, and -7 in BX. -/
def dividingCpu : CPUI386 := (smallCpu.setGpr 0 100).setGpr 3 0xfff9

theorem exact_iff_bx : idivw.Exact (.reg 3) 0xfff9 dividingCpu dividingCpu :=
  (exact_iff idivw rfl).mpr fun h => absurd h.1 (by decide)

/-- `aam 0` does not raise #DE. -/
theorem not_exact : ¬ ∀ (i : Division) (a : RmOperand) (v : Word) (s t : CPUI386),
    a.load i.width s = .ok v t → i.Exact a v s t := by
  intro h
  have hfault := ((h aam (.imm 0) 0 smallCpu smallCpu rfl).refuses (Or.inl rfl)).1
  exact nomatch hfault

end Division

end Winspire.Cpu
