import Winspire.Cpu.Outer
import Winspire.Cpu.Held
import Winspire.Cpu.StringOps

/-!
# Elements of strings

What one element does to the registers, and what a run of elements in one page does to memory.
-/

namespace Winspire.Cpu

open Faulting Pages

set_option autoImplicit false

/-- The part of a register that an address uses. -/
def idx (a16 : Bool) (r : Word) : Word := if a16 then (r.setWidth 16).setWidth 32 else r

/-- `reg += d`, in the low half alone for 16-bit addresses. -/
def addA (a16 : Bool) (r d : Word) : Word :=
  if a16 then (r &&& ~~~(0xffff : Word)) ||| ((idx a16 r + d) &&& 0xffff) else idx a16 r + d

section Index

variable {a16 : Bool} {r d e : Word}

theorem lregA_eq (a16 : Bool) (s : CPUI386) (i : Fin 8) : lregA a16 s i = idx a16 (s.gpr i) := rfl

theorem and_ffff (x : Word) : x &&& 0xffff = (x.setWidth 16).setWidth 32 := by
  apply BitVec.eq_of_toNat_eq
  rw [BitVec.toNat_and, BitVec.toNat_setWidth, BitVec.toNat_setWidth]
  have h : x.toNat &&& 65535 = x.toNat % 2 ^ 16 := Nat.and_two_pow_sub_one_eq_mod x.toNat 16
  refine h.trans ?_
  omega

end Index

/-- `dir` of the element size. -/
def stride (w : Width) (back : Bool) : Word := if back then -w.size else w.size

def Lined (w : Width) (la : Word) : Prop := la.toNat % (w.bits / 8) = 0

section Stride

variable {w : Width} {back : Bool} {la : Word}

theorem offset_eq_mod (a : Word) : offset 12 a = a.toNat % 4096 := rfl

theorem pageCount_eq (w : Width) (back : Bool) (la : Word) :
    pageCount w back la = if back then 1 + la.toNat % 4096 / (w.bits / 8)
      else (4096 - la.toNat % 4096) / (w.bits / 8) := by
  have h : (la &&& 4095).toNat = la.toNat % 4096 := (offset_and la).symm
  unfold pageCount
  rw [h]

theorem Lined.not_straddles (h : Lined w la) : ¬ Straddles la (w.bits / 8) := by
  unfold Lined at h
  rw [straddles_iff _ (by cases w <;> decide), offset_eq_mod]
  cases w <;> simp only [Width.bits] at h ⊢ <;> omega

theorem size_toNat (w : Width) : w.size.toNat = w.bits / 8 := by
  cases w with
  | b8 => rfl
  | b16 => rfl
  | b32 => rfl

theorem add_stride_toNat (hl : Lined w la) (h : 1 < pageCount w back la) :
    (la + stride w back).toNat =
      if back then la.toNat - w.bits / 8 else la.toNat + w.bits / 8 := by
  have hlt := la.isLt
  have hw := size_toNat w
  unfold Lined at hl
  rw [pageCount_eq] at h
  unfold stride
  cases back with
  | true =>
    rw [if_pos rfl] at h
    simp only [if_true]
    cases w <;> simp only [Width.bits] at hl h hw ⊢ <;> bv_omega
  | false =>
    rw [if_neg (by decide)] at h
    simp only [Bool.false_eq_true, if_false]
    cases w <;> simp only [Width.bits] at hl h hw ⊢ <;> bv_omega

theorem Lined.step (hl : Lined w la) (h : 1 < pageCount w back la) : Lined w (la + stride w back) := by
  have ht := add_stride_toNat hl h
  unfold Lined at hl ⊢
  rw [ht]
  rw [pageCount_eq] at h
  cases back <;> cases w <;> simp only [Width.bits, Bool.false_eq_true, if_true, if_false] at hl h ⊢ <;>
    omega

theorem page_step (hl : Lined w la) (h : 1 < pageCount w back la) :
    la >>> 12 = (la + stride w back) >>> 12 := by
  apply lshr_eq_of_page
  unfold page
  have ht := add_stride_toNat hl h
  unfold Lined at hl
  rw [ht]
  rw [pageCount_eq] at h
  cases back <;> cases w <;> simp only [Width.bits, Bool.false_eq_true, if_true, if_false] at hl h ⊢ <;>
    omega

end Stride

def stosElem (w : Width) (a16 : Bool) (ax dir : Word) : M Unit := do
  stdi w a16 ax dir
  decCx a16

/-- The index registers by `d` and the count by `c`; `both` for SI with DI. -/
def advanceRegs (both a16 : Bool) (d c : Word) (gpr : Fin 8 → Word) (i : Fin 8) : Word :=
  if i = 1 then addA a16 (gpr 1) c
  else if i = 7 ∨ both = true ∧ i = 6 then addA a16 (gpr i) d
  else gpr i

/-- `advanceRegs` on a machine. -/
def CPUI386.advanced (both a16 : Bool) (d c : Word) (s : CPUI386) : CPUI386 :=
  s.outer (advanceRegs both a16 d c) id id

section Advance

variable {both a16 : Bool} {s : CPUI386}

end Advance

section Touched

variable {s s' : CPUI386} {w : Width} {rwm : Nat} {seg : SegReg} {addr : Word} {m : OptAddr}

theorem CPUI386.Settled.touched (h : s.Settled w rwm seg addr m) (ht : Touches s s') :
    s'.Settled w rwm seg addr m := by
  unfold Touches at ht
  apply h.congr <;> rw [ht]

theorem CPUI386.Settled.advanced (h : s.Settled w rwm seg addr m) (both a16 : Bool) (d c : Word) :
    (s.advanced both a16 d c).Settled w rwm seg addr m := h.congr rfl rfl rfl rfl rfl

theorem Touches.aligned (ht : Touches s s') (ha : s.Aligned) : s'.Aligned := by
  unfold Touches at ht
  apply ha.of_caches <;> rw [ht]

theorem Touches.gpr (ht : Touches s s') : s'.gpr = s.gpr := by
  unfold Touches at ht
  rw [ht]

/-- An element whose operands are translated. -/
def movsMove (w : Width) (a16 : Bool) (dir : Word) (ms md : OptAddr) : M Unit := do
  let v ← loadW ms w
  storeW md v w
  modify (CPUI386.advanced true a16 dir (-1))

/-- An element in the order of a chunk: both operands are translated before the load. -/
def movsAhead (w : Width) (a16 : Bool) (seg : SegReg) (dir : Word) : M Unit := do
  let s ← get
  let memls ← translateW w 1 seg (lregA a16 s 6)
  let memld ← translateW w 2 .es (lregA a16 s 7)
  movsMove w a16 dir memls memld

end Touched

section Runs

variable {gpr : (Fin 8 → Word) → Fin 8 → Word} {ip : Word → Word} {yield : Bool → Bool}

end Runs

/-- The index takes a step without a wrap. -/
def NoWrap (a16 : Bool) (dir r : Word) : Prop := idx a16 (addA a16 r dir) = idx a16 r + dir

/-- The linear address of the element at an index register. -/
def CPUI386.elemAddr (s : CPUI386) (a16 : Bool) (seg : SegReg) (i : Fin 8) : Word :=
  (s.seg seg).base + lregA a16 s i

/-- From an element to the next in the same pages, no index wraps. -/
def MovsSteady (w : Width) (a16 : Bool) (seg : SegReg) (back : Bool) (s : CPUI386) : Prop :=
  Lined w (s.elemAddr a16 seg 6) → Lined w (s.elemAddr a16 .es 7) → 1 < (lregA a16 s 1).toNat →
    1 < pageCount w back (s.elemAddr a16 seg 6) → 1 < pageCount w back (s.elemAddr a16 .es 7) →
      NoWrap a16 (stride w back) (s.gpr 6) ∧ NoWrap a16 (stride w back) (s.gpr 7)

def StosSteady (w : Width) (a16 : Bool) (back : Bool) (s : CPUI386) : Prop :=
  Lined w (s.elemAddr a16 .es 7) → 1 < (lregA a16 s 1).toNat →
    1 < pageCount w back (s.elemAddr a16 .es 7) → NoWrap a16 (stride w back) (s.gpr 7)

/-- What holds of every state that `k < n` elements lead to. -/
def Along (n : Nat) (x : M Unit) (P : CPUI386 → Prop) (s : CPUI386) : Prop :=
  ∀ k < n, ∀ t, repeatM k x s = .ok () t → P t

section Along

variable {n : Nat} {x : M Unit} {P : CPUI386 → Prop} {s t : CPUI386}

theorem Along.head (h : Along (n + 1) x P s) : P s := h 0 (Nat.succ_pos n) s rfl

theorem Along.tail (h : Along (n + 1) x P s) (hx : x s = .ok () t) : Along n x P t := by
  intro k hk u hu
  refine h (k + 1) (Nat.succ_lt_succ hk) u ?_
  change (x >>= fun _ => repeatM k x) s = _
  rw [bind_run_ok hx]
  exact hu

theorem Along.mono (h : Along n x P s) {m : Nat} (hm : m ≤ n) : Along m x P s :=
  fun k hk => h k (Nat.lt_of_lt_of_le hk hm)

theorem repeatM_succ (n : Nat) (x : M Unit) (s : CPUI386) :
    repeatM (n + 1) x s = (x >>= fun _ => repeatM n x) s := rfl

theorem repeatM_add (m n : Nat) (x : M Unit) (s : CPUI386) :
    repeatM (m + n) x s = (repeatM m x >>= fun _ => repeatM n x) s := by
  induction m generalizing s with
  | zero =>
    rw [Nat.zero_add]
    rfl
  | succ m ih =>
    rw [Nat.succ_add, repeatM_succ, bind_run, bind_run, repeatM_succ, bind_run]
    cases x s with
    | ok _ t => exact ih t
    | fault t => rfl
    | stop why => rfl

theorem Along.drop (h : Along n x P s) {m : Nat} (hm : m ≤ n) (hx : repeatM m x s = .ok () t) :
    Along (n - m) x P t := by
  intro k hk u hu
  refine h (m + k) (by omega) u ?_
  rw [repeatM_add, bind_run_ok hx]
  exact hu

end Along

section PageRuns

variable {w : Width} {a16 back both : Bool} {seg : SegReg} {s t : CPUI386} {m : OptAddr}

theorem CPUI386.Settled.next {rwm : Nat} {i : Fin 8} {c : Word}
    (h : s.Settled w rwm seg (lregA a16 s i) m) (ht : Touches s t) (ha : s.Aligned)
    (hl : Lined w (s.elemAddr a16 seg i)) (hp : 1 < pageCount w back (s.elemAddr a16 seg i))
    (hw : NoWrap a16 (stride w back) (s.gpr i)) (hi : i = 7 ∨ both = true ∧ i = 6) :
    (t.advanced both a16 (stride w back) c).Settled w rwm seg
        (lregA a16 (t.advanced both a16 (stride w back) c) i)
        { m with addr1 := m.addr1 + stride w back } ∧
      (t.advanced both a16 (stride w back) c).elemAddr a16 seg i =
        s.elemAddr a16 seg i + stride w back := by
  have hi1 : i ≠ 1 := by
    rcases hi with rfl | ⟨-, rfl⟩
    · decide
    · decide
  have hreg : lregA a16 (t.advanced both a16 (stride w back) c) i =
      lregA a16 s i + stride w back := by
    rw [lregA_eq, lregA_eq, ← hw]
    change idx a16 (advanceRegs both a16 (stride w back) c t.gpr i) = _
    unfold advanceRegs
    rw [if_neg hi1, if_pos hi, ht.gpr]
  have hseg : (t.advanced both a16 (stride w back) c).seg = s.seg := by
    unfold Touches at ht
    rw [ht]
    rfl
  have haddr : (s.seg seg).base + (lregA a16 s i + stride w back) =
      s.elemAddr a16 seg i + stride w back := by
    unfold CPUI386.elemAddr
    rw [BitVec.add_assoc]
  refine ⟨?_, ?_⟩
  · rw [hreg]
    apply CPUI386.Settled.advanced
    refine CPUI386.Settled.touched ?_ ht
    have hd : lregA a16 s i + stride w back - lregA a16 s i = stride w back := by bv_omega
    have hpage : s.elemAddr a16 seg i >>> 12 =
        ((s.seg seg).base + (lregA a16 s i + stride w back)) >>> 12 := by
      rw [haddr]
      exact page_step hl hp
    have hin : ¬ Straddles ((s.seg seg).base + (lregA a16 s i + stride w back)) (w.bits / 8) := by
      rw [haddr]
      exact (hl.step hp).not_straddles
    have hm := h.move ha hpage hl.not_straddles hin
    rw [hd] at hm
    exact hm
  · unfold CPUI386.elemAddr
    rw [hreg, hseg, BitVec.add_assoc]

end PageRuns

end Winspire.Cpu
