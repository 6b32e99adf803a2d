import Winspire.Cpu.LazyFlags
import Winspire.Cpu.RamOperands
import Winspire.Cpu.SysInsns

/-!
# Bit tests

`BTEvGv`, `BTEvIb`, `BT_helper` and `BTX_helper` of i386.c. The offset also moves the address of
an operand in memory, and there it is taken without its sign.
-/

namespace Winspire.Cpu

open Faulting

set_option autoImplicit false

inductive BitOp where
  | bt
  | bts
  | btr
  | btc
  deriving DecidableEq, Repr

namespace BitOp

def rwm : BitOp → Nat
  | bt => 1
  | bts | btr | btc => 3

/-- `la(a) OP (1 << bb)`. -/
def apply (op : BitOp) (x : Word) (bb : Nat) : Word :=
  match op with
  | bt => x
  | bts => x ||| (1 : Word) <<< bb
  | btr => x &&& ~~~((1 : Word) <<< bb)
  | btc => x ^^^ (1 : Word) <<< bb

end BitOp

/-- The bit offset: a register or a byte of the instruction. -/
inductive BitOffset where
  | reg (i : Fin 8)
  | imm (imm8 : Byte)
  deriving DecidableEq, Repr

/-- `lreg` of the register, and the byte as `imm16` or `imm32`. -/
def BitOffset.load (w : Width) (s : CPUI386) : BitOffset → Word
  | reg i => lregW w s i
  | imm imm8 => (imm8.signExtend w.bits).setWidth 32

/-- CF from now on is `bit`. -/
def storeCF (bit : Bool) : M Unit :=
  modify fun s => s.withLazy ((s.setMask (s.cc.mask &&& ~~~CF)).setFlag bit CF)

/-- `BT_helper` and `BTX_helper`. -/
def BitOp.exec (op : BitOp) (w : Width) (a : RmOperand) (b : BitOffset) : M Unit := do
  let bb := (b.load w (← get)).toNat % w.bits
  let bit := (← a.load w).getLsbD bb
  onlyIf (op ≠ .bt) do
    a.store w (op.apply (← a.load w) bb)
  storeCF bit

def BitOffset.displacement (w : Width) (s : CPUI386) (b : BitOffset) : Word :=
  BitVec.ofNat 32 ((b.load w s).toNat / w.bits * (w.bits / 8))

/-- The operand at `addr`, after `modsib`. -/
def BitOp.memory (op : BitOp) (w : Width) (seg : SegReg) (addr : Word) (b : BitOffset) :
    M Unit := do
  let addr := addr + b.displacement w (← get)
  let meml ← translateW w op.rwm seg addr
  op.exec w (.addr meml) b

def BTEvGv (op : BitOp) (p : Prefixes) : M Unit := do
  let modrm ← fetch8
  let reg := BitOffset.reg (regField modrm)
  if modField modrm = 3 then op.exec (opWidth p.opsz16) (.reg (rmField modrm)) reg
  else do
    let (addr, seg) ← modsib p.adsz16 (modField modrm) (rmField modrm) p.currSeg
    op.memory (opWidth p.opsz16) seg addr reg

def BTEvIb (op : BitOp) (p : Prefixes) : M Unit := do
  let modrm ← fetch8
  if modField modrm = 3 then do
    let imm8 ← fetch8
    op.exec (opWidth p.opsz16) (.reg (rmField modrm)) (.imm imm8)
  else do
    let (addr, seg) ← modsib p.adsz16 (modField modrm) (rmField modrm) p.currSeg
    let imm8 ← fetch8
    op.memory (opWidth p.opsz16) seg addr (.imm imm8)

def signedOffset (w : Width) (s : CPUI386) (i : Fin 8) : Int :=
  ((lregW w s i).setWidth w.bits).toInt

/-- How far the operand is from the address of the instruction. -/
def BitOffset.distance (w : Width) (s : CPUI386) : BitOffset → Word
  | reg i => BitVec.ofInt 32 ((w.bits / 8 : Nat) * (signedOffset w s i / w.bits))
  | imm _ => 0

def BitOffset.index (w : Width) (s : CPUI386) : BitOffset → Nat
  | reg i => (signedOffset w s i % w.bits).toNat
  | imm imm8 => imm8.toNat % w.bits

/-- Bit `k` of an operand. -/
def OptAddr.bit (m : OptAddr) (t : CPUI386) (k : Nat) : Bool :=
  (t.byteAt (m.byte (k / 8))).getLsbD (k % 8)

def BitOp.result : BitOp → Bool → Bool
  | bt, b => b
  | bts, _ => true
  | btr, _ => false
  | btc, b => !b

/-- `u` is `t` with the bit tested in CF, and changed in memory; no other bit of memory is. -/
structure BitOp.Tests (op : BitOp) (m : OptAddr) (k : Nat) (t u : CPUI386) : Prop where
  frame : u = ({ t with mem := u.mem } : CPUI386).withLazy u.toLazyFlags
  carry : u.getCF = some (m.bit t k)
  flags : ∀ i, i ≠ 0 → u.flags.getLsbD i = t.flags.getLsbD i
  bit : m.bit u k = op.result (m.bit t k)
  others : ∀ a i, i < 8 → ¬ (a = (m.byte (k / 8)).toNat ∧ i = k % 8) →
    (u.mem a).getLsbD i = (t.mem a).getLsbD i

/-- The right operand is addressed, and there the right bit is tested; `t` is the state in which
the operand has been translated. -/
structure BitOp.Right (op : BitOp) (w : Width) (seg : SegReg) (addr : Word) (b : BitOffset)
    (s : CPUI386) : Prop where
  address : addr + b.displacement w s = addr + b.distance w s
  effect : ∀ m t, translateW w op.rwm seg (addr + b.distance w s) s = .ok m t →
    (∀ k, k < w.bytes → t.Ram (m.byte k)) →
    ∃ u, op.memory w seg addr b s = .ok () u ∧ op.Tests m (b.index w s) t u

/-- The register offset is not negative, or the immediate one is within the operand. -/
def BitOffset.InRange (w : Width) (s : CPUI386) : BitOffset → Prop
  | reg i => 0 ≤ signedOffset w s i
  | imm imm8 => imm8.toNat < w.bits

section Address

variable {opsz16 : Bool} {s : CPUI386}

theorem lregW_lt (w : Width) (s : CPUI386) (i : Fin 8) : (lregW w s i).toNat < 2 ^ w.bits := by
  cases w with
  | b8 =>
    rw [lregW, BitVec.toNat_setWidth_of_le (by decide)]
    exact (lreg8 s i).isLt
  | b16 =>
    rw [lregW, BitVec.toNat_setWidth_of_le (by decide)]
    exact (lreg16 s i).isLt
  | b32 => exact (lreg32 s i).isLt

theorem signedOffset_eq (w : Width) (s : CPUI386) (i : Fin 8) :
    signedOffset w s i = if 2 * (lregW w s i).toNat < 2 ^ w.bits then ((lregW w s i).toNat : Int)
      else (lregW w s i).toNat - (2 ^ w.bits : Nat) := by
  have hlt := lregW_lt w s i
  unfold signedOffset
  rw [BitVec.toInt_eq_toNat_cond, BitVec.toNat_setWidth, Nat.mod_eq_of_lt hlt]

theorem opWidth_bits (opsz16 : Bool) :
    (opWidth opsz16).bits = 32 ∨ (opWidth opsz16).bits = 16 := by
  cases opsz16 with
  | false => exact Or.inl rfl
  | true => exact Or.inr rfl

/-- The distance of a negative offset is `2 ^ bits / 8` bytes less. -/
theorem reg_displacement_iff (i : Fin 8) :
    (BitOffset.reg i).displacement (opWidth opsz16) s = (BitOffset.reg i).distance (opWidth opsz16) s ↔
      0 ≤ signedOffset (opWidth opsz16) s i := by
  have hlt := lregW_lt (opWidth opsz16) s i
  have hs := signedOffset_eq (opWidth opsz16) s i
  rw [BitOffset.displacement, BitOffset.distance, ← BitVec.toNat_inj, BitVec.toNat_ofNat,
    BitVec.toNat_ofInt, BitOffset.load]
  generalize signedOffset (opWidth opsz16) s i = d at hs ⊢
  generalize (lregW (opWidth opsz16) s i).toNat = u at hlt hs ⊢
  rcases opWidth_bits opsz16 with hb | hb
  · rw [hb] at hlt hs ⊢
    split at hs
    · omega
    · omega
  · rw [hb] at hlt hs ⊢
    split at hs
    · omega
    · omega

theorem imm_load (w : Width) (imm8 : Byte) (hw : 8 ≤ w.bits) :
    ((BitOffset.imm imm8).load w s).toNat =
      if imm8.toNat < 128 then imm8.toNat else imm8.toNat + (2 ^ w.bits - 256) := by
  have hmsb : imm8.msb = decide (128 ≤ imm8.toNat) := BitVec.msb_eq_decide imm8
  rw [BitOffset.load, BitVec.toNat_setWidth_of_le w.bits_le, BitVec.toNat_signExtend,
    BitVec.toNat_setWidth_of_le hw, hmsb]
  by_cases h : imm8.toNat < 128
  · rw [if_pos h, decide_eq_false (by omega)]
    rfl
  · rw [if_neg h, decide_eq_true (by omega)]
    rfl

theorem imm_displacement_iff (imm8 : Byte) :
    (BitOffset.imm imm8).displacement (opWidth opsz16) s = 0 ↔
      imm8.toNat < (opWidth opsz16).bits := by
  have hlt := imm8.isLt
  have hload := imm_load (s := s) (opWidth opsz16) imm8 (opWidth opsz16).eight_le_bits
  have h0 : (0 : Word).toNat = 0 := rfl
  rw [BitOffset.displacement, ← BitVec.toNat_inj, BitVec.toNat_ofNat, h0]
  generalize ((BitOffset.imm imm8).load (opWidth opsz16) s).toNat = u at hload ⊢
  generalize imm8.toNat = v at hlt hload ⊢
  rcases opWidth_bits opsz16 with hb | hb
  · rw [hb] at hload ⊢
    split at hload
    · omega
    · omega
  · rw [hb] at hload ⊢
    split at hload
    · omega
    · omega

theorem address_iff (addr : Word) (b : BitOffset) :
    addr + b.displacement (opWidth opsz16) s = addr + b.distance (opWidth opsz16) s ↔
      b.InRange (opWidth opsz16) s := by
  rw [BitVec.add_right_inj]
  cases b with
  | reg i => exact reg_displacement_iff i
  | imm imm8 => exact imm_displacement_iff imm8

theorem load_mod (b : BitOffset) :
    (b.load (opWidth opsz16) s).toNat % (opWidth opsz16).bits = b.index (opWidth opsz16) s := by
  cases b with
  | reg i =>
    have hs := signedOffset_eq (opWidth opsz16) s i
    rw [BitOffset.load, BitOffset.index]
    generalize signedOffset (opWidth opsz16) s i = d at hs ⊢
    generalize (lregW (opWidth opsz16) s i).toNat = u at hs ⊢
    rcases opWidth_bits opsz16 with hb | hb
    · rw [hb] at hs ⊢
      split at hs
      · omega
      · omega
    · rw [hb] at hs ⊢
      split at hs
      · omega
      · omega
  | imm imm8 =>
    have hload := imm_load (s := s) (opWidth opsz16) imm8 (opWidth opsz16).eight_le_bits
    rw [BitOffset.index]
    generalize ((BitOffset.imm imm8).load (opWidth opsz16) s).toNat = u at hload ⊢
    generalize imm8.toNat = v at hload ⊢
    rcases opWidth_bits opsz16 with hb | hb
    · rw [hb] at hload ⊢
      split at hload
      · omega
      · omega
    · rw [hb] at hload ⊢
      split at hload
      · omega
      · omega

end Address

section Bits

variable {w : Width} {m : OptAddr} {t : CPUI386} {laddr : Word}

theorem byteOf_getLsbD (v : Word) (j : Nat) {i : Nat} (hi : i < 8) :
    (byteOf v j).getLsbD i = v.getLsbD (8 * j + i) := by
  rw [byteOf, BitVec.getLsbD_setWidth, BitVec.getLsbD_ushiftRight]
  simp only [hi, decide_true, Bool.true_and]

theorem leWord_getLsbD (f : Nat → Byte) {k : Nat} (hk : k < w.bits) :
    (leWord f w).getLsbD k = (f (k / 8)).getLsbD (k % 8) := by
  have hw := w.bits_le
  have hone : ∀ j, k / 8 = j → ∀ x : Byte, f j = x → (f (k / 8)).getLsbD (k % 8) = x.getLsbD (k - 8 * j) := by
    intro j hj x hx
    rw [hj, hx]
    congr 1
    omega
  cases w with
  | b8 =>
    have hk8 : k < 8 := hk
    rw [leWord, BitVec.getLsbD_setWidth, hone 0 (by omega) _ rfl]
    simp only [show k < 32 by omega, decide_true, Bool.true_and, Nat.mul_zero, Nat.sub_zero]
  | b16 =>
    have hk16 : k < 16 := hk
    rw [leWord, BitVec.getLsbD_setWidth, BitVec.getLsbD_append, decide_eq_true (by omega : k < 32),
      Bool.true_and]
    by_cases h8 : k < 8
    · rw [if_pos h8, hone 0 (by omega) _ rfl]
      rfl
    · rw [if_neg h8, hone 1 (by omega) _ rfl]
  | b32 =>
    have hk32 : k < 32 := hk
    rw [leWord, BitVec.getLsbD_append, BitVec.getLsbD_append, BitVec.getLsbD_append]
    by_cases h8 : k < 8
    · rw [if_pos h8, hone 0 (by omega) _ rfl]
      rfl
    rw [if_neg h8]
    by_cases h16 : k - 8 < 8
    · rw [if_pos h16, hone 1 (by omega) _ rfl]
    rw [if_neg h16]
    by_cases h24 : k - 8 - 8 < 8
    · rw [if_pos h24, hone 2 (by omega) _ rfl, Nat.sub_sub]
    rw [if_neg h24, hone 3 (by omega) _ rfl, Nat.sub_sub, Nat.sub_sub]

theorem apply_getLsbD (op : BitOp) (x : Word) {bb k : Nat} (hk : k < 32) :
    (op.apply x bb).getLsbD k = if k = bb then op.result (x.getLsbD bb) else x.getLsbD k := by
  have hone : ((1 : Word) <<< bb).getLsbD k = decide (k = bb) := by
    have ht : (1 : Word) <<< bb = BitVec.twoPow 32 bb := rfl
    rw [ht, BitVec.getLsbD_twoPow]
    by_cases h : k = bb
    · rw [h, decide_eq_true (by omega), decide_eq_true rfl]
      rfl
    · rw [decide_eq_false h, decide_eq_false (Ne.symm h), Bool.and_false]
  by_cases h : k = bb
  · rw [decide_eq_true h] at hone
    rw [if_pos h]
    subst h
    cases op with
    | bt => rfl
    | bts => rw [BitOp.apply, BitVec.getLsbD_or, hone, Bool.or_true, BitOp.result]
    | btr =>
      rw [BitOp.apply, BitVec.getLsbD_and, BitVec.getLsbD_not, hone, Bool.not_true, Bool.and_false,
        Bool.and_false, BitOp.result]
    | btc => rw [BitOp.apply, BitVec.getLsbD_xor, hone, Bool.xor_true, BitOp.result]
  · rw [decide_eq_false h] at hone
    rw [if_neg h]
    cases op with
    | bt => rfl
    | bts => rw [BitOp.apply, BitVec.getLsbD_or, hone, Bool.or_false]
    | btr =>
      rw [BitOp.apply, BitVec.getLsbD_and, BitVec.getLsbD_not, hone, decide_eq_true hk, Bool.not_false,
        Bool.true_and, Bool.and_true]
    | btc => rw [BitOp.apply, BitVec.getLsbD_xor, hone, Bool.xor_false]

theorem bits_eq_bytes (w : Width) : w.bits = 8 * w.bytes := by cases w <;> rfl

/-- The bits of memory after the changed operand has been stored. -/
theorem stored_bits (op : BitOp) (h : m.Ram w laddr t) {k : Nat} (hk : k < w.bits) {u : CPUI386}
    (hu : u = t.setBytes m.byte (byteOf (op.apply (leWord (fun j => t.byteAt (m.byte j)) w) k))
      w.bytes) :
    m.bit u k = op.result (m.bit t k) ∧
      ∀ a i, i < 8 → ¬ (a = (m.byte (k / 8)).toNat ∧ i = k % 8) →
        (u.mem a).getLsbD i = (t.mem a).getLsbD i := by
  have hw := bits_eq_bytes w
  have hle := w.bits_le
  have hspread := h.spread
  have hat : ∀ j i, j < w.bytes → i < 8 → (u.mem (m.byte j).toNat).getLsbD i =
      if 8 * j + i = k then op.result (m.bit t k) else (t.mem (m.byte j).toNat).getLsbD i := by
    intro j i hj hi
    have hdiv : (8 * j + i) / 8 = j := by omega
    have hmod : (8 * j + i) % 8 = i := by omega
    have hold := leWord_getLsbD (w := w) (fun j => t.byteAt (m.byte j)) (k := 8 * j + i) (by omega)
    have hbit := leWord_getLsbD (fun j => t.byteAt (m.byte j)) hk
    rw [hdiv, hmod] at hold
    rw [hu, setBytes_at t _ hj fun j' hj' hne heq => hne (hspread j' j hj' hj heq),
      byteOf_getLsbD _ _ hi, apply_getLsbD op _ (by omega), hold, hbit]
    rfl
  constructor
  · have hkj := hat (k / 8) (k % 8) (by omega) (Nat.mod_lt _ (by decide))
    rw [if_pos (by omega)] at hkj
    exact hkj
  · intro a i hi hne
    by_cases hin : ∃ j, j < w.bytes ∧ a = (m.byte j).toNat
    · obtain ⟨j, hj, rfl⟩ := hin
      rw [hat j i hj hi, if_neg]
      intro heq
      apply hne
      have hjk : j = k / 8 := by omega
      exact ⟨by rw [hjk], by omega⟩
    · rw [hu, setBytes_other t _ _ fun j hj heq => hin ⟨j, hj, heq⟩]

theorem tests_of_bits {op : BitOp} {k : Nat} {mem : Nat → Byte}
    (hbit : m.bit (t.withMem mem) k = op.result (m.bit t k))
    (hothers : ∀ a i, i < 8 → ¬ (a = (m.byte (k / 8)).toNat ∧ i = k % 8) →
      (mem a).getLsbD i = (t.mem a).getLsbD i) :
    op.Tests m k t ((t.withMem mem).withLazy
      ((t.setMask (t.cc.mask &&& ~~~CF)).setFlag (m.bit t k) CF)) where
  frame := rfl
  carry := by
    have hcf := (LazyFlags.complemented_storesCarry t.toLazyFlags (!m.bit t k)).getCF
    rw [LazyFlags.complemented, Bool.not_not] at hcf
    exact hcf
  flags i hi := LazyFlags.getLsbD_setBit_CF _ _ hi
  bit := hbit
  others := hothers

theorem BitOp.exec_tests (op : BitOp) (h : m.Ram w laddr t) {b : BitOffset} {k : Nat}
    (hk : k < w.bits) (hb : (b.load w t).toNat % w.bits = k) :
    ∃ u, op.exec w (.addr m) b t = .ok () u ∧ op.Tests m k t u := by
  have hbit : (leWord (fun j => t.byteAt (m.byte j)) w).getLsbD k = m.bit t k :=
    leWord_getLsbD _ hk
  have hload : RmOperand.load w (.addr m) t = .ok (leWord (fun j => t.byteAt (m.byte j)) w) t :=
    h.load
  have hrun : ∀ mem, (onlyIf (op ≠ .bt) (RmOperand.load w (.addr m) >>= fun x =>
      RmOperand.store w (op.apply x k) (.addr m))) t = .ok () (t.withMem mem) →
      op.exec w (.addr m) b t = .ok () ((t.withMem mem).withLazy
        ((t.setMask (t.cc.mask &&& ~~~CF)).setFlag (m.bit t k) CF)) := by
    intro mem hmem
    unfold BitOp.exec
    rw [get_bind_run, hb, bind_run_ok hload, hbit]
    exact bind_run_ok hmem
  by_cases hop : op = .bt
  · refine ⟨_, hrun t.mem ?_, tests_of_bits ?_ fun _ _ _ _ => rfl⟩
    · exact congrFun (if_neg (not_not_intro hop)) t
    · rw [hop]
      rfl
  · obtain ⟨hkeep, hothers⟩ := stored_bits op h hk rfl
    refine ⟨_, hrun _ ?_, tests_of_bits hkeep hothers⟩
    rw [onlyIf, if_pos hop, bind_run_ok hload]
    exact h.store.trans (congrArg (Result.ok ()) (setBytes_frame _ _ _ _))

end Bits

section Forms

variable {op : BitOp} {p : Prefixes} {modrm imm8 : Byte} {addr : Word} {seg : SegReg}
  {s t u v : CPUI386}

theorem BTEvGv_memory (hf : fetch8 s = .ok modrm t) (hmod : modField modrm ≠ 3)
    (ha : modsib p.adsz16 (modField modrm) (rmField modrm) p.currSeg t = .ok (addr, seg) u) :
    BTEvGv op p s = op.memory (opWidth p.opsz16) seg addr (.reg (regField modrm)) u := by
  unfold BTEvGv
  rw [bind_run_ok hf, if_neg hmod, bind_run_ok ha]

theorem BTEvIb_memory (hf : fetch8 s = .ok modrm t) (hmod : modField modrm ≠ 3)
    (ha : modsib p.adsz16 (modField modrm) (rmField modrm) p.currSeg t = .ok (addr, seg) u)
    (hi : fetch8 u = .ok imm8 v) :
    BTEvIb op p s = op.memory (opWidth p.opsz16) seg addr (.imm imm8) v := by
  unfold BTEvIb
  rw [bind_run_ok hf, if_neg hmod, bind_run_ok ha]
  exact bind_run_ok hi

end Forms

theorem load_congr {w : Width} {s t : CPUI386} (h : t.gpr = s.gpr) (b : BitOffset) :
    b.load w t = b.load w s := by
  cases b with
  | reg i =>
    cases w with
    | b8 => simp only [BitOffset.load, lregW, lreg8, h]
    | b16 => simp only [BitOffset.load, lregW, lreg16, h]
    | b32 => simp only [BitOffset.load, lregW, lreg32, h]
  | imm imm8 => rfl

/-- The right bit is tested exactly when the offset is in range. -/
theorem BitOp.right_iff_inRange {s : CPUI386} (hr : CacheRun s) (op : BitOp) (opsz16 : Bool)
    (seg : SegReg) (addr : Word) (b : BitOffset) :
    op.Right (opWidth opsz16) seg addr b s ↔ b.InRange (opWidth opsz16) s := by
  constructor
  · intro h
    exact (address_iff addr b).mp h.address
  · intro h
    have haddr := (address_iff addr b).mpr h
    refine ⟨haddr, ?_⟩
    intro m t htr hram
    obtain ⟨hc, -, hm⟩ := translateW_ram (cacheRun_aligned hr) htr
    have hload : b.load (opWidth opsz16) t = b.load (opWidth opsz16) s := by
      apply load_congr
      rw [hc.rest]
    have hk : b.index (opWidth opsz16) s < (opWidth opsz16).bits := by
      rw [← load_mod]
      exact Nat.mod_lt _ (opWidth opsz16).bits_pos
    obtain ⟨u, hu, htests⟩ := op.exec_tests (hm t hram) hk (by rw [hload, load_mod])
    refine ⟨u, ?_, htests⟩
    unfold BitOp.memory
    rw [get_bind_run, haddr, bind_run_ok htr]
    exact hu

/-- `bts word [0x2000], cx` with 0x25 in CX: bit 5 of the third word. -/
theorem BitOp.right_iff_inRange_cx :
    BitOp.bts.Right .b16 .ds 0x2000 (.reg 1) (smallCpu.setGpr 1 0x25) := by
  have hr : CacheRun (smallCpu.setGpr 1 0x25) := .reset ⟨fun _ => rfl, fun _ => rfl, fun _ => rfl⟩
  refine (BitOp.right_iff_inRange hr .bts true .ds 0x2000 (.reg 1)).mpr ?_
  change 0 ≤ signedOffset .b16 (smallCpu.setGpr 1 0x25) 1
  decide

/-- `bt word [0x2000], 16` looks two bytes further on. -/
theorem bt_imm_displaced : ¬ ∀ (s : CPUI386), CacheRun s → ∀ (op : BitOp) (opsz16 : Bool)
    (seg : SegReg) (addr : Word) (b : BitOffset), op.Right (opWidth opsz16) seg addr b s := by
  intro h
  have hr : CacheRun smallCpu := .reset ⟨fun _ => rfl, fun _ => rfl, fun _ => rfl⟩
  have haddr := (h smallCpu hr .bt true .ds 0x2000 (.imm 16)).address
  exact absurd haddr (by decide)

end Winspire.Cpu
