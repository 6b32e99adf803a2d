import Winspire.Cpu.Crossing
import Winspire.Cpu.Operands
import Winspire.Cpu.StringOps

/-!
# Operands in guest memory

An operand whose bytes are memory and no device's: it is loaded and stored byte by byte, and its
bytes keep the place in their pages that they have in linear memory.
-/

namespace Winspire.Cpu

open Faulting

set_option autoImplicit false

/-- The operand of the linear address `laddr`. -/
structure OptAddr.Ram (m : OptAddr) (w : Width) (laddr : Word) (s : CPUI386) : Prop where
  fits : m.Fits w
  ram : ∀ k, k < w.bytes → s.Ram (m.byte k)
  low : ∀ k, k < w.bytes → m.byte k &&& 0xfff = (laddr + BitVec.ofNat 32 k) &&& 0xfff

def RmOperand.Ram (w : Width) (s : CPUI386) : RmOperand → Prop
  | reg _ => True
  | addr m => ∃ laddr, m.Ram w laddr s
  | imm _ => False

/-- What `load` returns. -/
def RmOperand.value (w : Width) (s : CPUI386) : RmOperand → Word
  | reg i => lregW w s i
  | addr m => leWord (fun k => s.byteAt (m.byte k)) w
  | imm v => v

/-- AL, AX or EAX and so on with a new value. -/
def CPUI386.setReg (s : CPUI386) (i : Fin 8) (v : Word) : Width → CPUI386
  | .b8 =>
    if 3 < i.val then
      let j : Fin 8 := ⟨i.val - 4, highByte_lt i⟩
      s.setGpr j ((s.gpr j &&& ~~~(0xff00 : Word)) ||| ((v &&& 0xff) <<< 8))
    else s.setGpr i ((s.gpr i &&& ~~~(0xff : Word)) ||| (v &&& 0xff))
  | .b16 => s.setGpr i ((s.gpr i &&& ~~~(0xffff : Word)) ||| (v &&& 0xffff))
  | .b32 => s.setGpr i v

/-- The flags as an instruction leaves them. -/
def CPUI386.withLazy (s : CPUI386) (l : LazyFlags) : CPUI386 := { s with toLazyFlags := l }

/-- What the instructions store to an operand, `saddr` and `sreg`. -/
def RmOperand.store (w : Width) (v : Word) : RmOperand → M Unit
  | reg i => sregW i v w
  | addr m => storeW m v w
  | imm _ => pure ()

def RmOperand.put (w : Width) (v : Word) (s : CPUI386) : RmOperand → CPUI386
  | reg i => s.setReg i v w
  | addr m => s.setBytes m.byte (byteOf v) w.bytes
  | imm _ => s

section Translated

variable {s t : CPUI386} {rwm cpl : Nat} {laddr : Word} {w : Width} {m : OptAddr}

theorem and_fff_toNat (x : Word) : (x &&& 0xfff).toNat = x.toNat % 4096 := by
  rw [BitVec.toNat_and]
  exact Nat.and_two_pow_sub_one_eq_mod x.toNat 12

theorem low_add {x y : Word} (h : x &&& 0xfff = y &&& 0xfff) (k : Word) :
    (x + k) &&& 0xfff = (y + k) &&& 0xfff := by
  have hx := congrArg BitVec.toNat h
  apply BitVec.eq_of_toNat_eq
  rw [and_fff_toNat, and_fff_toNat] at hx ⊢
  rw [BitVec.toNat_add, BitVec.toNat_add]
  omega

theorem shl_low (l : Word) : (l <<< 12) &&& 0xfff = 0 := by
  apply BitVec.eq_of_toNat_eq
  rw [and_fff_toNat, BitVec.toNat_shiftLeft, Nat.shiftLeft_eq]
  change _ % 2 ^ 32 % 4096 = 0
  omega

/-- The bytes in a second page follow the end of the first one. -/
theorem crossing_low {addr1 addr2 : Word} (h1 : addr1 &&& 0xfff = laddr &&& 0xfff)
    (h2 : addr2 &&& 0xfff = 0) {k : Nat} (hk : k < w.bytes) :
    (⟨addr1, some addr2⟩ : OptAddr).byte k &&& 0xfff =
      (laddr + BitVec.ofNat 32 k) &&& 0xfff := by
  have hb := w.bytes_le
  have hl := and_fff_toNat laddr
  have hlt : laddr.toNat % 4096 < 4096 := Nat.mod_lt _ (by decide)
  have hn : ((⟨addr1, some addr2⟩ : OptAddr).addr1 &&& 0xfff).toNat +
      (4096 - laddr.toNat % 4096) = 0x1000 := by
    change (addr1 &&& 0xfff).toNat + _ = _
    rw [h1, hl]
    omega
  rw [OptAddr.byte_crossing rfl hn]
  by_cases hkn : k < 4096 - laddr.toNat % 4096
  · rw [if_pos hkn]
    exact low_add h1 _
  · have h0 : addr2 &&& 0xfff = (0 : Word) &&& 0xfff := h2
    rw [if_neg hkn, low_add h0]
    apply BitVec.eq_of_toNat_eq
    rw [and_fff_toNat, and_fff_toNat, BitVec.toNat_add, BitVec.toNat_add, BitVec.toNat_ofNat,
      BitVec.toNat_ofNat]
    change (0 + _) % _ % _ = _
    omega

theorem operand_low (ha : s.Aligned) (h : s.operand rwm laddr w.bytes cpl = some m) {k : Nat}
    (hk : k < w.bytes) : m.byte k &&& 0xfff = (laddr + BitVec.ofNat 32 k) &&& 0xfff := by
  have hb := w.bytes_le
  unfold CPUI386.operand at h
  split at h
  · cases hf : s.lookup rwm (laddr >>> 12) cpl with
    | none =>
      rw [hf] at h
      cases h
    | some f =>
      have hx := xor_low (a := laddr) (lookup_aligned ha (ne_noPage_of_laddr laddr) hf)
      simp only [hf] at h
      split at h
      · cases hf2 : s.lookup rwm (nextPage laddr) cpl with
        | none =>
          rw [hf2] at h
          cases h
        | some f2 =>
          have hx2 := xor_low (a := nextPage laddr <<< 12)
            (lookup_aligned ha (nextPage_ne_noPage laddr) hf2)
          rw [hf2] at h
          obtain rfl := (Option.some.inj h).symm
          exact crossing_low hx (hx2.trans (shl_low _)) hk
      · obtain rfl := (Option.some.inj h).symm
        rw [byte_one_page rfl]
        exact low_add hx _
  · obtain rfl := (Option.some.inj h).symm
    rw [byte_one_page rfl]

/-- A translated operand, once it is known to be in guest memory and in no device's. -/
theorem translateW_ram {seg : SegReg} {addr : Word} (ha : s.Aligned)
    (h : translateW w rwm seg addr s = .ok m t) :
    Cached s t ∧ t.Aligned ∧ ∀ u : CPUI386,
      (∀ k, k < w.bytes → u.Ram (m.byte k)) → m.Ram w ((s.seg seg).base + addr) u := by
  have hrun : translate rwm seg addr w.bytes s.cpl s = .ok m t := by
    cases w <;> exact h
  unfold translate at hrun
  rw [get_bind_run] at hrun
  by_cases hnull : NullSegment s seg
  · have hf : segcheck seg s = .fault { s with excno := exGP, excerr := 0 } := by
      unfold segcheck
      rw [get_bind_run]
      exact congrFun (if_pos hnull) s
    rw [bind_run_fault hf] at hrun
    cases hrun
  · have hok : segcheck seg s = .ok () s := by
      unfold segcheck
      rw [get_bind_run]
      exact congrFun (if_neg hnull) s
    rw [bind_run_ok hok] at hrun
    obtain ⟨hc, hat, -, hop⟩ := wp_ok (translateLaddr_operand ha) hrun
    exact ⟨hc, hat, fun u hram =>
      ⟨operand_fits ha hop, hram, fun k hk => operand_low ha hop hk⟩⟩

end Translated

section Ram

variable {m : OptAddr} {w : Width} {laddr v : Word} {s : CPUI386}

theorem OptAddr.Ram.first (h : m.Ram w laddr s) : s.Ram (m.byte 0) := h.ram 0 w.bytes_pos

theorem OptAddr.Ram.load (h : m.Ram w laddr s) :
    loadW m w s = .ok (leWord (fun k => s.byteAt (m.byte k)) w) s := by
  have hm := mapped_ram h.fits h.ram
  have ht : MemOp.ToMem m s (.load w) := toMem_load h.first s.mem
  have hin : m.mapped.InMem w s := by
    rw [hm]
    exact fun k hk => (h.ram k hk).2
  have hload := loadW_toMem h.fits ht hin
  rw [hm] at hload
  exact hload

theorem OptAddr.Ram.store (h : m.Ram w laddr s) :
    storeW m v w s = .ok () (s.setBytes m.byte (byteOf v) w.bytes) :=
  storeW_toMem h.fits (toMem_store h.first s.mem v) fun k hk => (h.ram k hk).2

theorem OptAddr.Ram.spread (h : m.Ram w laddr s) : Spread w m.byte := by
  intro j k hj hk heq
  have hb := w.bytes_le
  have hlow := (h.low j hj).symm.trans ((congrArg (· &&& 0xfff) heq).trans (h.low k hk))
  have hn := congrArg BitVec.toNat hlow
  rw [and_fff_toNat, and_fff_toNat, BitVec.toNat_add, BitVec.toNat_add, BitVec.toNat_ofNat,
    BitVec.toNat_ofNat] at hn
  omega

theorem OptAddr.Ram.congr {t : CPUI386} (h : m.Ram w laddr s) (hs : t.memSize = s.memSize) :
    m.Ram w laddr t := by
  refine ⟨h.fits, fun k hk => ⟨(h.ram k hk).1, ?_⟩, h.low⟩
  have hin := (h.ram k hk).2
  unfold CPUI386.inMem at hin ⊢
  rw [hs]
  exact hin

theorem sregW_eq_setReg (s : CPUI386) (i : Fin 8) (v : Word) (w : Width) :
    sregW i v w s = .ok () (s.setReg i v w) := by
  cases w with
  | b8 => rfl
  | b16 => rfl
  | b32 => rfl

theorem setReg_frame (s : CPUI386) (i : Fin 8) (v : Word) (w : Width) :
    s.setReg i v w = { s with gpr := (s.setReg i v w).gpr } := by
  cases w with
  | b8 =>
    simp only [CPUI386.setReg]
    by_cases hi : 3 < i.val
    · rw [if_pos hi]
      rfl
    · rw [if_neg hi]
      rfl
  | b16 => rfl
  | b32 => rfl

end Ram

section Operand

variable {a : RmOperand} {w : Width} {v : Word} {s : CPUI386}

theorem RmOperand.Ram.load (h : a.Ram w s) : a.load w s = .ok (a.value w s) s := by
  cases a with
  | reg i => rfl
  | addr m =>
    obtain ⟨laddr, hm⟩ := h
    exact hm.load
  | imm v => exact h.elim

theorem RmOperand.Ram.store (h : a.Ram w s) : a.store w v s = .ok () (a.put w v s) := by
  cases a with
  | reg i => exact sregW_eq_setReg s i v w
  | addr m =>
    obtain ⟨laddr, hm⟩ := h
    exact hm.store
  | imm v => exact h.elim

theorem setReg_withLazy (s : CPUI386) (i : Fin 8) (v : Word) (w : Width) (l : LazyFlags) :
    (s.withLazy l).setReg i v w = (s.setReg i v w).withLazy l := by
  cases w with
  | b8 =>
    simp only [CPUI386.setReg]
    by_cases hi : 3 < i.val
    · rw [if_pos hi, if_pos hi]
      rfl
    · rw [if_neg hi, if_neg hi]
      rfl
  | b16 => rfl
  | b32 => rfl

theorem setBytes_withLazy (s : CPUI386) (p : Nat → Word) (b : Nat → Byte) (n : Nat)
    (l : LazyFlags) : (s.withLazy l).setBytes p b n = (s.setBytes p b n).withLazy l := by
  induction n with
  | zero => rfl
  | succ n ih =>
    rw [CPUI386.setBytes, ih]
    rfl

theorem RmOperand.put_withLazy (a : RmOperand) (w : Width) (v : Word) (s : CPUI386)
    (l : LazyFlags) : a.put w v (s.withLazy l) = (a.put w v s).withLazy l := by
  cases a with
  | reg i => exact setReg_withLazy s i v w l
  | addr m => exact setBytes_withLazy s m.byte (byteOf v) w.bytes l
  | imm u => rfl

theorem RmOperand.Ram.congr {t : CPUI386} (h : a.Ram w s) (hs : t.memSize = s.memSize) :
    a.Ram w t := by
  cases a with
  | reg i => trivial
  | addr m =>
    obtain ⟨laddr, hm⟩ := h
    exact ⟨laddr, hm.congr hs⟩
  | imm u => exact h.elim

end Operand

end Winspire.Cpu
