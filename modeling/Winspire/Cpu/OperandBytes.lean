import Winspire.Cpu.Bounds

/-!
# Operands byte by byte

A load or a store of an operand in guest memory moves the bytes of the operand, also where the
operand reaches into a second page and is moved in pieces.
-/

namespace Winspire.Cpu

open Faulting

set_option autoImplicit false

/-- The little-endian value of the bytes of an operand. -/
def leWord (byte : Nat → Byte) : Width → Word
  | .b8 => (byte 0).setWidth 32
  | .b16 => (byte 1 ++ byte 0).setWidth 32
  | .b32 => byte 3 ++ byte 2 ++ byte 1 ++ byte 0

/-- Byte `k` of a value. -/
def byteOf (v : Word) (k : Nat) : Byte := (v >>> (8 * k)).setWidth 8

/-- Bytes stored at the first `n` of some addresses. -/
def CPUI386.setBytes (s : CPUI386) (p : Nat → Word) (b : Nat → Byte) : Nat → CPUI386
  | 0 => s
  | n + 1 => (s.setBytes p b n).setMem (p n) (b n)

section Values

theorem setWidth_setWidth_byte (v : Word) : (v.setWidth 16).setWidth 8 = v.setWidth 8 := by
  apply BitVec.eq_of_getLsbD_eq
  intro i hi
  simp only [BitVec.getLsbD_setWidth, hi, decide_true, Bool.true_and]
  rw [decide_eq_true (by omega), Bool.true_and]

theorem setWidth_high_byte (v : Word) :
    ((v.setWidth 16) >>> 8).setWidth 8 = (v >>> 8).setWidth 8 := by
  apply BitVec.eq_of_getLsbD_eq
  intro i hi
  simp only [BitVec.getLsbD_setWidth, BitVec.getLsbD_ushiftRight, hi, decide_true, Bool.true_and]
  rw [decide_eq_true (by omega), Bool.true_and]

theorem append_halfword_middle (a d : Byte) (b c : Byte) :
    (a ++ (b ++ c : BitVec 16) ++ d : Word) = a ++ b ++ c ++ d := by
  apply BitVec.eq_of_toNat_eq
  simp only [BitVec.toNat_append, Nat.shiftLeft_or_distrib, ← Nat.shiftLeft_add, Nat.or_assoc]

theorem append_halfwords (a b c d : Byte) :
    ((a ++ b : BitVec 16) ++ (c ++ d : BitVec 16) : Word) = a ++ b ++ c ++ d := by
  apply BitVec.eq_of_toNat_eq
  simp only [BitVec.toNat_append, Nat.shiftLeft_or_distrib, ← Nat.shiftLeft_add, Nat.or_assoc]

theorem setBytes_frame (s : CPUI386) (p : Nat → Word) (b : Nat → Byte) (n : Nat) :
    s.setBytes p b n = { s with mem := (s.setBytes p b n).mem } := by
  induction n with
  | zero => rfl
  | succ n ih =>
    rw [CPUI386.setBytes, ih]
    rfl

theorem setBytes_other (s : CPUI386) (p : Nat → Word) (b : Nat → Byte) {n a : Nat}
    (ha : ∀ k, k < n → a ≠ (p k).toNat) : (s.setBytes p b n).mem a = s.mem a := by
  induction n with
  | zero => rfl
  | succ n ih =>
    rw [CPUI386.setBytes, CPUI386.setMem]
    simp only
    rw [Function.update_of_ne (ha n (by omega))]
    exact ih fun k hk => ha k (by omega)

theorem setBytes_at (s : CPUI386) {p : Nat → Word} (b : Nat → Byte) {n k : Nat} (hk : k < n)
    (hp : ∀ j, j < n → j ≠ k → p j ≠ p k) : (s.setBytes p b n).mem (p k).toNat = b k := by
  induction n with
  | zero => omega
  | succ n ih =>
    rw [CPUI386.setBytes, CPUI386.setMem]
    simp only
    by_cases hn : k = n
    · rw [hn, Function.update_self]
    · have hne : (p k).toNat ≠ (p n).toNat := by
        intro h
        exact hp n (by omega) (by omega) (BitVec.eq_of_toNat_eq h.symm)
      rw [Function.update_of_ne hne]
      exact ih (by omega) fun j hj hjk => hp j (by omega) hjk

end Values

section Loads

variable {res : OptAddr} {s : CPUI386}

theorem load8_toMem (ht : MemOp.ToMem res s (.load .b8)) (hin : res.mapped.InMem .b8 s) :
    load8 res s = .ok (s.byteAt (res.mapped.byte 0)) s := by
  rw [byte_zero]
  unfold load8
  simp only [get_bind_run, ht.1, ht.2, not_true_eq_false, if_false]
  exact pload8_run_inMem (inMem_b8.mp hin)

theorem load16_toMem (hf : res.Fits .b16) (ht : MemOp.ToMem res s (.load .b16))
    (hin : res.mapped.InMem .b16 s) : load16 res s =
      .ok (s.byteAt (res.mapped.byte 1) ++ s.byteAt (res.mapped.byte 0)) s := by
  have h := inMem_b16.mp hin
  rw [byte_zero] at h ⊢
  unfold load16
  simp only [get_bind_run, ht.1, ht.2, not_true_eq_false, if_false]
  cases h2 : res.addr2 with
  | none =>
    have hm2 : res.mapped.addr2 = none := by rw [mapped_addr2, h2, Option.map_none]
    rw [byte_one_page hm2] at h ⊢
    exact pload16_run_inMem h
  | some addr2 =>
    have hm2 : res.mapped.addr2 = some (mapBiosAlias addr2) := by
      rw [mapped_addr2, h2, Option.map_some]
    obtain ⟨n, hn, hn', hlow⟩ := hf.mapped.split (by rw [hm2]; rfl)
    obtain rfl : n = 1 := by
      change n < 2 at hn'
      omega
    rw [OptAddr.byte_crossing hm2 hlow, if_neg (by decide), Nat.sub_self, add_zero_word] at h ⊢
    refine (bind_run_ok (pload8_run_inMem h.1)).trans ?_
    exact bind_run_ok (pload8_run_inMem h.2)

theorem load32_toMem (hf : res.Fits .b32) (ht : MemOp.ToMem res s (.load .b32))
    (hin : res.mapped.InMem .b32 s) : load32 res s =
      .ok (s.byteAt (res.mapped.byte 3) ++ s.byteAt (res.mapped.byte 2) ++
        s.byteAt (res.mapped.byte 1) ++ s.byteAt (res.mapped.byte 0)) s := by
  have h := inMem_b32.mp hin
  rw [byte_zero] at h ⊢
  unfold load32
  simp only [get_bind_run, ht.1, ht.2, not_true_eq_false, if_false]
  cases h2 : res.addr2 with
  | none =>
    have hm2 : res.mapped.addr2 = none := by rw [mapped_addr2, h2, Option.map_none]
    rw [byte_one_page hm2, byte_one_page hm2, byte_one_page hm2] at h ⊢
    change pload32 res.mapped.addr1 s = _
    unfold pload32
    rw [get_bind_run]
    exact congrFun (if_pos h) s
  | some addr2 =>
    have hm2 : res.mapped.addr2 = some (mapBiosAlias addr2) := by
      rw [mapped_addr2, h2, Option.map_some]
    obtain ⟨n, hn, hn', hlow⟩ := hf.mapped.split (by rw [hm2]; rfl)
    have hd := low_digit hn hn' hlow
    rw [OptAddr.byte_crossing hm2 hlow, OptAddr.byte_crossing hm2 hlow,
      OptAddr.byte_crossing hm2 hlow] at h ⊢
    rw [mapped_addr1] at hd h ⊢
    -- the pieces by how many bytes are in the first page
    obtain rfl | rfl | rfl : n = 1 ∨ n = 2 ∨ n = 3 := by
      change n < 4 at hn'
      omega
    · simp only [Nat.lt_irrefl, if_false, add_zero_word, Nat.sub_self, Nat.reduceSub,
        Nat.reduceLT] at h ⊢
      simp only [hd]
      rw [if_pos (by decide)]
      refine (bind_run_ok (pload8_run_inMem h.1)).trans ?_
      refine (bind_run_ok (pload16_run_inMem ⟨h.2.1, h.2.2.1⟩)).trans ?_
      refine (bind_run_ok (pload8_run_inMem h.2.2.2)).trans ?_
      exact congrArg (fun v => Result.ok v s) (append_halfword_middle _ _ _ _)
    · simp only [Nat.lt_irrefl, if_true, if_false, add_zero_word, Nat.sub_self, Nat.reduceSub,
        Nat.reduceLT] at h ⊢
      simp only [hd]
      rw [if_neg (by decide), if_pos (by decide)]
      refine (bind_run_ok (pload16_run_inMem ⟨h.1, h.2.1⟩)).trans ?_
      refine (bind_run_ok (pload16_run_inMem ⟨h.2.2.1, h.2.2.2⟩)).trans ?_
      exact congrArg (fun v => Result.ok v s) (append_halfwords _ _ _ _)
    · simp only [Nat.lt_irrefl, if_true, if_false, add_zero_word, Nat.sub_self, Nat.reduceSub,
        Nat.reduceLT] at h ⊢
      simp only [hd]
      rw [if_neg (by decide), if_neg (by decide), if_pos (by decide)]
      refine (bind_run_ok (pload8_run_inMem h.1)).trans ?_
      refine (bind_run_ok (pload16_run_inMem ⟨h.2.1, ?_⟩)).trans ?_
      · exact (congrArg s.inMem (add_one_add_one _)).mpr h.2.2.1
      refine (bind_run_ok (pload8_run_inMem h.2.2.2)).trans ?_
      refine congrArg (fun v => Result.ok v s) (Eq.trans (append_halfword_middle _ _ _ _) ?_)
      exact congrArg (fun a => _ ++ s.byteAt a ++ _ ++ _) (add_one_add_one _)

theorem loadW_toMem {w : Width} (hf : res.Fits w) (ht : MemOp.ToMem res s (.load w))
    (hin : res.mapped.InMem w s) :
    loadW res w s = .ok (leWord (fun k => s.byteAt (res.mapped.byte k)) w) s := by
  cases w with
  | b8 => exact bind_run_ok (load8_toMem ht hin)
  | b16 => exact bind_run_ok (load16_toMem hf ht hin)
  | b32 => exact load32_toMem hf ht hin

end Loads

section Stores

variable {res : OptAddr} {s : CPUI386} {v : Word}

theorem pstore16_run_inMem {a : Word} {v : BitVec 16} (h : s.inMem a ∧ s.inMem (a + 1)) :
    pstore16 a v s = .ok () ((s.setMem a (v.setWidth 8)).setMem (a + 1) ((v >>> 8).setWidth 8)) := by
  unfold pstore16
  rw [bind_run_ok (pstore8_run_inMem h.1)]
  exact pstore8_run_inMem h.2

theorem store8_toMem (ht : MemOp.ToMem res s (.store .b8 v)) (hin : res.InMem .b8 s) :
    store8 res (v.setWidth 8) s = .ok () (s.setBytes res.byte (byteOf v) 1) := by
  have h := inMem_b8.mp hin
  unfold store8
  simp only [get_bind_run, ht.1, ht.2, Bool.false_eq_true, not_true_eq_false, if_false]
  rw [pstore8_run_inMem h, CPUI386.setBytes, CPUI386.setBytes, byte_zero]
  rfl

theorem store16_toMem (hf : res.Fits .b16) (ht : MemOp.ToMem res s (.store .b16 v))
    (hin : res.InMem .b16 s) :
    store16 res (v.setWidth 16) s = .ok () (s.setBytes res.byte (byteOf v) 2) := by
  have h := inMem_b16.mp hin
  have hset : s.setBytes res.byte (byteOf v) 2 =
      (s.setMem res.addr1 (byteOf v 0)).setMem (res.byte 1) (byteOf v 1) := by
    rw [CPUI386.setBytes, CPUI386.setBytes, CPUI386.setBytes, byte_zero]
  have h0 : (v.setWidth 16).setWidth 8 = byteOf v 0 := setWidth_setWidth_byte v
  have h1 : ((v.setWidth 16) >>> 8).setWidth 8 = byteOf v 1 := setWidth_high_byte v
  rw [byte_zero] at h
  rw [hset]
  unfold store16
  simp only [get_bind_run, ht.1, ht.2, Bool.false_eq_true, not_true_eq_false, if_false]
  cases h2 : res.addr2 with
  | none =>
    rw [byte_one_page h2] at h ⊢
    refine Eq.trans (pstore16_run_inMem h) ?_
    rw [h0, h1]
    rfl
  | some addr2 =>
    obtain ⟨n, hn, hn', hlow⟩ := hf.split (by rw [h2]; rfl)
    obtain rfl : n = 1 := by
      change n < 2 at hn'
      omega
    rw [OptAddr.byte_crossing h2 hlow, if_neg (by decide), Nat.sub_self, add_zero_word] at h ⊢
    refine Eq.trans (bind_run_ok (pstore8_run_inMem h.1)) ?_
    refine Eq.trans (pstore8_run_inMem h.2) ?_
    rw [h0, h1]

theorem store32_toMem (hf : res.Fits .b32) (ht : MemOp.ToMem res s (.store .b32 v))
    (hin : res.InMem .b32 s) :
    store32 res v s = .ok () (s.setBytes res.byte (byteOf v) 4) := by
  have h := inMem_b32.mp hin
  have hset : s.setBytes res.byte (byteOf v) 4 =
      (((s.setMem res.addr1 (byteOf v 0)).setMem (res.byte 1) (byteOf v 1)).setMem (res.byte 2)
        (byteOf v 2)).setMem (res.byte 3) (byteOf v 3) := by
    rw [CPUI386.setBytes, CPUI386.setBytes, CPUI386.setBytes, CPUI386.setBytes, CPUI386.setBytes,
      byte_zero]
  have hlow16 : ∀ u : Word, (u.setWidth 16).setWidth 8 = u.setWidth 8 := setWidth_setWidth_byte
  have hhigh16 : ∀ u : Word, ((u.setWidth 16) >>> 8).setWidth 8 = (u >>> 8).setWidth 8 :=
    setWidth_high_byte
  have h0 : v.setWidth 8 = byteOf v 0 := rfl
  have h1 : (v >>> 8).setWidth 8 = byteOf v 1 := rfl
  have h2' : (v >>> 16).setWidth 8 = byteOf v 2 := rfl
  have h3 : (v >>> 24).setWidth 8 = byteOf v 3 := rfl
  have h8 : v >>> 8 >>> 8 = v >>> 16 := (BitVec.shiftRight_add v 8 8).symm
  have h16 : v >>> 16 >>> 8 = v >>> 24 := (BitVec.shiftRight_add v 16 8).symm
  rw [byte_zero] at h
  rw [hset]
  unfold store32
  simp only [get_bind_run, ht.1, ht.2, Bool.false_eq_true, not_true_eq_false, if_false]
  cases h2 : res.addr2 with
  | none =>
    rw [byte_one_page h2, byte_one_page h2, byte_one_page h2] at h ⊢
    unfold pstore32
    refine Eq.trans (bind_run_ok (pstore8_run_inMem h.1)) ?_
    refine Eq.trans (bind_run_ok (pstore8_run_inMem h.2.1)) ?_
    refine Eq.trans (bind_run_ok (pstore8_run_inMem h.2.2.1)) ?_
    exact pstore8_run_inMem h.2.2.2
  | some addr2 =>
    obtain ⟨n, hn, hn', hlow⟩ := hf.split (by rw [h2]; rfl)
    have hd := low_digit hn hn' hlow
    rw [OptAddr.byte_crossing h2 hlow, OptAddr.byte_crossing h2 hlow,
      OptAddr.byte_crossing h2 hlow] at h ⊢
    simp only [hd]
    -- the pieces by how many bytes are in the first page
    obtain rfl | rfl | rfl : n = 1 ∨ n = 2 ∨ n = 3 := by
      change n < 4 at hn'
      omega
    · simp only [Nat.lt_irrefl, if_false, add_zero_word, Nat.sub_self, Nat.reduceSub,
        Nat.reduceLT] at h ⊢
      rw [if_pos (by decide)]
      refine Eq.trans (bind_run_ok (pstore8_run_inMem h.1)) ?_
      refine Eq.trans (bind_run_ok (pstore16_run_inMem ⟨h.2.1, h.2.2.1⟩)) ?_
      refine Eq.trans (pstore8_run_inMem h.2.2.2) ?_
      rw [hlow16, hhigh16, h8, h0, h1, h2', h3]
      rfl
    · simp only [Nat.lt_irrefl, if_true, if_false, add_zero_word, Nat.sub_self, Nat.reduceSub,
        Nat.reduceLT] at h ⊢
      rw [if_neg (by decide), if_pos (by decide)]
      refine Eq.trans (bind_run_ok (pstore16_run_inMem ⟨h.1, h.2.1⟩)) ?_
      refine Eq.trans (pstore16_run_inMem ⟨h.2.2.1, h.2.2.2⟩) ?_
      rw [hlow16, hlow16, hhigh16, hhigh16, h16, h0, h1, h2', h3]
      rfl
    · simp only [Nat.lt_irrefl, if_true, if_false, add_zero_word, Nat.sub_self, Nat.reduceSub,
        Nat.reduceLT] at h ⊢
      rw [if_neg (by decide), if_neg (by decide), if_pos (by decide)]
      refine Eq.trans (bind_run_ok (pstore8_run_inMem h.1)) ?_
      refine Eq.trans (bind_run_ok (pstore16_run_inMem ⟨h.2.1, ?_⟩)) ?_
      · exact (congrArg s.inMem (add_one_add_one _)).mpr h.2.2.1
      refine Eq.trans (pstore8_run_inMem h.2.2.2) ?_
      rw [hlow16, hhigh16, h8, h0, h1, h2', h3]
      exact congrArg (fun a => Result.ok () (((CPUI386.setMem _ _ _).setMem a _).setMem _ _))
        (add_one_add_one _)

theorem storeW_toMem {w : Width} (hf : res.Fits w) (ht : MemOp.ToMem res s (.store w v))
    (hin : res.InMem w s) :
    storeW res v w s = .ok () (s.setBytes res.byte (byteOf v) w.bytes) := by
  cases w with
  | b8 => exact store8_toMem ht hin
  | b16 => exact store16_toMem hf ht hin
  | b32 => exact store32_toMem hf ht hin

end Stores

end Winspire.Cpu
