import Mathlib.Tactic.Tauto
import Winspire.Cpu.Lookup

/-!
# Accesses outside guest memory

`load` and `store` check the first byte of an operand only, and the page walk checks nothing.
-/

namespace Winspire.Cpu

open Faulting

set_option autoImplicit false

section Safe

variable {α β : Type} {s : CPUI386} {a : Word}

/-- No index into `phys_mem` is out of range. -/
def Safe (x : M α) (s : CPUI386) : Prop := x s ≠ .stop .wild

theorem safe_pure (v : α) : Safe (pure v) s ↔ True := by
  constructor
  · intro _
    trivial
  · rintro - ⟨⟩

theorem safe_ite {c : Prop} [Decidable c] {x y : M α} :
    Safe (if c then x else y) s ↔ (c → Safe x s) ∧ (¬ c → Safe y s) := by
  by_cases h : c
  · rw [if_pos h]
    constructor
    · intro hx
      exact ⟨fun _ => hx, fun hn => absurd h hn⟩
    · intro hx
      exact hx.1 h
  · rw [if_neg h]
    constructor
    · intro hy
      exact ⟨fun hc => absurd hc h, fun _ => hy⟩
    · intro hy
      exact hy.2 h

theorem safe_get_bind {f : CPUI386 → M β} : Safe (get >>= f) s ↔ Safe (f s) s := Iff.rfl

theorem safe_modify (f : CPUI386 → CPUI386) : Safe (modify f) s ↔ True := by
  constructor
  · intro _
    trivial
  · rintro - ⟨⟩

theorem safe_stop_wild : Safe (stop .wild : M α) s ↔ False := by
  constructor
  · intro h
    exact h rfl
  · intro h
    exact h.elim

theorem pload8_run_inMem (h : s.inMem a) : pload8 a s = .ok (s.byteAt a) s := by
  unfold pload8
  rw [get_bind_run, if_pos h]
  rfl

theorem safe_pload8 : Safe (pload8 a) s ↔ s.inMem a := by
  unfold pload8
  rw [safe_get_bind, safe_ite, safe_pure, safe_stop_wild]
  tauto

theorem safe_pload16 : Safe (pload16 a) s ↔ s.inMem a ∧ s.inMem (a + 1) := by
  unfold pload16
  rw [safe_get_bind, safe_ite, safe_pure, safe_stop_wild]
  tauto

theorem safe_pload32 : Safe (pload32 a) s ↔
    s.inMem a ∧ s.inMem (a + 1) ∧ s.inMem (a + 2) ∧ s.inMem (a + 3) := by
  unfold pload32
  rw [safe_get_bind, safe_ite, safe_pure, safe_stop_wild]
  tauto

theorem safe_bind {x : M α} {f : α → M β} :
    Safe (x >>= f) s ↔ Safe x s ∧ ∀ v t, x s = .ok v t → Safe (f v) t := by
  unfold Safe
  rw [bind_run]
  cases hx : x s with
  | ok v t =>
    constructor
    · intro h
      refine ⟨fun h => (nomatch h), ?_⟩
      rintro v' t' ⟨⟩
      exact h
    · intro h
      exact h.2 v t rfl
  | fault t =>
    constructor
    · intro _
      exact ⟨fun h => (nomatch h), fun _ _ h => (nomatch h)⟩
    · rintro - ⟨⟩
  | stop why =>
    constructor
    · intro h
      refine ⟨?_, fun _ _ h => (nomatch h)⟩
      rintro ⟨⟩
      exact h rfl
    · rintro ⟨h, -⟩ ⟨⟩
      exact h rfl

theorem safe_pload8_bind {f : Byte → M β} :
    Safe (pload8 a >>= f) s ↔ s.inMem a ∧ Safe (f (s.byteAt a)) s := by
  rw [safe_bind, safe_pload8]
  refine and_congr_right fun h => ?_
  constructor
  · intro hf
    exact hf _ _ (pload8_run_inMem h)
  · intro hf v t hv
    rw [pload8_run_inMem h] at hv
    cases hv
    exact hf

theorem pload16_run_inMem (h : s.inMem a ∧ s.inMem (a + 1)) :
    pload16 a s = .ok (s.wordAt a) s := by
  unfold pload16
  rw [get_bind_run, if_pos h]
  rfl

theorem safe_pload16_bind {f : BitVec 16 → M β} :
    Safe (pload16 a >>= f) s ↔ (s.inMem a ∧ s.inMem (a + 1)) ∧ Safe (f (s.wordAt a)) s := by
  rw [safe_bind, safe_pload16]
  refine and_congr_right fun h => ?_
  constructor
  · intro hf
    exact hf _ _ (pload16_run_inMem h)
  · intro hf v t hv
    rw [pload16_run_inMem h] at hv
    cases hv
    exact hf

theorem pstore8_run_inMem {v : Byte} (h : s.inMem a) : pstore8 a v s = .ok () (s.setMem a v) := by
  unfold pstore8
  rw [get_bind_run, if_pos h]
  rfl

theorem safe_pstore8 {v : Byte} : Safe (pstore8 a v) s ↔ s.inMem a := by
  unfold pstore8
  rw [safe_get_bind, safe_ite, safe_modify, safe_stop_wild]
  tauto

theorem safe_pstore8_bind {v : Byte} {f : Unit → M β} :
    Safe (pstore8 a v >>= f) s ↔ s.inMem a ∧ Safe (f ()) (s.setMem a v) := by
  rw [safe_bind, safe_pstore8]
  refine and_congr_right fun h => ?_
  constructor
  · intro hf
    exact hf _ _ (pstore8_run_inMem h)
  · intro hf v' t hv
    rw [pstore8_run_inMem h] at hv
    cases hv
    exact hf

theorem inMem_setMem {b : Word} {v : Byte} : (s.setMem b v).inMem a ↔ s.inMem a := Iff.rfl

theorem safe_pstore16 {v : BitVec 16} :
    Safe (pstore16 a v) s ↔ s.inMem a ∧ s.inMem (a + 1) := by
  unfold pstore16
  rw [safe_pstore8_bind, safe_pstore8, inMem_setMem]

theorem safe_pstore32 {v : Word} : Safe (pstore32 a v) s ↔
    s.inMem a ∧ s.inMem (a + 1) ∧ s.inMem (a + 2) ∧ s.inMem (a + 3) := by
  unfold pstore32
  rw [safe_pstore8_bind, safe_pstore8_bind, safe_pstore8_bind, safe_pstore8]
  exact Iff.rfl

theorem safe_pstore16_bind {v : BitVec 16} {f : Unit → M β} {c : Prop}
    (hf : ∀ t, t.memSize = s.memSize → (Safe (f ()) t ↔ c)) :
    Safe (pstore16 a v >>= f) s ↔ (s.inMem a ∧ s.inMem (a + 1)) ∧ c := by
  have hrun : s.inMem a ∧ s.inMem (a + 1) → pstore16 a v s = .ok ()
      ((s.setMem a (v.setWidth 8)).setMem (a + 1) ((v >>> 8).setWidth 8)) := by
    intro h
    unfold pstore16
    rw [bind_run_ok (pstore8_run_inMem h.1)]
    exact pstore8_run_inMem (inMem_setMem.mpr h.2)
  rw [safe_bind, safe_pstore16]
  refine and_congr_right fun h => ?_
  constructor
  · intro hc
    have hsafe := hc _ _ (hrun h)
    refine (hf _ ?_).mp hsafe
    rfl
  · intro hc v' t hv
    rw [hrun h] at hv
    cases hv
    refine (hf _ ?_).mpr hc
    rfl

end Safe

def Width.bytes : Width → Nat
  | .b8 => 1
  | .b16 => 2
  | .b32 => 4

theorem Width.bytes_pos (w : Width) : 0 < w.bytes := by cases w <;> decide

theorem Width.bytes_le (w : Width) : w.bytes ≤ 4 := by cases w <;> decide

/-- The address of byte `k` of an operand. -/
def OptAddr.byte (res : OptAddr) (k : Nat) : Word :=
  match res.addr2 with
  | none => res.addr1 + BitVec.ofNat 32 k
  | some addr2 =>
    let n := 0x1000 - (res.addr1 &&& 0xfff).toNat
    if k < n then res.addr1 + BitVec.ofNat 32 k else addr2 + BitVec.ofNat 32 (k - n)

/-- Loads see the BIOS through its alias at the top of memory; stores do not. -/
def OptAddr.mapped (res : OptAddr) : OptAddr := ⟨mapBiosAlias res.addr1, res.addr2.map mapBiosAlias⟩

/-- Every byte of the operand is in guest memory. -/
def OptAddr.InMem (res : OptAddr) (w : Width) (s : CPUI386) : Prop :=
  ∀ k, k < w.bytes → s.inMem (res.byte k)

/-- A second page is reached exactly when the operand crosses the end of the first. -/
def OptAddr.Fits (res : OptAddr) (w : Width) : Prop :=
  res.addr2.isSome = true → 0x1000 < (res.addr1 &&& 0xfff).toNat + w.bytes

inductive MemOp where
  | load (w : Width)
  | store (w : Width) (v : Word)
  deriving DecidableEq, Repr

def MemOp.width : MemOp → Width
  | load w => w
  | store w _ => w

/-- `load8` to `load32` and `store8` to `store32`. -/
def MemOp.run (res : OptAddr) : MemOp → M Unit
  | load .b8 => do let _ ← load8 res
  | load .b16 => do let _ ← load16 res
  | load .b32 => do let _ ← load32 res
  | store .b8 v => store8 res (v.setWidth 8)
  | store .b16 v => store16 res (v.setWidth 16)
  | store .b32 v => store32 res v

/-- The access goes to guest memory: no device takes it, and the first byte is in range. -/
def MemOp.ToMem (res : OptAddr) (s : CPUI386) : MemOp → Prop
  | load w => s.iomemReader w (mapBiosAlias res.addr1) = none ∧ s.inMem (mapBiosAlias res.addr1)
  | store w _ => s.iomemWriter w res.addr1 = false ∧ s.inMem res.addr1

def MemOp.operand (res : OptAddr) : MemOp → OptAddr
  | load _ => res.mapped
  | store _ _ => res

theorem inIomem_toNat_iff (a : Word) :
    inIomem a = true ↔ 0xa0000 ≤ a.toNat ∧ a.toNat < 0xc0000 ∨ 0xe0000000 ≤ a.toNat := by
  unfold inIomem
  by_cases h : a < 0xa0000
  · rw [if_pos h]
    have h' : a.toNat < 0xa0000 := h
    simp only [Bool.false_eq_true, false_iff]
    omega
  · rw [if_neg h]
    have h' : ¬ a.toNat < 0xa0000 := h
    simp only [Bool.or_eq_true, decide_eq_true_eq, BitVec.lt_def, BitVec.le_def]
    have h1 : (0xc0000 : Word).toNat = 0xc0000 := rfl
    have h2 : (0xe0000000 : Word).toNat = 0xe0000000 := rfl
    omega

theorem mapBiosAlias_ram {a : Word} (h : inIomem a = false) : mapBiosAlias a = a := by
  unfold mapBiosAlias
  refine if_neg ?_
  intro hle
  have hle' : 0xfffe0000 ≤ a.toNat := hle
  have ht : inIomem a = true := (inIomem_toNat_iff a).mpr (Or.inr (by omega))
  rw [h] at ht
  cases ht

theorem mapBiosAlias_low (a : Word) : mapBiosAlias a &&& 0xfff = a &&& 0xfff := by
  unfold mapBiosAlias
  split
  · rw [BitVec.and_assoc]
    rfl
  · rfl

/-- The bytes of an operand that crosses a page, by how many of them are in the first page. -/
theorem OptAddr.byte_crossing {res : OptAddr} {addr2 : Word} (h2 : res.addr2 = some addr2)
    {n : Nat} (hn : (res.addr1 &&& 0xfff).toNat + n = 0x1000) (k : Nat) :
    res.byte k = if k < n then res.addr1 + BitVec.ofNat 32 k
      else addr2 + BitVec.ofNat 32 (k - n) := by
  have hsub : 0x1000 - (res.addr1 &&& 0xfff).toNat = n := by omega
  rw [OptAddr.byte, h2]
  simp only [hsub]

theorem inMem_b16 {res : OptAddr} {s : CPUI386} :
    res.InMem .b16 s ↔ s.inMem (res.byte 0) ∧ s.inMem (res.byte 1) := by
  constructor
  · intro h
    exact ⟨h 0 (by decide), h 1 (by decide)⟩
  · rintro ⟨h0, h1⟩ k hk
    obtain rfl | rfl : k = 0 ∨ k = 1 := by
      change k < 2 at hk
      omega
    · exact h0
    · exact h1

theorem inMem_b32 {res : OptAddr} {s : CPUI386} :
    res.InMem .b32 s ↔ s.inMem (res.byte 0) ∧ s.inMem (res.byte 1) ∧ s.inMem (res.byte 2) ∧
      s.inMem (res.byte 3) := by
  constructor
  · intro h
    exact ⟨h 0 (by decide), h 1 (by decide), h 2 (by decide), h 3 (by decide)⟩
  · rintro ⟨h0, h1, h2, h3⟩ k hk
    obtain rfl | rfl | rfl | rfl : k = 0 ∨ k = 1 ∨ k = 2 ∨ k = 3 := by
      change k < 4 at hk
      omega
    · exact h0
    · exact h1
    · exact h2
    · exact h3

theorem and_f_of_and_fff (a : Word) {d : Nat} (h : (a &&& 0xfff).toNat = d) :
    (a &&& 0xf).toNat = d % 16 := by
  rw [and_f_eq]
  rw [BitVec.toNat_and] at h
  have h12 : a.toNat &&& (0xfff : Word).toNat = a.toNat % 4096 :=
    Nat.and_two_pow_sub_one_eq_mod a.toNat 12
  omega

theorem add_zero_word (a : Word) : a + BitVec.ofNat 32 0 = a := BitVec.add_zero a

section MemOpSafe

variable {res : OptAddr} {s : CPUI386} {v : Word}

theorem mapped_addr1 : res.mapped.addr1 = mapBiosAlias res.addr1 := rfl

theorem mapped_addr2 : res.mapped.addr2 = res.addr2.map mapBiosAlias := rfl

/-- How many bytes are in the first page when there is a second one. -/
theorem OptAddr.Fits.split {w : Width} (hf : res.Fits w) (h2 : res.addr2.isSome = true) :
    ∃ n, 0 < n ∧ n < w.bytes ∧ (res.addr1 &&& 0xfff).toNat + n = 0x1000 := by
  have hlt : (res.addr1 &&& 0xfff).toNat < 0x1000 := by
    rw [BitVec.toNat_and]
    exact lt_of_le_of_lt Nat.and_le_right (by decide)
  have h := hf h2
  exact ⟨0x1000 - (res.addr1 &&& 0xfff).toNat, by omega, by omega, by omega⟩

theorem OptAddr.Fits.mapped {w : Width} (hf : res.Fits w) : res.mapped.Fits w := by
  intro h2
  rw [mapped_addr1, mapBiosAlias_low]
  apply hf
  rw [mapped_addr2, Option.isSome_map] at h2
  exact h2

theorem safe_iff_of_toMem {α : Type} {x : M α} {toMem c : Prop} (hother : ¬ toMem → Safe x s)
    (hmem : toMem → (Safe x s ↔ c)) : Safe x s ↔ (toMem → c) := by
  constructor
  · intro hs ht
    exact (hmem ht).mp hs
  · intro hc
    by_cases ht : toMem
    · exact (hmem ht).mpr (hc ht)
    · exact hother ht

/-- A load that a device takes, or whose first byte is out of range, touches no memory. -/
theorem safe_load {α : Type} {w : Width} {dev : (List IoEvent → Word → Word) → M α} {zero : α}
    {x : M α} {c : Prop} (hdev : ∀ read, Safe (dev read) s)
    (hx : s.inMem (mapBiosAlias res.addr1) → (Safe x s ↔ c)) :
    Safe (match s.iomemReader w (mapBiosAlias res.addr1) with
      | some read => dev read
      | none => if ¬ s.inMem (mapBiosAlias res.addr1) then pure zero else x) s ↔
      (MemOp.ToMem res s (.load w) → c) := by
  apply safe_iff_of_toMem
  · intro hn
    cases hr : s.iomemReader w (mapBiosAlias res.addr1) with
    | some read => exact hdev read
    | none =>
      have hout : ¬ s.inMem (mapBiosAlias res.addr1) := fun hin => hn ⟨hr, hin⟩
      simp only [hout, not_false_eq_true, if_true]
      exact (safe_pure zero).mpr trivial
  · rintro ⟨hr, hin⟩
    simp only [hr, hin, not_true_eq_false, if_false]
    exact hx hin

theorem safe_store {w : Width} {dev x : M Unit} {c : Prop} (hdev : Safe dev s)
    (hx : s.inMem res.addr1 → (Safe x s ↔ c)) :
    Safe (if s.iomemWriter w res.addr1 then dev
      else if ¬ s.inMem res.addr1 then pure () else x) s ↔
      (MemOp.ToMem res s (.store w v) → c) := by
  apply safe_iff_of_toMem
  · intro hn
    rw [safe_ite, safe_ite]
    refine ⟨fun _ => hdev, fun hw => ⟨fun _ => (safe_pure ()).mpr trivial, fun hin => ?_⟩⟩
    exact absurd ⟨Bool.eq_false_of_not_eq_true hw, Decidable.not_not.mp hin⟩ hn
  · rintro ⟨hw, hin⟩
    simp only [hw, hin, not_true_eq_false, Bool.false_eq_true, if_false]
    exact hx hin

theorem byte_one_page (h2 : res.addr2 = none) (k : Nat) :
    res.byte k = res.addr1 + BitVec.ofNat 32 k := by
  rw [OptAddr.byte, h2]

theorem byte_zero : res.byte 0 = res.addr1 := by
  have hlt : (res.addr1 &&& 0xfff).toNat < 0x1000 := by
    rw [BitVec.toNat_and]
    exact lt_of_le_of_lt Nat.and_le_right (by decide)
  unfold OptAddr.byte
  cases res.addr2 with
  | none => exact add_zero_word _
  | some addr2 =>
    simp only []
    rw [if_pos (by omega), add_zero_word]

theorem inMem_b8 : res.InMem .b8 s ↔ s.inMem res.addr1 := by
  constructor
  · intro h
    have h0 := h 0 (by decide)
    rw [byte_zero] at h0
    exact h0
  · intro h k hk
    obtain rfl : k = 0 := by
      change k < 1 at hk
      omega
    rw [byte_zero]
    exact h

theorem inMem_b16_one (h2 : res.addr2 = none) :
    res.InMem .b16 s ↔ s.inMem res.addr1 ∧ s.inMem (res.addr1 + 1) := by
  rw [inMem_b16, byte_zero, byte_one_page h2]
  exact Iff.rfl

theorem inMem_b32_one (h2 : res.addr2 = none) :
    res.InMem .b32 s ↔ s.inMem res.addr1 ∧ s.inMem (res.addr1 + 1) ∧ s.inMem (res.addr1 + 2) ∧
      s.inMem (res.addr1 + 3) := by
  rw [inMem_b32, byte_zero, byte_one_page h2, byte_one_page h2, byte_one_page h2]
  exact Iff.rfl

theorem safe_load8 :
    Safe (load8 res) s ↔ (MemOp.ToMem res s (.load .b8) → res.mapped.InMem .b8 s) := by
  refine safe_load (fun read => ?_) (fun hin => ?_)
  · rintro ⟨⟩
  · rw [safe_pload8, inMem_b8]
    exact Iff.rfl

theorem safe_load16 (hf : res.Fits .b16) :
    Safe (load16 res) s ↔ (MemOp.ToMem res s (.load .b16) → res.mapped.InMem .b16 s) := by
  refine safe_load (fun read => ?_) (fun hin => ?_)
  · rintro ⟨⟩
  · cases h2 : res.addr2 with
    | none =>
      have hm2 : res.mapped.addr2 = none := by rw [mapped_addr2, h2, Option.map_none]
      rw [safe_pload16, inMem_b16_one hm2]
      exact Iff.rfl
    | some addr2 =>
      have hm2 : res.mapped.addr2 = some (mapBiosAlias addr2) := by
        rw [mapped_addr2, h2, Option.map_some]
      obtain ⟨n, hn, hn', hlow⟩ := hf.mapped.split (by rw [hm2]; rfl)
      obtain rfl : n = 1 := by
        change n < 2 at hn'
        omega
      change Safe (pload8 _ >>= fun lo => pload8 _ >>= fun hi => pure (hi ++ lo)) s ↔ _
      rw [safe_pload8_bind, safe_pload8_bind, safe_pure, inMem_b16, byte_zero,
        OptAddr.byte_crossing hm2 hlow, if_neg (by decide), Nat.sub_self, add_zero_word,
        and_true]
      exact Iff.rfl

/-- The low digit by which `load32` and `store32` tell the ways of crossing apart. -/
theorem low_digit {a : Word} {n : Nat} (hn : 0 < n) (hn' : n < 4)
    (h : (a &&& 0xfff).toNat + n = 0x1000) : a &&& 0xf = BitVec.ofNat 32 (16 - n) := by
  apply BitVec.eq_of_toNat_eq
  rw [and_f_of_and_fff a rfl, BitVec.toNat_ofNat]
  omega

theorem inMem_b32_crossing {addr2 : Word} (h2 : res.addr2 = some addr2) {n : Nat}
    (hlow : (res.addr1 &&& 0xfff).toNat + n = 0x1000) :
    res.InMem .b32 s ↔ s.inMem res.addr1 ∧
      s.inMem (if 1 < n then res.addr1 + 1 else addr2 + BitVec.ofNat 32 (1 - n)) ∧
      s.inMem (if 2 < n then res.addr1 + 2 else addr2 + BitVec.ofNat 32 (2 - n)) ∧
      s.inMem (if 3 < n then res.addr1 + 3 else addr2 + BitVec.ofNat 32 (3 - n)) := by
  rw [inMem_b32, byte_zero, OptAddr.byte_crossing h2 hlow, OptAddr.byte_crossing h2 hlow,
    OptAddr.byte_crossing h2 hlow]
  exact Iff.rfl

theorem add_one_add_one (a : Word) : a + 1 + 1 = a + 2 := by
  rw [BitVec.add_assoc]
  rfl

theorem safe_load32 (hf : res.Fits .b32) :
    Safe (load32 res) s ↔ (MemOp.ToMem res s (.load .b32) → res.mapped.InMem .b32 s) := by
  refine safe_load (fun read => ?_) (fun hin => ?_)
  · rintro ⟨⟩
  · cases h2 : res.addr2 with
    | none =>
      have hm2 : res.mapped.addr2 = none := by rw [mapped_addr2, h2, Option.map_none]
      rw [safe_pload32, inMem_b32_one hm2]
      exact Iff.rfl
    | some addr2 =>
      have hm2 : res.mapped.addr2 = some (mapBiosAlias addr2) := by
        rw [mapped_addr2, h2, Option.map_some]
      obtain ⟨n, hn, hn', hlow⟩ := hf.mapped.split (by rw [hm2]; rfl)
      have hd := low_digit hn hn' hlow
      rw [inMem_b32_crossing hm2 hlow]
      rw [mapped_addr1] at hd ⊢
      obtain rfl | rfl | rfl : n = 1 ∨ n = 2 ∨ n = 3 := by
        change n < 4 at hn'
        omega
      · simp only [hd]
        rw [if_pos (by decide), safe_pload8_bind, safe_pload16_bind, safe_pload8_bind, safe_pure]
        simp only [Nat.lt_irrefl, if_false, add_zero_word, Nat.sub_self,
          Nat.reduceSub, Nat.reduceLT, and_true, and_assoc]
        exact Iff.rfl
      · simp only [hd]
        rw [if_neg (by decide), if_pos (by decide), safe_pload16_bind, safe_pload16_bind,
          safe_pure]
        simp only [Nat.lt_irrefl, if_true, if_false, add_zero_word, Nat.sub_self,
          Nat.reduceSub, Nat.reduceLT, and_true, and_assoc]
        exact Iff.rfl
      · simp only [hd]
        rw [if_neg (by decide), if_neg (by decide), if_pos (by decide), safe_pload8_bind,
          safe_pload16_bind, safe_pload8_bind, safe_pure]
        simp only [Nat.lt_irrefl, if_true, if_false, add_zero_word, Nat.sub_self,
          Nat.reduceSub, Nat.reduceLT, and_true, and_assoc, add_one_add_one]

theorem safe_store8 :
    Safe (store8 res (v.setWidth 8)) s ↔ (MemOp.ToMem res s (.store .b8 v) → res.InMem .b8 s) := by
  refine safe_store ?_ (fun hin => ?_)
  · rintro ⟨⟩
  · rw [safe_pstore8, inMem_b8]

theorem safe_store16 (hf : res.Fits .b16) :
    Safe (store16 res (v.setWidth 16)) s ↔
      (MemOp.ToMem res s (.store .b16 v) → res.InMem .b16 s) := by
  refine safe_store ?_ (fun hin => ?_)
  · rintro ⟨⟩
  · cases h2 : res.addr2 with
    | none => rw [safe_pstore16, inMem_b16_one h2]
    | some addr2 =>
      obtain ⟨n, hn, hn', hlow⟩ := hf.split (by rw [h2]; rfl)
      obtain rfl : n = 1 := by
        change n < 2 at hn'
        omega
      change Safe (pstore8 _ _ >>= fun _ => pstore8 addr2 _) s ↔ _
      rw [safe_pstore8_bind, safe_pstore8, inMem_setMem, inMem_b16, byte_zero,
        OptAddr.byte_crossing h2 hlow, if_neg (by decide), Nat.sub_self, add_zero_word]

theorem safe_store32 (hf : res.Fits .b32) :
    Safe (store32 res v) s ↔ (MemOp.ToMem res s (.store .b32 v) → res.InMem .b32 s) := by
  refine safe_store ?_ (fun hin => ?_)
  · rintro ⟨⟩
  · cases h2 : res.addr2 with
    | none => rw [safe_pstore32, inMem_b32_one h2]
    | some addr2 =>
      obtain ⟨n, hn, hn', hlow⟩ := hf.split (by rw [h2]; rfl)
      have hd := low_digit hn hn' hlow
      have hsize : ∀ {t : CPUI386} {a : Word}, t.memSize = s.memSize → (t.inMem a ↔ s.inMem a) := by
        intro t a ht
        rw [CPUI386.inMem, CPUI386.inMem, ht]
      rw [inMem_b32_crossing h2 hlow]
      obtain rfl | rfl | rfl : n = 1 ∨ n = 2 ∨ n = 3 := by
        change n < 4 at hn'
        omega
      · simp only [hd]
        rw [if_pos (by decide), safe_pstore8_bind, safe_pstore16_bind (c := s.inMem (addr2 + 2))]
        · simp only [Nat.lt_irrefl, if_false, add_zero_word, Nat.sub_self,
            Nat.reduceSub, Nat.reduceLT, and_assoc, inMem_setMem]
          exact Iff.rfl
        · intro t ht
          rw [safe_pstore8]
          exact hsize ht
      · simp only [hd]
        rw [if_neg (by decide), if_pos (by decide),
          safe_pstore16_bind (c := s.inMem addr2 ∧ s.inMem (addr2 + 1))]
        · simp only [Nat.lt_irrefl, if_true, if_false, add_zero_word, Nat.sub_self,
            Nat.reduceSub, Nat.reduceLT, and_assoc]
          exact Iff.rfl
        · intro t ht
          rw [safe_pstore16, hsize ht, hsize ht]
      · simp only [hd]
        rw [if_neg (by decide), if_neg (by decide), if_pos (by decide), safe_pstore8_bind,
          safe_pstore16_bind (c := s.inMem addr2)]
        · simp only [Nat.lt_irrefl, if_true, if_false, add_zero_word, Nat.sub_self,
            Nat.reduceSub, Nat.reduceLT, and_assoc, inMem_setMem, add_one_add_one]
        · intro t ht
          rw [safe_pstore8]
          exact hsize ht

theorem safe_run (op : MemOp) (hf : res.Fits op.width) :
    Safe (op.run res) s ↔ (op.ToMem res s → (op.operand res).InMem op.width s) := by
  have hload : ∀ {α : Type} (x : M α), Safe (x >>= fun _ => pure ()) s ↔ Safe x s := by
    intro α x
    rw [safe_bind]
    exact and_iff_left fun _ _ _ => (safe_pure ()).mpr trivial
  cases op with
  | load w =>
    cases w with
    | b8 => exact (hload (load8 res)).trans safe_load8
    | b16 => exact (hload (load16 res)).trans (safe_load16 hf)
    | b32 => exact (hload (load32 res)).trans (safe_load32 hf)
  | store w v =>
    cases w with
    | b8 => exact safe_store8
    | b16 => exact safe_store16 hf
    | b32 => exact safe_store32 hf

end MemOpSafe

/-- `translate`, then the load or store of its size. -/
def MemOp.access (op : MemOp) (rwm : Nat) (seg : SegReg) (addr : Word) (cpl : Nat) : M Unit := do
  let res ← translate rwm seg addr op.width.bytes cpl
  op.run res

section Access

variable {s : CPUI386} {rwm cpl : Nat} {laddr : Word}

theorem xor_low {x a : Word} (h : x &&& 0xfff = 0) : (x ^^^ a) &&& 0xfff = a &&& 0xfff := by
  apply BitVec.eq_of_getLsbD_eq
  intro i hi
  have hx := congrArg (fun y : Word => y.getLsbD i) h
  simp only [BitVec.getLsbD_and] at hx
  have hz : (0 : Word).getLsbD i = false := BitVec.getLsbD_zero
  rw [BitVec.getLsbD_and, BitVec.getLsbD_and, BitVec.getLsbD_xor]
  cases hm : (0xfff : Word).getLsbD i with
  | false => rw [Bool.and_false, Bool.and_false]
  | true =>
    rw [hm, Bool.and_true, hz] at hx
    rw [hx, Bool.false_xor]

theorem operand_fits (ha : s.Aligned) {w : Width} {res : OptAddr}
    (h : s.operand rwm laddr w.bytes cpl = some res) : res.Fits w := by
  intro h2
  unfold CPUI386.operand at h
  split at h
  · cases hf : s.lookup rwm (laddr >>> 12) cpl with
    | none =>
      rw [hf] at h
      cases h
    | some f =>
      have hx := lookup_aligned ha (ne_noPage_of_laddr laddr) hf
      simp only [hf] at h
      split at h
      · rename_i hst
        cases hf2 : s.lookup rwm (nextPage laddr) cpl with
        | none =>
          rw [hf2] at h
          cases h
        | some f2 =>
          rw [hf2] at h
          rw [← Option.some.inj h]
          simp only [xor_low hx]
          unfold Straddles at hst
          have hb : w.bytes ≤ 0x1000 := by cases w <;> decide
          omega
      · rw [← Option.some.inj h] at h2
        cases h2
  · rw [← Option.some.inj h] at h2
    cases h2

/-- Whether an access goes to memory, and whether it stays there, is not touched by the caches. -/
theorem toMem_congr {s' : CPUI386} (hc : Cached s s') (op : MemOp) (res : OptAddr) :
    (op.ToMem res s' → (op.operand res).InMem op.width s') ↔
      (op.ToMem res s → (op.operand res).InMem op.width s) := by
  have hin : ∀ a, s'.inMem a ↔ s.inMem a := by
    intro a
    rw [CPUI386.inMem, CPUI386.inMem, hc.memSize]
  have hcb : s'.cb = s.cb := by rw [hc.rest]
  have hto : op.ToMem res s' ↔ op.ToMem res s := by
    cases op with
    | load w =>
      change s'.iomemReader w _ = none ∧ s'.inMem _ ↔ s.iomemReader w _ = none ∧ s.inMem _
      rw [CPUI386.iomemReader, CPUI386.iomemReader, hcb, hin]
    | store w v =>
      change s'.iomemWriter w _ = false ∧ s'.inMem _ ↔ s.iomemWriter w _ = false ∧ s.inMem _
      rw [CPUI386.iomemWriter, CPUI386.iomemWriter, hcb, hin]
  have hall : (op.operand res).InMem op.width s' ↔ (op.operand res).InMem op.width s := by
    unfold OptAddr.InMem
    simp only [hin]
  rw [hto, hall]

theorem safe_tlbRefill (lpgno : Word) : Safe (tlbRefill lpgno) s ↔ s.WalkInMem lpgno := by
  unfold Safe
  cases hx : tlbRefill lpgno s with
  | ok b t => exact iff_of_true (fun hs => (nomatch hs)) (wp_ok (tlbRefill_spec s lpgno) hx).1
  | fault t => exact (wp_faulted (tlbRefill_spec s lpgno) hx).elim
  | stop why =>
    obtain ⟨rfl, hout⟩ := wp_stopped (tlbRefill_spec s lpgno) hx
    exact iff_of_false (fun hs => hs rfl) hout

/-- What keeps an access in guest memory: the tables it walks are there, and so is every byte of
an operand whose first byte is. -/
def StaysInMem (s : CPUI386) (op : MemOp) (rwm : Nat) (laddr : Word) (cpl : Nat) : Prop :=
  s.OperandTablesInMem rwm laddr op.width.bytes cpl ∧
    ∀ res, s.operand rwm laddr op.width.bytes cpl = some res → op.ToMem res s →
      (op.operand res).InMem op.width s

theorem safe_translateLaddr_run (ha : s.Aligned) (op : MemOp) :
    Safe (translateLaddr rwm laddr op.width.bytes cpl >>= fun res => op.run res) s ↔
      StaysInMem s op rwm laddr cpl := by
  rw [safe_bind]
  unfold Safe
  cases hx : translateLaddr rwm laddr op.width.bytes cpl s with
  | ok res t =>
    obtain ⟨hc, -, hin, hop⟩ := wp_ok (translateLaddr_operand ha) hx
    constructor
    · intro hs
      refine ⟨hin, ?_⟩
      intro res' hres'
      rw [hop] at hres'
      rw [← Option.some.inj hres']
      exact (toMem_congr hc op res).mp ((safe_run op (operand_fits ha hop)).mp (hs.2 res t rfl))
    · intro hs
      refine ⟨fun hstop => (nomatch hstop), ?_⟩
      rintro res' t' ⟨⟩
      exact (safe_run op (operand_fits ha hop)).mpr ((toMem_congr hc op res).mpr (hs.2 res hop))
  | fault t =>
    obtain ⟨-, hin, hop⟩ := wp_faulted (translateLaddr_operand ha) hx
    refine iff_of_true ⟨fun hstop => (nomatch hstop), fun _ _ hok => (nomatch hok)⟩ ⟨hin, ?_⟩
    intro res hres
    rw [hop] at hres
    cases hres
  | stop why =>
    obtain ⟨rfl, hout⟩ := wp_stopped (translateLaddr_operand ha) hx
    exact iff_of_false (fun hs => hs.1 rfl) (fun hs => hout hs.1)

/-- In every state of every run, an access stays in guest memory exactly when the tables it walks
are there and its operand does not reach past the end; the walk alone, when its entries are. -/
theorem access_safe_iff (h : CacheRun s) :
    (∀ (op : MemOp) (rwm : Nat) (seg : SegReg) (addr : Word) (cpl : Nat),
      Safe (op.access rwm seg addr cpl) s ↔
        (¬ NullSegment s seg → StaysInMem s op rwm ((s.seg seg).base + addr) cpl)) ∧
    ∀ lpgno, Safe (tlbRefill lpgno) s ↔ s.WalkInMem lpgno := by
  refine ⟨?_, safe_tlbRefill⟩
  intro op rwm seg addr cpl
  have ha := cacheRun_aligned h
  unfold MemOp.access translate
  by_cases hnull : NullSegment s seg
  · refine iff_of_true ?_ (fun hn => absurd hnull hn)
    have hrun : segcheck seg s = .fault { s with excno := exGP, excerr := 0 } := by
      unfold segcheck
      rw [get_bind_run]
      exact congrFun (if_pos hnull) s
    intro hstop
    rw [bind_run, bind_run, get_run] at hstop
    simp only [bind_run, hrun] at hstop
    cases hstop
  · have hrun : segcheck seg s = .ok () s := by
      unfold segcheck
      rw [get_bind_run]
      exact congrFun (if_neg hnull) s
    have hgo : (get >>= fun s' => segcheck seg >>= fun _ =>
        translateLaddr rwm ((s'.seg seg).base + addr) op.width.bytes cpl) s =
        translateLaddr rwm ((s.seg seg).base + addr) op.width.bytes cpl s := by
      rw [get_bind_run, bind_run_ok hrun]
    have hsafe : Safe (translateLaddr rwm ((s.seg seg).base + addr) op.width.bytes cpl >>=
        fun res => op.run res) s ↔ StaysInMem s op rwm ((s.seg seg).base + addr) cpl :=
      safe_translateLaddr_run ha op
    constructor
    · intro hs _
      apply hsafe.mp
      unfold Safe at hs ⊢
      rw [bind_run, hgo] at hs
      exact hs
    · intro hs
      have := hsafe.mpr (hs hnull)
      unfold Safe at this ⊢
      rw [bind_run, hgo]
      exact this

end Access

/-- After a reset, with 16 KiB of memory. -/
def smallCpu : CPUI386 := cpui386New .i486 (fun _ => 0) 0x4000 false false

/-- A word at the last byte of memory: only the first byte is checked. -/
theorem load16_past_end : CacheRun smallCpu ∧
    ¬ Safe (MemOp.access (.load .b16) 1 .ds 0x3fff 0) smallCpu := by
  refine ⟨.reset ⟨fun _ => rfl, fun _ => rfl, fun _ => rfl⟩, ?_⟩
  intro h
  exact h rfl

/-- A directory at 0x1000 and a table at 0x2000 that map page 0 to the last frame and page 1 to the
first. -/
def crossedMem : Nat → Byte
  | 0x1000 => 0x07
  | 0x1001 => 0x20
  | 0x2000 => 0x07
  | 0x2001 => 0x30
  | 0x2004 => 0x07
  | _ => 0

def crossingCpu : CPUI386 :=
  { cpui386New .i486 crossedMem 0x4000 false false with cr0 := 0x80010001, cr3 := 0x1000 }

/-- Two bytes are the last ones of memory, and two the first ones. -/
theorem access_safe_crossing : CacheRun crossingCpu ∧
    crossingCpu.operand 1 0xffe 4 0 = some ⟨0x3ffe, some 0⟩ ∧
      Safe (MemOp.access (.load .b32) 1 .ds 0xffe 0) crossingCpu := by
  have hr : CacheRun crossingCpu := .reset ⟨fun _ => rfl, fun _ => rfl, fun _ => rfl⟩
  have hop : crossingCpu.operand 1 0xffe 4 0 = some ⟨0x3ffe, some 0⟩ := by decide
  refine ⟨hr, hop, ((access_safe_iff hr).1 _ _ _ _ _).mpr fun _ => ⟨?_, ?_⟩⟩
  · have hunmarked : ∀ l f a, (crossingCpu.lookup 1 l 0).bind (fun f => f.mark) = none →
        crossingCpu.lookup 1 l 0 = some f → f.mark = some a → crossingCpu.inMem a := by
      intro l f a hnone hf hm
      rw [hf, Option.bind_some, hm] at hnone
      cases hnone
    have htables : ∀ l, l = 0 ∨ l = 1 → crossingCpu.TablesInMem 1 l 0 := by
      rintro l (rfl | rfl)
      · exact ⟨fun _ _ => ⟨by decide, fun _ => by decide⟩, fun f a => hunmarked 0 f a (by decide)⟩
      · exact ⟨fun _ _ => ⟨by decide, fun _ => by decide⟩, fun f a => hunmarked 1 f a (by decide)⟩
    exact fun _ => ⟨htables _ (Or.inl rfl), fun _ _ => htables _ (Or.inr rfl)⟩
  · intro res hres _
    have hone : res = ⟨0x3ffe, some 0⟩ := (Option.some.inj (hop.symm.trans hres)).symm
    rw [hone]
    exact inMem_b32.mpr ⟨by decide, by decide, by decide, by decide⟩

end Winspire.Cpu
