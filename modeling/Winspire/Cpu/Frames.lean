import Mathlib.Tactic.IntervalCases
import Winspire.Cpu.BitTests
import Winspire.Cpu.Exchanges

/-!
# Stack frames

`enter_helper`, `ENTER` and `LEAVE` of i386.c, each with `opsz16` and with `sp_mask`.
-/

namespace Winspire.Cpu

open Faulting

set_option autoImplicit false

/-- The loop over the levels. Each turn stores to the same slot: `sp` does not move with ESP. -/
def enterDisplay (w : Width) (mask sp : Word) : Nat → M Unit
  | 0 => pure ()
  | n + 1 => do
    let bp := (← get).gpr 5 - w.size
    if mask = 0xffff then sreg16 5 bp else sreg32 5 bp
    let meml1 ← translateW w 2 .ss ((sp - w.size) &&& mask)
    setSp (sp - w.size) mask
    storeW meml1 ((← get).gpr 5) w
    enterDisplay w mask sp n

def enterHelper (opsz16 : Bool) (mask : Word) (level : Nat) (allocsz : Word) : M Unit := do
  let w := opWidth opsz16
  onlyIf (level = 0) (stop .aborted)
  let sp := (← get).gpr 4
  let meml1 ← translateW w 2 .ss ((sp - w.size) &&& mask)
  setSp (sp - w.size) mask
  storeW meml1 ((← get).gpr 5) w
  let temp := lregW w (← get) 4
  enterDisplay w mask sp (level - 1)
  let meml1 ← translateW w 2 .ss ((sp - w.size) &&& mask)
  setSp (sp - w.size - allocsz) mask
  storeW meml1 temp w
  sregW 5 temp w

def ENTER (opsz16 : Bool) (mask : Word) (i16 : BitVec 16) (i8 : Byte) : M Unit := do
  let w := opWidth opsz16
  let level := i8.toNat % 32
  if level = 0 then do
    let sp := (← get).gpr 4
    let meml1 ← translateW w 2 .ss ((sp - w.size) &&& mask)
    setSp (sp - w.size - i16.setWidth 32) mask
    storeW meml1 ((← get).gpr 5) w
    sregW 5 ((sp - w.size) &&& mask) w
  else enterHelper opsz16 mask level (i16.setWidth 32)

def LEAVE (opsz16 : Bool) (mask : Word) : M Unit := do
  let w := opWidth opsz16
  let sp := (← get).gpr 5
  let meml ← translateW w 1 .ss (sp &&& mask)
  setSp (sp + w.size) mask
  let v ← loadW meml w
  sregW 5 v w

/-- `sp_mask` of a 16-bit or a 32-bit stack. -/
def stackMask (stack16 : Bool) : Word := if stack16 then 0xffff else 0xffffffff

/-- The address of the slot pushed after `k` others. -/
def frameSlot (w : Width) (mask sp : Word) (k : Nat) : Word :=
  (sp - BitVec.ofNat 32 (k + 1) * w.size) &&& mask

/-- The stack holds `v` at an address, as the guest reads it. -/
def StackHolds (w : Width) (addr : Word) (s : CPUI386) (v : Word) : Prop :=
  ∃ m u x t, translateW w 1 .ss addr s = .ok m u ∧ loadW m w u = .ok x t ∧ w.part x = w.part v

def framePushes (level : Nat) : Nat := if level = 0 then 1 else level + 1

/-- The frame between `s` and `t`. -/
structure FrameBuilt (w : Width) (mask : Word) (level : Nat) (allocsz : Word) (s t : CPUI386) :
    Prop where
  sp : t.gpr 4 =
    ((s.gpr 4 - BitVec.ofNat 32 (framePushes level) * w.size - allocsz) &&& mask) |||
      (s.gpr 4 &&& ~~~mask)
  bp : w.part (t.gpr 5) = w.part (frameSlot w mask (s.gpr 4) 0)
  saved : StackHolds w (frameSlot w mask (s.gpr 4) 0) t (s.gpr 5)
  -- An entry that the new frame overwrites is left out.
  display : ∀ i v, 1 ≤ i → i < level →
    StackHolds w ((s.gpr 5 - BitVec.ofNat 32 i * w.size) &&& mask) s v →
    StackHolds w ((s.gpr 5 - BitVec.ofNat 32 i * w.size) &&& mask) t v →
    StackHolds w (frameSlot w mask (s.gpr 4) i) t v
  link : 1 ≤ level → StackHolds w (frameSlot w mask (s.gpr 4) level) t (t.gpr 5)

/-- A frame, and the registers back after LEAVE. -/
structure FrameRight (opsz16 stack16 : Bool) (level : Nat) (allocsz : Word) (s t : CPUI386) :
    Prop where
  built : FrameBuilt (opWidth opsz16) (stackMask stack16) level allocsz s t
  removed : ∃ u, LEAVE opsz16 (stackMask stack16) t = .ok () u ∧ u.gpr 4 = s.gpr 4 ∧
    u.gpr 5 = s.gpr 5

/-- The first slot, where ENTER stores and where a load reads it afterwards. -/
structure FirstSlot (w : Width) (mask : Word) (s : CPUI386) (m m' : OptAddr) (u : CPUI386) :
    Prop where
  stored : translateW w 2 .ss (frameSlot w mask (s.gpr 4) 0) s = .ok m u
  loaded : translateW w 1 .ss (frameSlot w mask (s.gpr 4) 0) u = .ok m' u

def SlotInRam (w : Width) (mask : Word) (s : CPUI386) : Prop :=
  ∀ m m' u, FirstSlot w mask s m m' u → ∀ k, k < w.bytes → u.Ram (m.byte k) ∧ u.Ram (m'.byte k)

/-- Level 0; a 16-bit frame pointer that can hold the address on a 32-bit stack; and no stale
translation for loads, or one that finds the old frame pointer all the same. -/
structure FrameKept (opsz16 stack16 : Bool) (level : Nat) (s : CPUI386) : Prop where
  flat : level = 0
  half : opsz16 = true → stack16 = false → s.gpr 5 >>> 16 = (s.gpr 4 - 2) >>> 16
  seen : ∀ m m' u, FirstSlot (opWidth opsz16) (stackMask stack16) s m m' u →
    ∀ k, k < (opWidth opsz16).bytes →
      m'.byte k = m.byte k ∨ u.byteAt (m'.byte k) = byteOf (s.gpr 5) k

section Words

variable {w : Width} {x y v mask : Word} {b : Bool}

theorem frameSlot_zero (w : Width) (mask sp : Word) :
    frameSlot w mask sp 0 = (sp - w.size) &&& mask := by
  unfold frameSlot
  rw [Nat.zero_add]
  exact congrArg (fun n => (sp - n) &&& mask) (BitVec.one_mul w.size)

/-- The part of the stack pointer that moves, and the part that stays. -/
theorem merge_and (x y mask : Word) : ((x &&& mask) ||| (y &&& ~~~mask)) &&& mask = x &&& mask := by
  apply BitVec.eq_of_getLsbD_eq
  intro i hi
  simp only [BitVec.getLsbD_and, BitVec.getLsbD_or, BitVec.getLsbD_not, hi, decide_true]
  cases x.getLsbD i <;> cases y.getLsbD i <;> cases mask.getLsbD i <;> rfl

theorem merge_not (x y mask : Word) :
    ((x &&& mask) ||| (y &&& ~~~mask)) &&& ~~~mask = y &&& ~~~mask := by
  apply BitVec.eq_of_getLsbD_eq
  intro i hi
  simp only [BitVec.getLsbD_and, BitVec.getLsbD_or, BitVec.getLsbD_not, hi, decide_true]
  cases x.getLsbD i <;> cases y.getLsbD i <;> cases mask.getLsbD i <;> rfl

theorem merge_self (x mask : Word) : (x &&& mask) ||| (x &&& ~~~mask) = x := by
  apply BitVec.eq_of_getLsbD_eq
  intro i hi
  simp only [BitVec.getLsbD_and, BitVec.getLsbD_or, BitVec.getLsbD_not, hi, decide_true]
  cases x.getLsbD i <;> cases mask.getLsbD i <;> rfl

theorem and_ffff_toNat (x : Word) : (x &&& 0xffff).toNat = x.toNat % 65536 := by
  rw [BitVec.toNat_and]
  exact Nat.and_two_pow_sub_one_eq_mod x.toNat 16

theorem and_ffffffff (x : Word) : x &&& 0xffffffff = x := BitVec.and_allOnes

theorem ffff_getLsbD (i : Nat) : (0xffff : Word).getLsbD i = decide (i < 16) :=
  Nat.testBit_two_pow_sub_one 16 i

theorem high_merge (x y : Word) :
    ((x &&& ~~~(0xffff : Word)) ||| (y &&& 0xffff)) >>> 16 = x >>> 16 := by
  apply BitVec.eq_of_getLsbD_eq
  intro i hi
  rw [BitVec.getLsbD_ushiftRight, BitVec.getLsbD_ushiftRight, BitVec.getLsbD_or,
    BitVec.getLsbD_and, BitVec.getLsbD_and, BitVec.getLsbD_not, ffff_getLsbD,
    decide_eq_false (by omega : ¬16 + i < 16)]
  by_cases hin : 16 + i < 32
  · simp [hin]
  · simp [BitVec.getLsbD_of_ge x (16 + i) (by omega)]

theorem high_congr {x y : Word} (h : x >>> 16 = y >>> 16) :
    x &&& ~~~(0xffff : Word) = y &&& ~~~(0xffff : Word) := by
  apply BitVec.eq_of_getLsbD_eq
  intro i hi
  rw [BitVec.getLsbD_and, BitVec.getLsbD_and, BitVec.getLsbD_not, ffff_getLsbD]
  by_cases hlow : i < 16
  · simp [hlow]
  · have hbit := congrArg (fun z : Word => z.getLsbD (i - 16)) h
    simp only [BitVec.getLsbD_ushiftRight] at hbit
    rw [show 16 + (i - 16) = i by omega] at hbit
    rw [hbit]

theorem mod_of_mask (h : x &&& stackMask b = y &&& stackMask b) :
    x.toNat % 65536 = y.toNat % 65536 := by
  cases b with
  | true =>
    have hn := congrArg BitVec.toNat h
    change (x &&& 0xffff).toNat = (y &&& 0xffff).toNat at hn
    rwa [and_ffff_toNat, and_ffff_toNat] at hn
  | false =>
    change x &&& 0xffffffff = y &&& 0xffffffff at h
    rw [and_ffffffff, and_ffffffff] at h
    rw [h]

theorem mask_add (h : x &&& stackMask b = y &&& stackMask b) (c : Word) :
    (x + c) &&& stackMask b = (y + c) &&& stackMask b := by
  cases b with
  | true =>
    have hn := mod_of_mask h
    apply BitVec.eq_of_toNat_eq
    change ((x + c) &&& 0xffff).toNat = ((y + c) &&& 0xffff).toNat
    rw [and_ffff_toNat, and_ffff_toNat, BitVec.toNat_add, BitVec.toNat_add]
    omega
  | false =>
    change x &&& 0xffffffff = y &&& 0xffffffff at h
    rw [and_ffffffff, and_ffffffff] at h
    rw [h]

/-- A frame with levels is too small by the slots that were stored over each other. -/
theorem missing_slots (opsz16 : Bool) {level : Nat} (hpos : level ≠ 0) (hlt : level < 32)
    (sp allocsz : Word) :
    (sp - (opWidth opsz16).size - allocsz) &&& stackMask b ≠
      (sp - BitVec.ofNat 32 (level + 1) * (opWidth opsz16).size - allocsz) &&& stackMask b := by
  intro h
  have hn := mod_of_mask h
  have hsize : (opWidth opsz16).size.toNat = 2 ∨ (opWidth opsz16).size.toNat = 4 := by
    cases opsz16 with
    | true => exact .inl rfl
    | false => exact .inr rfl
  rw [BitVec.toNat_sub, BitVec.toNat_sub, BitVec.toNat_sub, BitVec.toNat_sub, BitVec.toNat_mul,
    BitVec.toNat_ofNat] at hn
  rcases hsize with hsize | hsize
  · rw [hsize] at hn
    omega
  · rw [hsize] at hn
    omega

theorem part_leWord_iff (f : Nat → Byte) :
    w.part (leWord f w) = w.part v ↔ ∀ k, k < w.bytes → f k = byteOf v k := by
  have hbits : w.bits = 8 * w.bytes := by cases w <;> rfl
  have hle := w.bits_le
  constructor
  · intro h k hk
    apply BitVec.eq_of_getLsbD_eq
    intro i hi
    have hin : 8 * k + i < w.bits := by omega
    have hbit := congrArg (fun x : BitVec w.bits => x.getLsbD (8 * k + i)) h
    simp only [Width.part, BitVec.getLsbD_setWidth, hin, decide_true, Bool.true_and] at hbit
    rw [leWord_getLsbD f hin, show (8 * k + i) / 8 = k by omega,
      show (8 * k + i) % 8 = i by omega] at hbit
    rw [byteOf_getLsbD v k hi]
    exact hbit
  · intro h
    apply BitVec.eq_of_getLsbD_eq
    intro i hi
    simp only [Width.part, BitVec.getLsbD_setWidth, hi, decide_true, Bool.true_and]
    rw [leWord_getLsbD f hi, h (i / 8) (by omega), byteOf_getLsbD v _ (Nat.mod_lt i (by decide)),
      Nat.div_add_mod]

end Words

section Slot

variable {s : CPUI386} {w : Width} {cpl size : Nat} {lpgno laddr x addr : Word} {m : OptAddr}
  {seg : SegReg}

/-- Where a store is translated, a load is, by the same tables or by those for loads. -/
theorem CPUI386.Held.reads (h : s.Held lpgno cpl x 2) : ∃ x', s.Held lpgno cpl x' 1 := by
  by_cases hread : s.ReadHit lpgno cpl
  · exact ⟨_, .read hread rfl⟩
  · cases h with
    | write hit hd hx => exact ⟨_, .readWrite hread hit rfl⟩

theorem CPUI386.HeldAt.reads (h : s.HeldAt 2 laddr size cpl m) :
    ∃ m', s.HeldAt 1 laddr size cpl m' := by
  by_cases hpg : hasBit s.cr0 cr0PG = true
  · have hno : ¬hasBit s.cr0 cr0PG = false := by
      rw [hpg]
      decide
    obtain ⟨x, hx⟩ := (h.first hpg).reads
    by_cases hst : Straddles laddr size
    · obtain ⟨y, hy, -⟩ := h.second hpg hst
      obtain ⟨z, hz⟩ := hy.reads
      refine ⟨⟨x ^^^ laddr, some (z ^^^ (nextPage laddr <<< 12))⟩, fun hf => absurd hf hno, ?_,
        fun hf => absurd hst hf, fun _ _ => ⟨z, hz, rfl⟩⟩
      intro _
      rw [Pages.xor_cancel]
      exact hx
    · refine ⟨⟨x ^^^ laddr, none⟩, fun hf => absurd hf hno, ?_, fun _ => rfl,
        fun _ hs => absurd hs hst⟩
      intro _
      rw [Pages.xor_cancel]
      exact hx
  · exact ⟨⟨laddr, none⟩, fun _ => rfl, fun hp => absurd hp hpg, fun _ => rfl,
      fun hp => absurd hp hpg⟩

theorem CPUI386.Settled.reads (h : s.Settled w 2 seg addr m) : ∃ m', s.Settled w 1 seg addr m' := by
  obtain ⟨m', hm'⟩ := h.held.reads
  exact ⟨m', h.usable, hm'⟩

end Slot

section StackPointer

variable {s t : CPUI386} {mask : Word} {opsz16 : Bool}

theorem setReg_bp_sp (s : CPUI386) (v : Word) (opsz16 : Bool) :
    (s.setReg 5 v (opWidth opsz16)).gpr 4 = s.gpr 4 := by
  cases opsz16 with
  | true => rfl
  | false => rfl

theorem enterHelper_sp (level : Nat) (allocsz : Word) :
    wp (enterHelper opsz16 mask level allocsz)
      (fun _ t => t.gpr 4 &&& mask = (s.gpr 4 - (opWidth opsz16).size - allocsz) &&& mask)
      (fun _ => True) (fun _ => True) s := by
  unfold enterHelper
  simp only
  rw [wp_bind]
  refine wp_onlyIf (fun _ => trivial) ?_
  intro _
  rw [wp_bind, wp_get]
  refine wp_bind_mono (wp_true _ _) fun _ s1 _ => ?_
  refine wp_bind_mono (wp_true _ _) fun _ s2 _ => ?_
  rw [wp_bind, wp_get]
  refine wp_bind_mono (wp_true _ _) fun _ s3 _ => ?_
  rw [wp_bind, wp_get]
  refine wp_bind_mono (wp_true _ _) fun _ s4 _ => ?_
  refine wp_bind_mono (wp_true _ _) fun _ s5 _ => ?_
  -- the last `set_sp` starts from the `sp` of the beginning again
  unfold setSp
  rw [wp_bind, wp_modify, wp_bind]
  refine wp_mono (touches_storeW _ _ _ _) ?_ (fun _ _ => trivial) (fun _ _ => trivial)
  intro _ s6 h6
  unfold wp
  rw [sregW_eq_setReg]
  simp only
  rw [setReg_bp_sp, h6]
  simp only
  rw [setGpr_self, merge_and]

theorem leave_sp :
    wp (LEAVE opsz16 mask)
      (fun _ t => t.gpr 4 &&& mask = (s.gpr 5 + (opWidth opsz16).size) &&& mask)
      (fun _ => True) (fun _ => True) s := by
  unfold LEAVE
  simp only
  rw [wp_bind, wp_get]
  refine wp_bind_mono (wp_true _ _) fun _ s1 _ => ?_
  unfold setSp
  rw [wp_bind, wp_modify, wp_bind]
  refine wp_mono (touches_loadW _ _ _) ?_ (fun _ _ => trivial) (fun _ _ => trivial)
  intro v s2 h2
  unfold wp
  rw [sregW_eq_setReg]
  simp only
  rw [setReg_bp_sp, h2]
  simp only
  rw [setGpr_self, merge_and]

end StackPointer

/-- After ENTER of level 0; `u` is the state in which the slot has been translated. -/
def CPUI386.framed (u : CPUI386) (w : Width) (mask allocsz : Word) (m : OptAddr) : CPUI386 :=
  ((u.setGpr 4 (((u.gpr 4 - w.size - allocsz) &&& mask) ||| (u.gpr 4 &&& ~~~mask))).setBytes
    m.byte (byteOf (u.gpr 5)) w.bytes).setReg 5 ((u.gpr 4 - w.size) &&& mask) w

/-- What is known of the slot after its translation. -/
structure SlotReady (w : Width) (mask : Word) (s : CPUI386) (m m' : OptAddr) (u : CPUI386) :
    Prop where
  first : FirstSlot w mask s m m' u
  gpr : u.gpr = s.gpr
  reads : u.Settled w 1 .ss (frameSlot w mask (s.gpr 4) 0) m'
  written : ∃ laddr, m.Ram w laddr u ∧ m'.Ram w laddr u

section Flat

variable {s t u : CPUI386} {mask : Word} {opsz16 : Bool} {m m' : OptAddr} {w : Width}

theorem slotReady (ha : s.Aligned) (hram : SlotInRam w mask s)
    (h : translateW w 2 .ss ((s.gpr 4 - w.size) &&& mask) s = .ok m u) :
    ∃ m', SlotReady w mask s m m' u := by
  rw [← frameSlot_zero] at h
  obtain ⟨hsettled, hcached, hau⟩ := wp_ok (translateW_settled ha (.inr rfl)) h
  obtain ⟨m', hm'⟩ := hsettled.reads
  have hfirst : FirstSlot w mask s m m' u := ⟨h, hm'.run⟩
  obtain ⟨-, -, hm⟩ := translateW_ram ha h
  obtain ⟨-, -, hmr⟩ := translateW_ram hau hm'.run
  have hseg : u.seg = s.seg := by rw [hcached.rest]
  have hgpr : u.gpr = s.gpr := by rw [hcached.rest]
  rw [hseg] at hmr
  exact ⟨m', hfirst, hgpr, hm',
    _, hm u fun k hk => (hram m m' u hfirst k hk).1, hmr u fun k hk => (hram m m' u hfirst k hk).2⟩

theorem enter_flat (hr : SlotReady (opWidth opsz16) mask s m m' u) {i16 : BitVec 16} {i8 : Byte}
    (hlevel : i8.toNat % 32 = 0) :
    ENTER opsz16 mask i16 i8 s =
      .ok () (u.framed (opWidth opsz16) mask (i16.setWidth 32) m) := by
  obtain ⟨laddr, hm, -⟩ := hr.written
  have hstored := hr.first.stored
  rw [frameSlot_zero] at hstored
  unfold ENTER
  simp only
  rw [if_pos hlevel, get_bind_run, bind_run_ok hstored]
  unfold setSp
  rw [modify_bind_run, get_bind_run, ← hr.gpr]
  generalize hx : ((u.gpr 4 - (opWidth opsz16).size - i16.setWidth 32) &&& mask) |||
    (u.gpr 4 &&& ~~~mask) = x
  have hram : m.Ram (opWidth opsz16) laddr (u.setGpr 4 x) := hm.congr rfl
  rw [bind_run_ok hram.store, sregW_eq_setReg]
  unfold CPUI386.framed
  rw [hx]
  rfl

theorem enter_flat_inv (ha : s.Aligned) (hram : SlotInRam (opWidth opsz16) mask s)
    {i16 : BitVec 16} {i8 : Byte} (hlevel : i8.toNat % 32 = 0)
    (h : ENTER opsz16 mask i16 i8 s = .ok () t) :
    ∃ m m' u, SlotReady (opWidth opsz16) mask s m m' u ∧
      t = u.framed (opWidth opsz16) mask (i16.setWidth 32) m := by
  cases htr : translateW (opWidth opsz16) 2 .ss ((s.gpr 4 - (opWidth opsz16).size) &&& mask) s with
  | ok m u =>
    obtain ⟨m', hr⟩ := slotReady ha hram htr
    rw [enter_flat hr hlevel] at h
    cases h
    exact ⟨m, m', u, hr, rfl⟩
  | fault u =>
    unfold ENTER at h
    simp only at h
    rw [if_pos hlevel, get_bind_run, bind_run_fault htr] at h
    cases h
  | stop why =>
    unfold ENTER at h
    simp only at h
    rw [if_pos hlevel, get_bind_run, bind_run_stop htr] at h
    cases h

theorem holds_iff {addr laddr v : Word} (hs : t.Settled w 1 .ss addr m') (hm : m'.Ram w laddr t) :
    StackHolds w addr t v ↔ ∀ k, k < w.bytes → t.byteAt (m'.byte k) = byteOf v k := by
  rw [← part_leWord_iff]
  constructor
  · rintro ⟨m₂, u₂, x, t₂, htr, hload, hx⟩
    rw [hs.run] at htr
    cases htr
    rw [hm.load] at hload
    cases hload
    exact hx
  · intro h
    exact ⟨m', t, _, t, hs.run, hm.load, h⟩

theorem framed_frame (u : CPUI386) (w : Width) (mask allocsz : Word) (m : OptAddr) :
    u.framed w mask allocsz m =
      { u with gpr := (u.framed w mask allocsz m).gpr, mem := (u.framed w mask allocsz m).mem } := by
  unfold CPUI386.framed
  rw [setReg_frame, setBytes_frame]
  rfl

theorem framed_mem (u : CPUI386) (w : Width) (mask allocsz : Word) (m : OptAddr) :
    (u.framed w mask allocsz m).mem = (u.setBytes m.byte (byteOf (u.gpr 5)) w.bytes).mem := by
  have hset (x : Word) (n : Nat) : ((u.setGpr 4 x).setBytes m.byte (byteOf (u.gpr 5)) n).mem =
      (u.setBytes m.byte (byteOf (u.gpr 5)) n).mem := by
    induction n with
    | zero => rfl
    | succ n ih =>
      change Function.update _ _ _ = Function.update _ _ _
      rw [ih]
  unfold CPUI386.framed
  rw [setReg_frame]
  exact hset _ _

theorem framed_byte_iff (mask allocsz : Word) {laddr : Word} (hm : m.Ram w laddr u)
    (hm' : m'.Ram w laddr u) {k : Nat} (hk : k < w.bytes) :
    (u.framed w mask allocsz m).byteAt (m'.byte k) = byteOf (u.gpr 5) k ↔
      m'.byte k = m.byte k ∨ u.byteAt (m'.byte k) = byteOf (u.gpr 5) k := by
  unfold CPUI386.byteAt
  rw [framed_mem]
  by_cases hsame : m'.byte k = m.byte k
  · rw [hsame]
    refine iff_of_true (setBytes_at u _ hk fun j hj hne heq => hne ?_) (.inl rfl)
    exact hm.spread j k hj hk heq
  · have hother (j : Nat) (hj : j < w.bytes) : (m'.byte k).toNat ≠ (m.byte j).toNat := by
      intro hn
      have heq := BitVec.eq_of_toNat_eq hn
      have hlow := (hm'.low k hk).symm.trans ((congrArg (· &&& 0xfff) heq).trans (hm.low j hj))
      have hbytes := w.bytes_le
      have hmod := congrArg BitVec.toNat hlow
      rw [and_fff_toNat, and_fff_toNat, BitVec.toNat_add, BitVec.toNat_add, BitVec.toNat_ofNat,
        BitVec.toNat_ofNat] at hmod
      have hjk : j = k := by omega
      rw [hjk] at heq
      exact hsame heq
    rw [setBytes_other u m.byte (byteOf (u.gpr 5)) hother]
    exact ⟨.inr, fun h => h.resolve_left hsame⟩

theorem framed_sp (u : CPUI386) (opsz16 : Bool) (mask allocsz : Word) (m : OptAddr) :
    (u.framed (opWidth opsz16) mask allocsz m).gpr 4 =
      ((u.gpr 4 - (opWidth opsz16).size - allocsz) &&& mask) ||| (u.gpr 4 &&& ~~~mask) := by
  unfold CPUI386.framed
  rw [setReg_bp_sp, setBytes_frame]
  exact setGpr_self u 4 _

theorem setReg_bp_congr {s t : CPUI386} (h : s.gpr 5 = t.gpr 5) (v : Word) (opsz16 : Bool) :
    (s.setReg 5 v (opWidth opsz16)).gpr 5 = (t.setReg 5 v (opWidth opsz16)).gpr 5 := by
  cases opsz16 with
  | true =>
    change (s.gpr 5 &&& ~~~(0xffff : Word)) ||| (v &&& 0xffff) =
      (t.gpr 5 &&& ~~~(0xffff : Word)) ||| (v &&& 0xffff)
    rw [h]
  | false => rfl

theorem framed_bp (u : CPUI386) (opsz16 : Bool) (mask allocsz : Word) (m : OptAddr) :
    (u.framed (opWidth opsz16) mask allocsz m).gpr 5 =
      (u.setReg 5 ((u.gpr 4 - (opWidth opsz16).size) &&& mask) (opWidth opsz16)).gpr 5 := by
  unfold CPUI386.framed
  apply setReg_bp_congr
  rw [setBytes_frame]
  rfl

theorem setReg_bp_part (s : CPUI386) (v : Word) (opsz16 : Bool) :
    (opWidth opsz16).part ((s.setReg 5 v (opWidth opsz16)).gpr 5) = (opWidth opsz16).part v := by
  cases opsz16 with
  | true =>
    change ((s.gpr 5 &&& ~~~(0xffff : Word)) ||| (v &&& 0xffff)).setWidth 16 = v.setWidth 16
    apply BitVec.eq_of_toNat_eq
    rw [BitVec.toNat_setWidth, BitVec.toNat_setWidth, ← and_ffff_toNat, ← and_ffff_toNat,
      BitVec.or_comm, merge_and]
  | false => rfl

theorem setReg_bp_back {s t : CPUI386} {x : Word} {opsz16 : Bool}
    (h : t.gpr 5 = (s.setReg 5 x (opWidth opsz16)).gpr 5) :
    (t.setReg 5 (s.gpr 5) (opWidth opsz16)).gpr 5 = s.gpr 5 := by
  cases opsz16 with
  | true =>
    have ht : t.gpr 5 = (s.gpr 5 &&& ~~~(0xffff : Word)) ||| (x &&& 0xffff) := h
    change (t.gpr 5 &&& ~~~(0xffff : Word)) ||| (s.gpr 5 &&& 0xffff) = s.gpr 5
    rw [ht, BitVec.or_comm (s.gpr 5 &&& _), merge_not, BitVec.or_comm, merge_self]
  | false => rfl

theorem leave_run {laddr : Word} (hs : t.Settled (opWidth opsz16) 1 .ss (t.gpr 5 &&& mask) m')
    (hm : m'.Ram (opWidth opsz16) laddr t) :
    LEAVE opsz16 mask t = .ok ()
      ((t.setGpr 4 (((t.gpr 5 + (opWidth opsz16).size) &&& mask) ||| (t.gpr 4 &&& ~~~mask))).setReg 5
        (leWord (fun k => t.byteAt (m'.byte k)) (opWidth opsz16)) (opWidth opsz16)) := by
  unfold LEAVE
  simp only
  rw [get_bind_run, bind_run_ok hs.run]
  unfold setSp
  rw [modify_bind_run]
  generalize ((t.gpr 5 + (opWidth opsz16).size) &&& mask) ||| (t.gpr 4 &&& ~~~mask) = x
  have hram : m'.Ram (opWidth opsz16) laddr (t.setGpr 4 x) := hm.congr rfl
  rw [bind_run_ok hram.load, sregW_eq_setReg]
  rfl

end Flat

section Kept

variable {s t u : CPUI386} {opsz16 stack16 : Bool} {m m' : OptAddr} {allocsz : Word}

/-- The frame pointer addresses the slot, with its high half where it has one. -/
theorem bp_slot_iff (opsz16 stack16 : Bool) (g sp : Word) (s : CPUI386) (hg : s.gpr 5 = g) :
    (s.setReg 5 ((sp - (opWidth opsz16).size) &&& stackMask stack16) (opWidth opsz16)).gpr 5 &&&
        stackMask stack16 = (sp - (opWidth opsz16).size) &&& stackMask stack16 ↔
      (opsz16 = true → stack16 = false → g >>> 16 = (sp - 2) >>> 16) := by
  have hself (x mask : Word) : x &&& mask &&& mask = x &&& mask := by
    rw [BitVec.and_assoc, BitVec.and_self]
  cases opsz16 with
  | false => exact iff_of_true (hself _ _) fun h => absurd h (by decide)
  | true =>
    cases stack16 with
    | true =>
      refine iff_of_true ?_ fun _ h => absurd h (by decide)
      change ((s.gpr 5 &&& ~~~(0xffff : Word)) ||| ((sp - 2) &&& 0xffff &&& 0xffff)) &&& 0xffff =
        (sp - 2) &&& 0xffff
      rw [BitVec.or_comm, merge_and, hself]
    | false =>
      change ((s.gpr 5 &&& ~~~(0xffff : Word)) ||| ((sp - 2) &&& 0xffffffff &&& 0xffff)) &&&
        0xffffffff = (sp - 2) &&& 0xffffffff ↔ _
      rw [and_ffffffff, and_ffffffff, hg]
      constructor
      · intro h _ _
        rw [← h]
        exact (high_merge g (sp - 2)).symm
      · intro h
        rw [BitVec.or_comm, high_congr (h rfl rfl), merge_self]

theorem sp_back (h : t.gpr 5 &&& stackMask stack16 =
      (s.gpr 4 - (opWidth opsz16).size) &&& stackMask stack16)
    (ht : t.gpr 4 &&& ~~~stackMask stack16 = s.gpr 4 &&& ~~~stackMask stack16) :
    ((t.gpr 5 + (opWidth opsz16).size) &&& stackMask stack16) ||| (t.gpr 4 &&& ~~~stackMask stack16) =
      s.gpr 4 := by
  rw [mask_add h, ht, BitVec.sub_add_cancel, merge_self]

theorem frameRight_iff (hr : SlotReady (opWidth opsz16) (stackMask stack16) s m m' u) :
    FrameRight opsz16 stack16 0 allocsz s
        (u.framed (opWidth opsz16) (stackMask stack16) allocsz m) ↔
      (opsz16 = true → stack16 = false → s.gpr 5 >>> 16 = (s.gpr 4 - 2) >>> 16) ∧
        ∀ k, k < (opWidth opsz16).bytes →
          m'.byte k = m.byte k ∨ u.byteAt (m'.byte k) = byteOf (s.gpr 5) k := by
  obtain ⟨laddr, hm, hm'⟩ := hr.written
  have hframe := framed_frame u (opWidth opsz16) (stackMask stack16) allocsz m
  have hsp := framed_sp u opsz16 (stackMask stack16) allocsz m
  have hbp := framed_bp u opsz16 (stackMask stack16) allocsz m
  have hbyte (k : Nat) (hk : k < (opWidth opsz16).bytes) :=
    framed_byte_iff (stackMask stack16) allocsz hm hm' hk
  have hhalf := bp_slot_iff opsz16 stack16 (s.gpr 5) (s.gpr 4) u (congrFun hr.gpr 5)
  generalize u.framed (opWidth opsz16) (stackMask stack16) allocsz m = t at *
  have hsettled : t.Settled (opWidth opsz16) 1 .ss (frameSlot (opWidth opsz16) (stackMask stack16)
      (s.gpr 4) 0) m' :=
    hr.reads.congr (by rw [hframe]) (by rw [hframe]) (by rw [hframe]) (by rw [hframe])
      (by rw [hframe])
  have hram : m'.Ram (opWidth opsz16) laddr t := hm'.congr (by rw [hframe])
  rw [hr.gpr] at hsp hbyte
  rw [← hr.gpr, ← hbp, hr.gpr] at hhalf
  constructor
  · rintro ⟨hbuilt, v, hleave, hv, -⟩
    have hbytes := (holds_iff hsettled hram).mp hbuilt.saved
    refine ⟨hhalf.mp ?_, fun k hk => (hbyte k hk).mp (hbytes k hk)⟩
    have hback := wp_ok leave_sp hleave
    rw [hv] at hback
    have hsub := mask_add hback (-(opWidth opsz16).size)
    rw [← BitVec.sub_eq_add_neg, ← BitVec.sub_eq_add_neg, BitVec.add_sub_cancel] at hsub
    exact hsub.symm
  · rintro ⟨hhigh, hseen⟩
    have haddr := hhalf.mpr hhigh
    have hbytes (k : Nat) (hk : k < (opWidth opsz16).bytes) :
        t.byteAt (m'.byte k) = byteOf (s.gpr 5) k := (hbyte k hk).mpr (hseen k hk)
    refine ⟨⟨?_, ?_, (holds_iff hsettled hram).mpr hbytes, fun i _ h1 h2 => absurd h2 (by omega),
      fun h => absurd h (by omega)⟩, ?_⟩
    · have hone : BitVec.ofNat 32 (framePushes 0) * (opWidth opsz16).size = (opWidth opsz16).size :=
        BitVec.one_mul _
      rw [hone]
      exact hsp
    · rw [hbp, setReg_bp_part, frameSlot_zero, hr.gpr]
    · rw [frameSlot_zero, ← haddr] at hsettled
      have hvalue : (opWidth opsz16).part (leWord (fun k => t.byteAt (m'.byte k)) (opWidth opsz16)) =
          (opWidth opsz16).part (u.gpr 5) := by
        rw [hr.gpr]
        exact (part_leWord_iff _).mpr hbytes
      refine ⟨_, leave_run hsettled hram, ?_, ?_⟩
      · rw [setReg_bp_sp, setGpr_self]
        apply sp_back haddr
        rw [hsp, merge_not]
      · rw [setReg_part hvalue, ← congrFun hr.gpr 5]
        exact setReg_bp_back hbp

/-- A frame can be left again exactly at level 0, when the 16-bit frame pointer reaches its slot and
the slot is read where it was written. -/
theorem frameRight_iff_kept {i16 : BitVec 16} {i8 : Byte} (hr : CacheRun s)
    (hram : SlotInRam (opWidth opsz16) (stackMask stack16) s)
    (h : ENTER opsz16 (stackMask stack16) i16 i8 s = .ok () t) :
    FrameRight opsz16 stack16 (i8.toNat % 32) (i16.setWidth 32) s t ↔
      FrameKept opsz16 stack16 (i8.toNat % 32) s := by
  by_cases hlevel : i8.toNat % 32 = 0
  · obtain ⟨m, m', u, hslot, rfl⟩ := enter_flat_inv (cacheRun_aligned hr) hram hlevel h
    rw [hlevel, frameRight_iff hslot]
    constructor
    · rintro ⟨hhalf, hseen⟩
      refine ⟨rfl, hhalf, fun m₂ m₂' u₂ hfirst => ?_⟩
      have hstored := hslot.first.stored.symm.trans hfirst.stored
      cases hstored
      have hloaded := hslot.first.loaded.symm.trans hfirst.loaded
      cases hloaded
      exact hseen
    · intro hkept
      exact ⟨hkept.half, hkept.seen m m' u hslot.first⟩
  · refine iff_of_false (fun hright => ?_) fun hkept => hlevel hkept.flat
    have hpushes : framePushes (i8.toNat % 32) = i8.toNat % 32 + 1 := if_neg hlevel
    have hsp := hright.built.sp
    rw [hpushes] at hsp
    unfold ENTER at h
    simp only at h
    rw [if_neg hlevel] at h
    have hend := wp_ok (enterHelper_sp _ _) h
    rw [hsp, merge_and] at hend
    exact missing_slots opsz16 hlevel (Nat.mod_lt _ (by decide)) _ _ hend.symm

end Kept

/-- A processor after reset with a stack at 0x2000. -/
def stackCpu : CPUI386 := smallCpu.setGpr 4 0x2000

theorem cacheRun_stackCpu : CacheRun stackCpu := .reset ⟨fun _ => rfl, fun _ => rfl, fun _ => rfl⟩

theorem slotInRam_stackCpu : SlotInRam (opWidth false) (stackMask true) stackCpu := by
  rintro m m' u ⟨hstored, hloaded⟩ k hk
  have htranslate (rwm : Nat) : translateW (opWidth false) rwm .ss
      (frameSlot (opWidth false) (stackMask true) (stackCpu.gpr 4) 0) stackCpu =
        .ok ⟨0x1ffc, none⟩ stackCpu := rfl
  rw [htranslate] at hstored
  cases hstored
  rw [htranslate] at hloaded
  cases hloaded
  have hk4 : k < 4 := hk
  have hbyte : stackCpu.Ram ((⟨0x1ffc, none⟩ : OptAddr).byte k) := by
    interval_cases k <;> exact ⟨by decide, by decide⟩
  exact ⟨hbyte, hbyte⟩

/-- ENTER 16, 0 with 32-bit operands on a 16-bit stack. -/
theorem frameRight_stackCpu :
    ∃ t, ENTER false (stackMask true) 16 0 stackCpu = .ok () t ∧
      FrameRight false true 0 16 stackCpu t := by
  have hrun : ∃ t, ENTER false (stackMask true) 16 0 stackCpu = .ok () t := ⟨_, rfl⟩
  obtain ⟨t, ht⟩ := hrun
  refine ⟨t, ht, (frameRight_iff_kept cacheRun_stackCpu slotInRam_stackCpu ht).mpr ?_⟩
  refine ⟨rfl, fun h => absurd h (by decide), ?_⟩
  rintro m m' u ⟨hstored, hloaded⟩ k hk
  have hread : translateW (opWidth false) 1 .ss
      (frameSlot (opWidth false) (stackMask true) (stackCpu.gpr 4) 0) stackCpu =
        .ok ⟨0x1ffc, none⟩ stackCpu := rfl
  cases hstored
  rw [hread] at hloaded
  cases hloaded
  exact .inl rfl

/-- ENTER 0, 1 stores its second dword over its first one. -/
theorem not_frameRight_level : ¬∀ (opsz16 stack16 : Bool) (i16 : BitVec 16) (i8 : Byte)
    (s t : CPUI386), CacheRun s → SlotInRam (opWidth opsz16) (stackMask stack16) s →
      ENTER opsz16 (stackMask stack16) i16 i8 s = .ok () t →
      FrameRight opsz16 stack16 (i8.toNat % 32) (i16.setWidth 32) s t := by
  intro h
  have hrun : ∃ t, ENTER false (stackMask true) 0 1 stackCpu = .ok () t := ⟨_, rfl⟩
  obtain ⟨t, ht⟩ := hrun
  have hsp := (h false true 0 1 stackCpu t cacheRun_stackCpu slotInRam_stackCpu ht).built.sp
  have hend : t.gpr 4 = 0x1ffc := by
    cases ht
    rfl
  rw [hend] at hsp
  exact absurd hsp (by decide)

end Winspire.Cpu
