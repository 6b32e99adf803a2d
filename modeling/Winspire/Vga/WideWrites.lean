import Winspire.Vga.Memory
import Winspire.Lib.Pages
import Mathlib.Tactic.IntervalCases

/-!
# Words and strings against single bytes

A word, a double word or a string is compared with the writes of its bytes at successive
addresses. Marks and counters for the renderers may differ.
-/

namespace Winspire.Vga

set_option autoImplicit false

open VgaState

structure Alike (s t : VgaState) : Prop where
  ram : s.ram = t.ram
  ramSize : s.ramSize = t.ramSize
  latch : s.latch = t.latch
  regs : s.regs = t.regs
  dirtyRender : s.dirtyRender = t.dirtyRender

namespace Alike

variable {s t u : VgaState}

theorem refl (s : VgaState) : Alike s s := ⟨rfl, rfl, rfl, rfl, rfl⟩

theorem symm (h : Alike s t) : Alike t s :=
  ⟨h.ram.symm, h.ramSize.symm, h.latch.symm, h.regs.symm, h.dirtyRender.symm⟩

theorem trans (h : Alike s t) (h' : Alike t u) : Alike s u :=
  ⟨h.ram.trans h'.ram, h.ramSize.trans h'.ramSize, h.latch.trans h'.latch, h.regs.trans h'.regs,
    h.dirtyRender.trans h'.dirtyRender⟩

theorem countWrite (s : VgaState) : Alike s.countWrite s := by
  unfold VgaState.countWrite
  split <;> exact ⟨rfl, rfl, rfl, rfl, rfl⟩

theorem dirtyMode13 (s : VgaState) (addr len : Word) : Alike (s.dirtyMode13 addr len) s := by
  unfold VgaState.dirtyMode13
  simp only []
  repeat' split
  all_goals exact ⟨rfl, rfl, rfl, rfl, rfl⟩

theorem dirtyPlanar640 (s : VgaState) (addr len : Word) :
    Alike (s.dirtyPlanar640 addr len) s := by
  unfold VgaState.dirtyPlanar640
  simp only []
  repeat' split
  all_goals exact ⟨rfl, rfl, rfl, rfl, rfl⟩

theorem put (h : Alike s t) (addr : Word) (bytes : List Byte) :
    Alike (s.put addr bytes) (t.put addr bytes) := by
  refine ⟨?_, h.ramSize, h.latch, h.regs, h.dirtyRender⟩
  unfold VgaState.put
  rw [h.ram]

theorem getWord (h : Alike s t) (i : Nat) : s.getWord i = t.getWord i := by
  unfold VgaState.getWord
  rw [h.ram]

theorem putWord (h : Alike s t) (i : Nat) (val : Word) :
    Alike (s.putWord i val) (t.putWord i val) := by
  refine ⟨?_, h.ramSize, h.latch, h.regs, h.dirtyRender⟩
  unfold VgaState.putWord
  rw [h.ram]

theorem chain4Addr (h : Alike s t) (addr len : Word) :
    s.chain4Addr addr len = t.chain4Addr addr len := by
  unfold VgaState.chain4Addr
  rw [h.regs, h.dirtyRender, h.ramSize]

theorem writeOddEven (h : Alike s t) (addr : Word) (val : Byte) :
    Alike (s.writeOddEven addr val) (t.writeOddEven addr val) := by
  unfold VgaState.writeOddEven
  simp only [h.regs, h.ramSize]
  split
  · split
    · exact h
    · exact (((dirtyPlanar640 s _ _).trans h).trans (dirtyPlanar640 t _ _).symm).put _ _
  · exact h

theorem writeLatched (h : Alike s t) (addr : Word) (val : Byte) :
    Alike (s.writeLatched addr val) (t.writeLatched addr val) := by
  unfold VgaState.writeLatched latchedValue
  simp only [h.regs, h.ramSize, h.latch, h.getWord]
  split
  · exact h
  · exact (((dirtyPlanar640 s _ _).trans h).trans (dirtyPlanar640 t _ _).symm).putWord _ _

theorem memWrite (h : Alike s t) (addr : Word) (val : Byte) :
    Alike (memWrite addr val s) (memWrite addr val t) := by
  have hc : Alike s.countWrite t.countWrite :=
    ((countWrite s).trans h).trans (countWrite t).symm
  have hmark : ∀ a len, Alike (s.countWrite.dirtyMode13 a len) (t.countWrite.dirtyMode13 a len) :=
    fun a len => ((dirtyMode13 _ a len).trans hc).trans (dirtyMode13 _ a len).symm
  unfold VgaState.memWrite
  simp only [hc.chain4Addr, hc.regs, hc.ramSize]
  split
  · exact (hmark _ _).put _ _
  · split
    · exact hc
    · split
      · exact hc
      · split
        · split
          · exact (hmark _ _).put _ _
          · exact hc
        · split
          · exact hc.writeOddEven _ _
          · exact hc.writeLatched _ _

end Alike

section Chain4

variable {s : VgaState} {addr a len : Word}

theorem chain4Addr_mapAddr (h : s.chain4Addr addr len = some a) :
    s.regs.chain4 = true ∧ s.regs.mapAddr addr = some a ∧ s.regs.sr 2 &&& 0x0f = 0x0f ∧
      a.toNat + len.toNat ≤ s.ramSize ∧ a.toNat < s.ramSize := by
  unfold VgaState.chain4Addr at h
  simp only [] at h
  split at h
  · cases h
  rename_i hchain
  split at h
  · cases h
  rename_i hplanes
  split at h
  · cases h
  rename_i hmode
  split at h
  · cases h
  rename_i hwindow
  split at h
  · cases h
  rename_i hsize
  cases h
  have hchain4 : s.regs.chain4 = true := by
    apply Decidable.of_not_not
    intro hn
    exact hchain (Or.inr hn)
  have hmode1 : s.regs.memoryMapMode = 1 := by
    apply Decidable.of_not_not
    intro hn
    exact hmode (Or.inl hn)
  have hbank : s.regs.bankOffset = 0 := by
    apply Decidable.of_not_not
    intro hn
    exact hmode (Or.inr hn)
  refine ⟨hchain4, ?_, Decidable.of_not_not hplanes, by omega, by omega⟩
  unfold VgaRegs.mapAddr
  simp only [hmode1, hbank]
  rw [if_neg (fun hw => hwindow (Or.inl hw))]
  exact congrArg some (BitVec.add_zero _)

theorem planeEnabled_of_all (h : s.regs.sr 2 &&& 0x0f = 0x0f) (a : Word) :
    s.regs.planeEnabled (a &&& 3) = true := by
  have hlt : (a &&& 3).toNat < 4 := by
    rw [BitVec.toNat_and]
    exact Nat.lt_of_le_of_lt Nat.and_le_right (by decide)
  have hbit := congrArg (fun b : Byte => b.getLsbD (a &&& 3).toNat) h
  simp only [BitVec.getLsbD_and] at hbit
  have hf : (0x0f : Byte).getLsbD (a &&& 3).toNat = true := by
    generalize (a &&& 3).toNat = i at hlt
    interval_cases i <;> rfl
  rw [hf, Bool.and_true] at hbit
  exact hbit

/-- The memory the byte at `addr` goes to in chain 4. -/
def target (s : VgaState) (addr : Word) : Option Word :=
  (s.regs.mapAddr addr).filter fun o =>
    decide (o.toNat < s.ramSize) && s.regs.planeEnabled (o &&& 3)

theorem memWrite_chain4 (hchain : s.regs.chain4 = true) (addr : Word) (val : Byte) :
    Alike (memWrite addr val s)
      (match target s addr with
        | some o => s.put o [val]
        | none => s) := by
  have hc := Alike.countWrite s
  unfold VgaState.memWrite target
  simp only [hc.chain4Addr, hc.regs, hc.ramSize, hchain, if_true]
  cases hfast : s.chain4Addr addr 1 with
  | some a =>
    rcases chain4Addr_mapAddr hfast with ⟨_, hmap, hall, _, hsize⟩
    simp only [hmap, Option.filter, hsize, planeEnabled_of_all hall, decide_true, Bool.and_self,
      if_true]
    exact ((Alike.dirtyMode13 _ _ _).trans hc).put _ _
  | none =>
    cases hmap : s.regs.mapAddr addr with
    | none => exact hc
    | some a =>
      simp only [Option.filter]
      by_cases hsize : s.ramSize ≤ a.toNat
      · simp only [hsize, if_true, Nat.not_lt.mpr hsize, decide_false, Bool.false_and,
          Bool.false_eq_true, if_false]
        exact hc
      · simp only [hsize, if_false, Nat.lt_of_not_le hsize, decide_true, Bool.true_and]
        by_cases hplane : s.regs.planeEnabled (a &&& 3) = true
        · simp only [hplane, if_true]
          exact ((Alike.dirtyMode13 _ _ _).trans hc).put _ _
        · simp only [hplane, Bool.false_eq_true, if_false]
          exact hc

end Chain4

/-- `write` at successive addresses. -/
def writeBytes {σ : Type} (write : Word → Byte → σ → σ) : Word → List Byte → σ → σ
  | _, [], s => s
  | addr, b :: bytes, s => writeBytes write (addr + 1) bytes (write addr b s)

theorem Alike.writeBytes {s t : VgaState} (h : Alike s t) (addr : Word) (bytes : List Byte) :
    Alike (Vga.writeBytes VgaState.memWrite addr bytes s)
      (Vga.writeBytes VgaState.memWrite addr bytes t) := by
  induction bytes generalizing addr s t with
  | nil => exact h
  | cons b bytes ih => exact ih (h.memWrite addr b) (addr + 1)

theorem add_succ (a : Word) (i : Nat) :
    a + 1 + BitVec.ofNat 32 i = a + BitVec.ofNat 32 (i + 1) := by
  rw [BitVec.add_assoc]
  congr 1
  rw [Nat.add_comm, BitVec.ofNat_add]
  rfl

theorem put_put (s : VgaState) {o : Word} {b : Byte} {bytes : List Byte}
    (h : o.toNat + 1 < 2 ^ 32) :
    (s.put o [b]).put (o + 1) bytes = s.put o (b :: bytes) := by
  have ho : (o + 1).toNat = o.toNat + 1 := by
    rw [BitVec.toNat_add]
    exact Nat.mod_eq_of_lt h
  have hblit := blit_append s.ram o.toNat [b] bytes
  unfold VgaState.put
  rw [ho]
  exact congrArg (fun ram => { s with ram := ram }) hblit

section Bytes

variable {s : VgaState} {bytes : List Byte}

theorem writeBytes_put (hchain : s.regs.chain4 = true) {addr o : Word}
    (htarget : ∀ i < bytes.length,
      target s (addr + BitVec.ofNat 32 i) = some (o + BitVec.ofNat 32 i))
    (hfit : o.toNat + bytes.length ≤ 2 ^ 32) :
    Alike (writeBytes VgaState.memWrite addr bytes s) (s.put o bytes) := by
  induction bytes generalizing addr o s with
  | nil =>
    refine ⟨?_, rfl, rfl, rfl, rfl⟩
    exact (blit_nil s.ram o.toNat).symm
  | cons b bytes ih =>
    rw [List.length_cons] at htarget hfit
    have hfirst : target s addr = some o := by
      have h0 := htarget 0 (by omega)
      rwa [BitVec.add_zero, BitVec.add_zero] at h0
    have hone := memWrite_chain4 hchain addr b
    simp only [hfirst] at hone
    have hrest : Alike (writeBytes VgaState.memWrite (addr + 1) bytes (s.put o [b]))
        ((s.put o [b]).put (o + 1) bytes) := by
      cases bytes with
      | nil =>
        refine ⟨?_, rfl, rfl, rfl, rfl⟩
        exact (blit_nil _ _).symm
      | cons c bytes =>
        rw [List.length_cons] at htarget hfit ih
        have ho : (o + 1).toNat = o.toNat + 1 := by
          rw [BitVec.toNat_add]
          exact Nat.mod_eq_of_lt (by change o.toNat + 1 < 2 ^ 32; omega)
        apply ih (s := s.put o [b]) hchain
        · intro i hi
          rw [add_succ, add_succ]
          exact htarget (i + 1) (by omega)
        · omega
    cases bytes with
    | nil => exact hone
    | cons c bytes =>
      rw [List.length_cons] at hfit
      rw [put_put s (by omega)] at hrest
      exact (hone.writeBytes _ _).trans hrest

theorem writeBytes_none (hchain : s.regs.chain4 = true) {addr : Word}
    (htarget : ∀ i < bytes.length, target s (addr + BitVec.ofNat 32 i) = none) :
    Alike (writeBytes VgaState.memWrite addr bytes s) s := by
  induction bytes generalizing addr with
  | nil => exact Alike.refl s
  | cons b bytes ih =>
    rw [List.length_cons] at htarget
    have hfirst : target s addr = none := by
      have h0 := htarget 0 (by omega)
      rwa [BitVec.add_zero] at h0
    have hone := memWrite_chain4 hchain addr b
    simp only [hfirst] at hone
    have hrest : Alike (writeBytes VgaState.memWrite (addr + 1) bytes s) s := by
      apply ih
      intro i hi
      rw [add_succ]
      exact htarget (i + 1) (by omega)
    exact (hone.writeBytes _ _).trans hrest

end Bytes

/-- The planes of `n` bytes from `o` on are all enabled or all disabled. -/
def PlanesAlike (r : VgaRegs) (o : Word) (n : Nat) : Prop :=
  (∀ i < n, r.planeEnabled ((o + BitVec.ofNat 32 i) &&& 3) = true) ∨
    ∀ i < n, r.planeEnabled ((o + BitVec.ofNat 32 i) &&& 3) = false

/-- The bytes of an access lie outside the window, or one behind the other in it and together
inside or behind the memory, on planes that are alike. -/
def Uniform (s : VgaState) (addr : Word) (n : Nat) : Prop :=
  (∀ i < n, s.regs.mapAddr (addr + BitVec.ofNat 32 i) = none) ∨
    ∃ o : Word, (∀ i < n, s.regs.mapAddr (addr + BitVec.ofNat 32 i) =
        some (o + BitVec.ofNat 32 i)) ∧
      (o.toNat + n ≤ s.ramSize ∨ s.ramSize ≤ o.toNat ∧ o.toNat + n ≤ 2 ^ 32) ∧
      PlanesAlike s.regs o n

/-- The access begins in the window and ends behind the memory. -/
def Overruns (s : VgaState) (addr : Word) (n : Nat) : Prop :=
  ∃ o, s.regs.mapAddr addr = some o ∧ s.ramSize < o.toNat + n

section Wide

variable {s t : VgaState} {addr a o len : Word} {bytes : List Byte} {n i : Nat}

theorem toNat_add_of_lt (h : o.toNat + n ≤ 2 ^ 32) (hi : i < n) :
    (o + BitVec.ofNat 32 i).toNat = o.toNat + i := by
  rw [BitVec.toNat_add, BitVec.toNat_ofNat, Nat.add_mod_mod]
  exact Nat.mod_eq_of_lt (by omega)

theorem Alike.writeChain4 (h : Alike s t) (addr : Word) (bytes : List Byte) :
    (s.writeChain4 addr bytes).1 = (t.writeChain4 addr bytes).1 ∧
      Alike (s.writeChain4 addr bytes).2 (t.writeChain4 addr bytes).2 := by
  unfold VgaState.writeChain4
  simp only [h.regs, h.ramSize]
  split
  · exact ⟨rfl, h⟩
  · split
    · exact ⟨rfl, h⟩
    · split
      · exact ⟨rfl, (((Alike.dirtyMode13 s _ _).trans h).trans
          (Alike.dirtyMode13 t _ _).symm).put _ _⟩
      · exact ⟨rfl, h⟩

theorem writeChain4_fits (hmap : s.regs.mapAddr addr = some o) (hne : bytes ≠ [])
    (hfit : o.toNat + bytes.length ≤ s.ramSize) :
    if s.regs.planeEnabled (o &&& 3) = true then
      (s.writeChain4 addr bytes).1 = true ∧ Alike (s.writeChain4 addr bytes).2 (s.put o bytes)
    else s.writeChain4 addr bytes = (false, s) := by
  have hpos : 0 < bytes.length := List.length_pos_iff.mpr hne
  have hin : ¬(bytes = [] ∨ s.ramSize ≤ o.toNat ∨ s.ramSize - o.toNat < bytes.length) := by
    intro h
    rcases h with h | h | h
    · exact hne h
    · omega
    · omega
  unfold VgaState.writeChain4
  simp only [hmap]
  rw [if_neg hin]
  split
  · exact ⟨rfl, (Alike.dirtyMode13 _ _ _).put _ _⟩
  · rfl

theorem writeChain4_overrun (h : Overruns s addr bytes.length) :
    s.writeChain4 addr bytes = (false, s) := by
  rcases h with ⟨o, hmap, hover⟩
  unfold VgaState.writeChain4
  simp only [hmap]
  exact if_pos (by omega)

theorem writeChain4_uniform (hchain : s.regs.chain4 = true) (hne : bytes ≠ [])
    (h : Uniform s addr bytes.length) :
    Alike (s.writeChain4 addr bytes).2 (writeBytes VgaState.memWrite addr bytes s) := by
  have hpos : 0 < bytes.length := List.length_pos_iff.mpr hne
  rcases h with hout | ⟨o, hmap, hsize, hplanes⟩
  · have hfirst : s.regs.mapAddr addr = none := by
      have h0 := hout 0 hpos
      rwa [BitVec.add_zero] at h0
    have hnone : s.writeChain4 addr bytes = (false, s) := by
      unfold VgaState.writeChain4
      simp only [hfirst]
    rw [hnone]
    apply Alike.symm
    apply writeBytes_none hchain
    intro i hi
    unfold target
    rw [hout i hi]
    rfl
  · have hfirst : s.regs.mapAddr addr = some o := by
      have h0 := hmap 0 hpos
      rwa [BitVec.add_zero, BitVec.add_zero] at h0
    have hlt := s.ramSize_lt
    have htoNat : ∀ i < bytes.length, (o + BitVec.ofNat 32 i).toNat = o.toNat + i :=
      fun i hi => toNat_add_of_lt (by omega) hi
    have htarget : ∀ i < bytes.length, target s (addr + BitVec.ofNat 32 i) =
        if o.toNat + i < s.ramSize ∧
            s.regs.planeEnabled ((o + BitVec.ofNat 32 i) &&& 3) = true then
          some (o + BitVec.ofNat 32 i)
        else none := by
      intro i hi
      unfold target
      rw [hmap i hi, Option.filter, htoNat i hi]
      simp only [Bool.and_eq_true, decide_eq_true_eq]
    rcases hsize with hfit | ⟨hbehind, _⟩
    · have hchain4 := writeChain4_fits hfirst hne hfit
      rcases hplanes with hon | hoff
      · have hon0 := hon 0 hpos
        rw [BitVec.add_zero] at hon0
        rw [if_pos hon0] at hchain4
        apply hchain4.2.trans
        apply Alike.symm
        apply writeBytes_put hchain _ (by omega)
        intro i hi
        rw [htarget i hi, if_pos ⟨by omega, hon i hi⟩]
      · have hoff0 := hoff 0 hpos
        rw [BitVec.add_zero] at hoff0
        rw [if_neg (by rw [hoff0]; exact Bool.false_ne_true)] at hchain4
        rw [hchain4]
        apply Alike.symm
        apply writeBytes_none hchain
        intro i hi
        rw [htarget i hi, if_neg]
        intro hboth
        exact Bool.false_ne_true ((hoff i hi).symm.trans hboth.2)
    · rw [writeChain4_overrun ⟨o, hfirst, by omega⟩]
      apply Alike.symm
      apply writeBytes_none hchain
      intro i hi
      rw [htarget i hi, if_neg (by omega)]

theorem chain4_shortcut (hne : bytes ≠ []) (hlen : len.toNat = bytes.length)
    (h : s.chain4Addr addr len = some a) :
    (s.writeChain4 addr bytes).1 = true ∧
      Alike ((s.dirtyMode13 a len).put a bytes) (s.writeChain4 addr bytes).2 := by
  rcases chain4Addr_mapAddr h with ⟨_, hmap, hall, hfit, _⟩
  have hwide := writeChain4_fits hmap hne (by omega)
  rw [if_pos (planeEnabled_of_all hall a)] at hwide
  exact ⟨hwide.1, ((Alike.dirtyMode13 _ _ _).put _ _).trans hwide.2.symm⟩

theorem chain4Addr_none (h : ¬s.regs.chain4 = true) : s.chain4Addr addr len = none :=
  if_pos (Or.inr h)

theorem memWrite16_chain4 (hchain : s.regs.chain4 = true) (val : BitVec 16) :
    Alike (memWrite16 addr val s) (s.writeChain4 addr (bytes16 val)).2 := by
  have hc := Alike.countWrite s
  have hcongr := (hc.writeChain4 addr (bytes16 val)).2
  unfold VgaState.memWrite16
  simp only [hc.regs, hchain, if_true]
  split
  · rename_i a hfast
    exact (chain4_shortcut (List.cons_ne_nil _ _) rfl hfast).2.trans hcongr
  · exact hcongr

theorem memWrite32_chain4 (hchain : s.regs.chain4 = true) (val : Word) :
    Alike (memWrite32 addr val s) (s.writeChain4 addr (bytes32 val)).2 := by
  have hc := Alike.countWrite s
  have hcongr := (hc.writeChain4 addr (bytes32 val)).2
  unfold VgaState.memWrite32
  simp only [hc.regs, hchain, if_true]
  split
  · rename_i a hfast
    exact (chain4_shortcut (List.cons_ne_nil _ _) rfl hfast).2.trans hcongr
  · exact hcongr

theorem memWrite16_bytes (hchain : ¬s.regs.chain4 = true) (val : BitVec 16) :
    Alike (memWrite16 addr val s) (writeBytes VgaState.memWrite addr (bytes16 val) s) := by
  have hc := Alike.countWrite s
  unfold VgaState.memWrite16
  simp only [hc.chain4Addr, chain4Addr_none hchain, hc.regs, hchain]
  exact hc.writeBytes addr (bytes16 val)

theorem memWrite32_bytes (hchain : ¬s.regs.chain4 = true) (val : Word) :
    Alike (memWrite32 addr val s) (writeBytes VgaState.memWrite addr (bytes32 val) s) := by
  have hc := Alike.countWrite s
  have h2 : addr + 2 = addr + 1 + 1 := (BitVec.add_assoc addr 1 1).symm
  have h3 : addr + 3 = addr + 1 + 1 + 1 := by
    rw [← h2]
    exact (BitVec.add_assoc addr 2 1).symm
  unfold VgaState.memWrite32
  simp only [hc.chain4Addr, chain4Addr_none hchain, hc.regs, hchain, h2, h3]
  exact hc.writeBytes addr (bytes32 val)

end Wide

section Page

variable {r : VgaRegs} {addr o : Word} {n i : Nat}

theorem mapAddr_page (hpage : addr.toNat % 4096 + n ≤ 4096) (hmap : r.mapAddr addr = some o)
    (hi : i < n) : r.mapAddr (addr + BitVec.ofNat 32 i) = some (o + BitVec.ofNat 32 i) := by
  have hlow : ∀ a : Word, (a &&& 0x1ffff).toNat = a.toNat % 131072 := by
    intro a
    rw [BitVec.toNat_and]
    exact Nat.and_two_pow_sub_one_eq_mod a.toNat 17
  have hsum : (addr + BitVec.ofNat 32 i) &&& 0x1ffff = (addr &&& 0x1ffff) + BitVec.ofNat 32 i := by
    apply BitVec.eq_of_toNat_eq
    rw [hlow, BitVec.toNat_add, BitVec.toNat_add, hlow, BitVec.toNat_ofNat]
    omega
  have hwindow : (addr &&& 0x1ffff).toNat % 4096 + i < 4096 ∧ (addr &&& 0x1ffff).toNat < 131072 := by
    rw [hlow]
    omega
  unfold VgaRegs.mapAddr at hmap ⊢
  simp only [hsum] at hmap ⊢
  generalize addr &&& 0x1ffff = a at *
  have hcomm : ∀ b : Word, a + BitVec.ofNat 32 i + b = a + b + BitVec.ofNat 32 i := by
    intro b
    rw [BitVec.add_assoc, BitVec.add_comm (BitVec.ofNat 32 i), ← BitVec.add_assoc]
  have hsub : ∀ b : Word, a + BitVec.ofNat 32 i - b = a - b + BitVec.ofNat 32 i := by
    intro b
    rw [BitVec.sub_eq_add_neg, BitVec.sub_eq_add_neg, hcomm]
  split at hmap
  · cases hmap
    rfl
  · split at hmap
    · cases hmap
    · cases hmap
      rename_i hlt
      rw [if_neg (by bv_omega), hcomm]
  · split at hmap
    · cases hmap
    · cases hmap
      rename_i hlt
      rw [if_neg (by bv_omega), hsub]
  · split at hmap
    · cases hmap
    · cases hmap
      rename_i hlt
      rw [if_neg (by bv_omega), hsub]

end Page

section Planar

variable {s t : VgaState} {addr o : Word} {buf : List Byte} {wm : Word}

/-- What `vga_planar_write` asks of the registers. -/
structure Plain (r : VgaRegs) : Prop where
  chain4 : r.chain4 = false
  latched : (r.gr 5).getLsbD 4 = false
  writeMode : r.gr 5 &&& 3 = 0
  rotate : r.gr 3 &&& 7 = 0
  function : r.gr 3 >>> 3 = 0
  enable : r.gr 1 = 0
  bitMask : r.gr 8 = 0xff

theorem splat_eq (b : Byte) :
    (let val : Word := (b.setWidth 32 >>> 0 ||| b.setWidth 32 <<< 8) &&& 0xff
     let val := val ||| val <<< 8
     val ||| val <<< 16) = b.setWidth 32 * 0x01010101 := by
  revert b
  decide

theorem latchedValue_plain (h : Plain s.regs) (b : Byte) :
    s.latchedValue b = b.setWidth 32 * 0x01010101 := by
  have hmode : (s.regs.gr 5 &&& 3).toNat = 0 := by
    rw [h.writeMode]
    rfl
  have hrotate : (s.regs.gr 3 &&& 7).toNat = 0 := by
    rw [h.rotate]
    rfl
  have hfunction : (s.regs.gr 3 >>> 3).toNat = 0 := by
    rw [h.function]
    rfl
  have hset : mask16 (s.regs.gr 1).toNat = 0 := by
    rw [h.enable]
    rfl
  have hall : (0xff : Byte).setWidth 32 ||| (0xff : Byte).setWidth 32 <<< 8 |||
      ((0xff : Byte).setWidth 32 ||| (0xff : Byte).setWidth 32 <<< 8) <<< 16 =
        BitVec.allOnes 32 := by decide
  have hkeep : ∀ x y : Word, (x &&& ~~~0 ||| y &&& 0) &&& BitVec.allOnes 32 |||
      s.latch &&& ~~~BitVec.allOnes 32 = x := by
    intro x y
    apply BitVec.eq_of_getLsbD_eq
    intro i hi
    simp only [BitVec.getLsbD_or, BitVec.getLsbD_and, BitVec.getLsbD_not, BitVec.getLsbD_allOnes,
      BitVec.getLsbD_zero, BitVec.ofNat_eq_ofNat, hi, decide_true]
    simp
  have hsplat := splat_eq b
  simp only [] at hsplat
  unfold VgaState.latchedValue
  simp only [hmode, hrotate, hfunction, hset, h.bitMask, hall]
  exact (hkeep _ _).trans hsplat

theorem memWrite_plain (h : Plain s.regs) (hmap : s.regs.mapAddr addr = some o)
    (hsize : o.toNat < s.ramSize / 4) (b : Byte) :
    Alike (memWrite addr b s)
      (s.putWord o.toNat (s.getWord o.toNat &&& ~~~mask16 (s.regs.sr 2).toNat |||
        b.setWidth 32 * 0x01010101 &&& mask16 (s.regs.sr 2).toNat)) := by
  have hc := Alike.countWrite s
  have hchain : ¬s.regs.chain4 = true := by
    rw [h.chain4]
    exact Bool.false_ne_true
  have hvalue : s.countWrite.latchedValue b = b.setWidth 32 * 0x01010101 :=
    latchedValue_plain (by rw [hc.regs]; exact h) b
  unfold VgaState.memWrite
  simp only [hc.chain4Addr, chain4Addr_none hchain, hc.regs, hc.ramSize, hmap]
  rw [if_neg (by omega), if_neg hchain, if_neg (by rw [h.latched]; exact Bool.false_ne_true)]
  unfold VgaState.writeLatched
  simp only [hvalue, hc.regs, hc.ramSize, hc.getWord]
  rw [if_neg (by omega)]
  exact ((Alike.dirtyPlanar640 _ _ _).trans hc).putWord _ _

theorem writeBytes_fill (h : Plain s.regs) (hwm : wm = mask16 (s.regs.sr 2).toNat)
    (hmap : ∀ i < buf.length, s.regs.mapAddr (addr + BitVec.ofNat 32 i) =
      some (o + BitVec.ofNat 32 i)) (hsize : o.toNat + buf.length ≤ s.ramSize / 4) :
    Alike (writeBytes VgaState.memWrite addr buf s)
      (VgaState.fillPlanes wm (~~~wm) o.toNat buf s) := by
  induction buf generalizing addr o s with
  | nil => exact Alike.refl s
  | cons b buf ih =>
    rw [List.length_cons] at hmap hsize
    have hlt := s.ramSize_lt
    have hfirst : s.regs.mapAddr addr = some o := by
      have h0 := hmap 0 (by omega)
      rwa [BitVec.add_zero, BitVec.add_zero] at h0
    have hone := memWrite_plain h hfirst (by omega) b
    rw [← hwm, BitVec.or_comm] at hone
    have ho : (o + 1).toNat = o.toNat + 1 := by
      rw [BitVec.toNat_add]
      exact Nat.mod_eq_of_lt (by change o.toNat + 1 < 2 ^ 32; omega)
    have hrest : Alike (writeBytes VgaState.memWrite (addr + 1) buf
          (s.putWord o.toNat (b.setWidth 32 * 0x01010101 &&& wm |||
            s.getWord o.toNat &&& ~~~wm)))
        (VgaState.fillPlanes wm (~~~wm) (o + 1).toNat buf
          (s.putWord o.toNat (b.setWidth 32 * 0x01010101 &&& wm |||
            s.getWord o.toNat &&& ~~~wm))) := by
      apply @ih (s.putWord o.toNat _) (addr + 1) (o + 1) h hwm
      · intro i hi
        rw [add_succ, add_succ]
        exact hmap (i + 1) (by omega)
      · rw [ho]
        change o.toNat + 1 + buf.length ≤ s.ramSize / 4
        omega
    rw [ho] at hrest
    exact (hone.writeBytes _ _).trans hrest

theorem planarWrite_bytes (hplanes : s.regs.sr 2 &&& 0x0f = s.regs.sr 2)
    (hpage : addr.toNat % 4096 + buf.length ≤ 4096) (h : (s.planarWrite addr buf).1 = true) :
    Alike (s.planarWrite addr buf).2 (writeBytes VgaState.memWrite addr buf s) := by
  unfold VgaState.planarWrite at h ⊢
  simp only [hplanes] at h ⊢
  split at h
  · cases h
  rename_i hne
  split at h
  · cases h
  rename_i hmode
  split at h
  · cases h
  rename_i hrotate
  split at h
  · cases h
  rename_i henable
  split at h
  · cases h
  rename_i hmask
  split at h
  · cases h
  rename_i o hmap
  split at h
  · cases h
  rename_i hfit
  have hplain : Plain s.regs := by
    constructor
    · exact Bool.eq_false_of_not_eq_true fun hc => hmode (Or.inl hc)
    · exact Bool.eq_false_of_not_eq_true fun hc => hmode (Or.inr (Or.inl hc))
    · exact Decidable.of_not_not fun hc => hmode (Or.inr (Or.inr hc))
    · exact Decidable.of_not_not fun hc => hrotate (Or.inl hc)
    · exact Decidable.of_not_not fun hc => hrotate (Or.inr hc)
    · exact Decidable.of_not_not fun hc => henable (Or.inl hc)
    · exact Decidable.of_not_not fun hc => henable (Or.inr hc)
  have hwm : (if s.regs.sr 2 = 0x0f then 0xffffffff else mask16 (s.regs.sr 2).toNat) =
      mask16 (s.regs.sr 2).toNat := by
    split
    · rename_i hall
      rw [hall]
      rfl
    · rfl
  rw [if_neg hne, if_neg hmode, if_neg hrotate, if_neg henable, if_neg hmask]
  rw [if_neg hfit, hwm]
  apply (Alike.dirtyPlanar640 _ _ _).trans
  apply Alike.symm
  apply writeBytes_fill hplain rfl _ (by omega)
  intro i hi
  exact mapAddr_page hpage hmap hi

theorem planarWrite_cases (s : VgaState) (addr : Word) (buf : List Byte) :
    s.planarWrite addr buf = (false, s) ∨ (s.planarWrite addr buf).1 = true := by
  unfold VgaState.planarWrite
  split
  · exact Or.inl rfl
  simp only []
  split
  · exact Or.inl rfl
  split
  · exact Or.inl rfl
  split
  · exact Or.inl rfl
  split
  · exact Or.inl rfl
  split
  · exact Or.inl rfl
  split
  · exact Or.inl rfl
  · exact Or.inr rfl

theorem writeChain4_cases (s : VgaState) (addr : Word) (bytes : List Byte) :
    s.writeChain4 addr bytes = (false, s) ∨ (s.writeChain4 addr bytes).1 = true := by
  unfold VgaState.writeChain4
  split
  · exact Or.inl rfl
  split
  · exact Or.inl rfl
  split
  · exact Or.inr rfl
  · exact Or.inl rfl

end Planar

section Strings

variable {s : VgaState} {addr o : Word} {buf : List Byte}

theorem memWriteString_chain4 (hchain : s.regs.chain4 = true) (hne : buf ≠ [])
    (hlen : buf.length < 2 ^ 32) :
    (memWriteString addr buf s).1 = (s.writeChain4 addr buf).1 ∧
      Alike (memWriteString addr buf s).2 (s.writeChain4 addr buf).2 := by
  have hc := Alike.countWrite s
  have hcongr := hc.writeChain4 addr buf
  have hnat : (BitVec.ofNat 32 buf.length).toNat = buf.length := by
    rw [BitVec.toNat_ofNat]
    exact Nat.mod_eq_of_lt hlen
  unfold VgaState.memWriteString
  simp only [hne, if_false, hc.regs, hchain, if_true]
  split
  · rename_i a hfast
    have hshort := chain4_shortcut hne hnat hfast
    exact ⟨hshort.1.symm.trans hcongr.1, hshort.2.trans hcongr.2⟩
  · exact hcongr

theorem memWriteString_planar (hchain : ¬s.regs.chain4 = true) (hne : buf ≠ []) :
    memWriteString addr buf s = s.countWrite.planarWrite addr buf := by
  have hc := Alike.countWrite s
  unfold VgaState.memWriteString
  simp only [hne, if_false, hc.chain4Addr, chain4Addr_none hchain, hc.regs, hchain]
  rfl

/-- A string inside a page that chain 4 takes lies one byte behind the other. -/
theorem writeChain4_taken (hpage : addr.toNat % 4096 + buf.length ≤ 4096)
    (hplanes : ∀ o, s.regs.mapAddr addr = some o → PlanesAlike s.regs o buf.length)
    (h : (s.writeChain4 addr buf).1 = true) : Uniform s addr buf.length := by
  unfold VgaState.writeChain4 at h
  split at h
  · cases h
  rename_i o hmap
  split at h
  · cases h
  rename_i hin
  right
  refine ⟨o, fun i hi => mapAddr_page hpage hmap hi, Or.inl ?_, hplanes o hmap⟩
  have hfit : ¬(s.ramSize ≤ o.toNat ∨ s.ramSize - o.toNat < buf.length) :=
    fun hc => hin (Or.inr hc)
  omega

end Strings

def SameMemory (s t : VgaState) : Prop := s.ram = t.ram ∧ s.latch = t.latch

theorem Alike.sameMemory {s t : VgaState} (h : Alike s t) : SameMemory s t := ⟨h.ram, h.latch⟩

/-- A wide write equals its byte writes when the bytes are alike to chain 4, and does nothing when
it overruns the memory. -/
structure WideAgrees (s : VgaState) (addr : Word) (bytes : List Byte)
    (wide : VgaState → VgaState) : Prop where
  equal : (s.regs.chain4 = true → Uniform s addr bytes.length) →
    SameMemory (wide s) (writeBytes VgaState.memWrite addr bytes s)
  overrun : s.regs.chain4 = true → Overruns s addr bytes.length → SameMemory (wide s) s

/-- A string that is taken equals its byte writes, one that is refused does nothing. -/
structure StringAgrees (s : VgaState) (addr : Word) (buf : List Byte) : Prop where
  taken : (memWriteString addr buf s).1 = true →
    (s.regs.chain4 = true → ∀ o, s.regs.mapAddr addr = some o →
      PlanesAlike s.regs o buf.length) →
    SameMemory (memWriteString addr buf s).2 (writeBytes VgaState.memWrite addr buf s)
  refused : (memWriteString addr buf s).1 = false → SameMemory (memWriteString addr buf s).2 s

section Agree

variable {s : VgaState} {addr : Word}

theorem wideAgrees16 (val : BitVec 16) : WideAgrees s addr (bytes16 val) (memWrite16 addr val) := by
  constructor
  · intro huniform
    by_cases hchain : s.regs.chain4 = true
    · exact ((memWrite16_chain4 hchain val).trans
        (writeChain4_uniform hchain (List.cons_ne_nil _ _) (huniform hchain))).sameMemory
    · exact (memWrite16_bytes hchain val).sameMemory
  · intro hchain hover
    have h : Alike (memWrite16 addr val s) _ := memWrite16_chain4 hchain val
    rw [writeChain4_overrun hover] at h
    exact h.sameMemory

theorem wideAgrees32 (val : Word) : WideAgrees s addr (bytes32 val) (memWrite32 addr val) := by
  constructor
  · intro huniform
    by_cases hchain : s.regs.chain4 = true
    · exact ((memWrite32_chain4 hchain val).trans
        (writeChain4_uniform hchain (List.cons_ne_nil _ _) (huniform hchain))).sameMemory
    · exact (memWrite32_bytes hchain val).sameMemory
  · intro hchain hover
    have h : Alike (memWrite32 addr val s) _ := memWrite32_chain4 hchain val
    rw [writeChain4_overrun hover] at h
    exact h.sameMemory

theorem stringAgrees (hr : Reached s.ramSize s.regs) {buf : List Byte} (hne : buf ≠ [])
    (hpage : addr.toNat % 4096 + buf.length ≤ 4096) : StringAgrees s addr buf := by
  have hc := Alike.countWrite s
  have hchain4 : s.regs.chain4 = true →
      (memWriteString addr buf s).1 = (s.writeChain4 addr buf).1 ∧
        Alike (memWriteString addr buf s).2 (s.writeChain4 addr buf).2 :=
    fun hchain => memWriteString_chain4 hchain hne (by omega)
  constructor
  · intro htaken hplanes
    by_cases hchain : s.regs.chain4 = true
    · have hstring := hchain4 hchain
      rw [hstring.1] at htaken
      have huniform := writeChain4_taken hpage (hplanes hchain) htaken
      exact (hstring.2.trans (writeChain4_uniform hchain hne huniform)).sameMemory
    · rw [memWriteString_planar hchain hne] at htaken ⊢
      have hfour : s.countWrite.regs.sr 2 &&& 0x0f = s.countWrite.regs.sr 2 := by
        rw [hc.regs]
        exact hr.fourPlanes
      exact ((planarWrite_bytes hfour hpage htaken).trans (hc.writeBytes addr buf)).sameMemory
  · intro hrefused
    by_cases hchain : s.regs.chain4 = true
    · have hstring := hchain4 hchain
      rw [hstring.1] at hrefused
      rcases writeChain4_cases s addr buf with hcase | hcase
      · rw [hcase] at hstring
        exact hstring.2.sameMemory
      · exact absurd (hrefused.symm.trans hcase) Bool.false_ne_true
    · rw [memWriteString_planar hchain hne] at hrefused ⊢
      rcases planarWrite_cases s.countWrite addr buf with hcase | hcase
      · rw [hcase]
        exact hc.sameMemory
      · exact absurd (hrefused.symm.trans hcase) Bool.false_ne_true

end Agree

section Frame

variable {s : VgaState}

theorem memWrite_ramSize (addr : Word) (val : Byte) (s : VgaState) :
    (memWrite addr val s).ramSize = s.ramSize := by
  have hc := (Alike.countWrite s).ramSize
  have hmark : ∀ a len, (s.countWrite.dirtyMode13 a len).ramSize = s.ramSize :=
    fun a len => (Alike.dirtyMode13 _ a len).ramSize.trans hc
  have hplanar : ∀ a len, (s.countWrite.dirtyPlanar640 a len).ramSize = s.ramSize :=
    fun a len => (Alike.dirtyPlanar640 _ a len).ramSize.trans hc
  unfold VgaState.memWrite
  simp only []
  split
  · exact hmark _ _
  · split
    · exact hc
    · split
      · exact hc
      · split
        · split
          · exact hmark _ _
          · exact hc
        · split
          · unfold VgaState.writeOddEven
            simp only []
            split
            · split
              · exact hc
              · exact hplanar _ _
            · exact hc
          · unfold VgaState.writeLatched
            simp only []
            split
            · exact hc
            · exact hplanar _ _

end Frame

namespace Pc

section Bytes

variable {pc : Pc} {addr off : Word} {bytes : List Byte}

theorem pciVgaAddr_lt (h : pc.pciVgaAddr addr = some off) : off.toNat < pc.vga.ramSize := by
  unfold pciVgaAddr at h
  split at h
  · rename_i hbar
    cases h
    exact hbar.2.2
  · split at h
    · rename_i hlfb
      cases h
      exact hlfb.2
    · cases h

theorem pciVgaAddr_congr {pc' : Pc} (hbar : pc'.pciVgaRamAddr = pc.pciVgaRamAddr)
    (hsize : pc'.vga.ramSize = pc.vga.ramSize) : pc'.pciVgaAddr addr = pc.pciVgaAddr addr := by
  unfold pciVgaAddr
  rw [hbar, hsize]

theorem writeBytes_frame (hmap : ∀ i < bytes.length,
      pc.pciVgaAddr (addr + BitVec.ofNat 32 i) = some (off + BitVec.ofNat 32 i)) :
    writeBytes iomemWrite8 addr bytes pc = { pc with vga := pc.vga.put off bytes } := by
  induction bytes generalizing addr off pc with
  | nil =>
    have hput : pc.vga.put off [] = pc.vga := by
      unfold VgaState.put
      rw [blit_nil]
    rw [hput]
    rfl
  | cons b bytes ih =>
    rw [List.length_cons] at hmap
    have hlt := pc.vga.ramSize_lt
    have hfirst : pc.pciVgaAddr addr = some off := by
      have h0 := hmap 0 (by omega)
      rwa [BitVec.add_zero, BitVec.add_zero] at h0
    have hoff := pciVgaAddr_lt hfirst
    have hone : iomemWrite8 addr b pc = { pc with vga := pc.vga.put off [b] } := by
      unfold iomemWrite8
      simp only [hfirst]
    have hrest : writeBytes iomemWrite8 (addr + 1) bytes { pc with vga := pc.vga.put off [b] } =
        { pc with vga := (pc.vga.put off [b]).put (off + 1) bytes } := by
      apply @ih { pc with vga := pc.vga.put off [b] }
      intro i hi
      rw [add_succ, add_succ]
      exact hmap (i + 1) (by omega)
    have hroom : off.toNat + 1 < 2 ^ 32 := by omega
    unfold writeBytes
    rw [hone, hrest]
    exact congrArg (fun vga => { pc with vga := vga }) (put_put pc.vga hroom)

theorem writeBytes_window (hmap : ∀ i < bytes.length,
      pc.pciVgaAddr (addr + BitVec.ofNat 32 i) = none) :
    writeBytes iomemWrite8 addr bytes pc =
      { pc with vga := writeBytes VgaState.memWrite (addr - 0xa0000) bytes pc.vga } := by
  induction bytes generalizing addr pc with
  | nil => rfl
  | cons b bytes ih =>
    rw [List.length_cons] at hmap
    have hfirst : pc.pciVgaAddr addr = none := by
      have h0 := hmap 0 (by omega)
      rwa [BitVec.add_zero] at h0
    have hone : iomemWrite8 addr b pc =
        { pc with vga := VgaState.memWrite (addr - 0xa0000) b pc.vga } := by
      unfold iomemWrite8
      simp only [hfirst]
    have hsize : (VgaState.memWrite (addr - 0xa0000) b pc.vga).ramSize = pc.vga.ramSize :=
      memWrite_ramSize _ _ _
    have hsame : ∀ a, ({ pc with vga := VgaState.memWrite (addr - 0xa0000) b pc.vga } :
        Pc).pciVgaAddr a = pc.pciVgaAddr a := fun a => pciVgaAddr_congr rfl hsize
    have hrest : writeBytes iomemWrite8 (addr + 1) bytes
          { pc with vga := VgaState.memWrite (addr - 0xa0000) b pc.vga } =
        { pc with
          vga := writeBytes VgaState.memWrite (addr + 1 - 0xa0000) bytes
            (VgaState.memWrite (addr - 0xa0000) b pc.vga) } := by
      apply @ih { pc with vga := VgaState.memWrite (addr - 0xa0000) b pc.vga }
      intro i hi
      rw [hsame, add_succ]
      exact hmap (i + 1) (by omega)
    have hnext : addr + 1 - 0xa0000 = addr - 0xa0000 + 1 := by
      rw [BitVec.sub_eq_add_neg, BitVec.sub_eq_add_neg, BitVec.add_assoc, BitVec.add_assoc,
        BitVec.add_comm 1]
    rw [hnext] at hrest
    unfold writeBytes
    rw [hone, hrest]

end Bytes

/-- All bytes in the framebuffer one behind the other, or all in the windows and alike there. -/
def Uniform (pc : Pc) (addr : Word) (n : Nat) : Prop :=
  (∃ off : Word, ∀ i < n, pc.pciVgaAddr (addr + BitVec.ofNat 32 i) =
      some (off + BitVec.ofNat 32 i)) ∨
    (∀ i < n, pc.pciVgaAddr (addr + BitVec.ofNat 32 i) = none) ∧
      (pc.vga.regs.chain4 = true → Vga.Uniform pc.vga (addr - 0xa0000) n)

/-- The access begins in the framebuffer and ends behind it. -/
def Overruns (pc : Pc) (addr : Word) (n : Nat) : Prop :=
  ∃ off, pc.pciVgaAddr addr = some off ∧ pc.vga.ramSize < off.toNat + n

structure WideAgrees (pc : Pc) (addr : Word) (bytes : List Byte) (wide : Pc → Pc) : Prop where
  equal : pc.Uniform addr bytes.length →
    SameMemory (wide pc).vga (writeBytes iomemWrite8 addr bytes pc).vga
  overrun : pc.Overruns addr bytes.length → SameMemory (wide pc).vga pc.vga

structure StringAgrees (pc : Pc) (addr : Word) (buf : List Byte) : Prop where
  taken : (iomemWriteString addr buf pc).1 = true →
    (pc.pciVgaAddr addr = none → pc.vga.regs.chain4 = true →
      ∀ o, pc.vga.regs.mapAddr (addr - 0xa0000) = some o →
        PlanesAlike pc.vga.regs o buf.length) →
    SameMemory (iomemWriteString addr buf pc).2.vga (writeBytes iomemWrite8 addr buf pc).vga
  refused : (iomemWriteString addr buf pc).1 = false →
    SameMemory (iomemWriteString addr buf pc).2.vga pc.vga

/-- The address of the region has no bits below its size, which is a page at least. -/
def BarAligned (pc : Pc) : Prop :=
  pc.pciVgaRamAddr = 0xffffffff ∨ pc.pciVgaRamAddr.toNat % 4096 = 0

/-- The loop stops at a power of two that holds the memory, or at the last one. -/
theorem barSize_pow (ramSize : Nat) : ∀ fuel j, j + fuel ≤ 31 →
    ∃ m, j ≤ m ∧ m ≤ 31 ∧ barSize ramSize fuel ((1 : Word) <<< j) = (1 : Word) <<< m ∧
      (ramSize ≤ 2 ^ m ∨ m = j + fuel) := by
  intro fuel
  induction fuel with
  | zero =>
    intro j hj
    exact ⟨j, Nat.le_refl j, hj, rfl, Or.inr rfl⟩
  | succ fuel ih =>
    intro j hj
    have hpow : ((1 : Word) <<< j).toNat = 2 ^ j := by
      have hlt : 2 ^ j < 2 ^ 32 := Nat.pow_lt_pow_right (by omega) (by omega)
      rw [BitVec.toNat_shiftLeft, Nat.shiftLeft_eq]
      change (1 * 2 ^ j) % 2 ^ 32 = 2 ^ j
      rw [Nat.one_mul]
      exact Nat.mod_eq_of_lt hlt
    by_cases hlt : ((1 : Word) <<< j).toNat < ramSize
    · have hnext : barSize ramSize (fuel + 1) ((1 : Word) <<< j) =
          barSize ramSize fuel ((1 : Word) <<< (j + 1)) := by
        rw [BitVec.shiftLeft_add]
        exact if_pos hlt
      rw [hnext]
      rcases ih (j + 1) (by omega) with ⟨m, hjm, hm, heq, hend⟩
      exact ⟨m, by omega, hm, heq, hend.imp id fun h => by omega⟩
    · exact ⟨j, Nat.le_refl j, by omega, if_neg hlt, Or.inl (by omega)⟩

theorem updateMappings_aligned (config : Option Word) (pc : Pc) (h : 2048 < pc.vga.ramSize) :
    (updateMappings config pc).BarAligned := by
  cases config with
  | none => exact Or.inl rfl
  | some addr =>
    right
    rcases barSize_pow pc.vga.ramSize 31 0 (by omega) with ⟨m, _, hm, heq, hend⟩
    have h12 : 12 ≤ m := by
      rcases hend with hpow | hlast
      · by_contra hsmall
        have hle : 2 ^ m ≤ 2 ^ 11 := Nat.pow_le_pow_right (by omega) (by omega)
        omega
      · omega
    have hmask : (~~~((1 : Word) <<< m - 1)).toNat % 2 ^ 12 = 0 := by
      clear heq hend
      interval_cases m <;> rfl
    have hstart : (1 : Word) <<< 0 = 1 := rfl
    rw [hstart] at heq
    have haddr : (updateMappings (some addr) pc).pciVgaRamAddr =
        addr &&& ~~~(barSize pc.vga.ramSize 31 1 - 1) := rfl
    have hpage : (4096 : Nat) = 2 ^ 12 := rfl
    rw [haddr, hpage, heq, BitVec.toNat_and, Nat.and_mod_two_pow, hmask, Nat.and_zero]

section Agree

variable {pc : Pc} {addr : Word}

theorem sameMemory_refl (s : VgaState) : SameMemory s s := ⟨rfl, rfl⟩

theorem uniform_fits {n : Nat} {off : Word} (hpos : 0 < n) (hn : n ≤ 2 ^ 31)
    (h : ∀ i < n, pc.pciVgaAddr (addr + BitVec.ofNat 32 i) = some (off + BitVec.ofNat 32 i)) :
    pc.pciVgaAddr addr = some off ∧ off.toNat + n ≤ pc.vga.ramSize := by
  have hlt := pc.vga.ramSize_lt
  have hfirst : pc.pciVgaAddr addr = some off := by
    have h0 := h 0 hpos
    rwa [BitVec.add_zero, BitVec.add_zero] at h0
  have hoff := pciVgaAddr_lt hfirst
  have hlast := pciVgaAddr_lt (h (n - 1) (by omega))
  rw [toNat_add_of_lt (n := n) (by omega) (by omega)] at hlast
  exact ⟨hfirst, by omega⟩

theorem wideAgrees16 (val : BitVec 16) :
    pc.WideAgrees addr (bytes16 val) (iomemWrite16 addr val) := by
  have hlen : (bytes16 val).length = 2 := rfl
  constructor
  · intro huniform
    rcases huniform with ⟨off, hmap⟩ | ⟨hnone, huniform⟩
    · rcases uniform_fits (by omega) (by omega) hmap with ⟨hfirst, hfit⟩
      rw [hlen] at hfit
      rw [writeBytes_frame hmap]
      unfold iomemWrite16
      simp only [hfirst]
      rw [if_pos (by omega)]
      exact sameMemory_refl _
    · have hfirst : pc.pciVgaAddr addr = none := by
        have h0 := hnone 0 (by omega)
        rwa [BitVec.add_zero] at h0
      rw [writeBytes_window hnone]
      unfold iomemWrite16
      simp only [hfirst]
      exact (Vga.wideAgrees16 val).equal huniform
  · rintro ⟨off, hfirst, hover⟩
    rw [hlen] at hover
    unfold iomemWrite16
    simp only [hfirst]
    rw [if_neg (by omega)]
    exact sameMemory_refl _

theorem wideAgrees32 (val : Word) :
    pc.WideAgrees addr (bytes32 val) (iomemWrite32 addr val) := by
  have hlen : (bytes32 val).length = 4 := rfl
  constructor
  · intro huniform
    rcases huniform with ⟨off, hmap⟩ | ⟨hnone, huniform⟩
    · rcases uniform_fits (by omega) (by omega) hmap with ⟨hfirst, hfit⟩
      rw [hlen] at hfit
      rw [writeBytes_frame hmap]
      unfold iomemWrite32
      simp only [hfirst]
      rw [if_pos (by omega)]
      exact sameMemory_refl _
    · have hfirst : pc.pciVgaAddr addr = none := by
        have h0 := hnone 0 (by omega)
        rwa [BitVec.add_zero] at h0
      rw [writeBytes_window hnone]
      unfold iomemWrite32
      simp only [hfirst]
      exact (Vga.wideAgrees32 val).equal huniform
  · rintro ⟨off, hfirst, hover⟩
    rw [hlen] at hover
    unfold iomemWrite32
    simp only [hfirst]
    rw [if_neg (by omega)]
    exact sameMemory_refl _

/-- A region that begins with a page holds all of a string inside a page or nothing of it. -/
theorem region_page {b : Word} {size n i : Nat} (hb : b.toNat % 4096 = 0)
    (hpage : addr.toNat % 4096 + n ≤ 4096) (hi : i < n) :
    (b ≤ addr → addr + BitVec.ofNat 32 i - b = addr - b + BitVec.ofNat 32 i) ∧
    (b ≤ addr → (addr - b).toNat + n ≤ size →
      b ≤ addr + BitVec.ofNat 32 i ∧ (addr + BitVec.ofNat 32 i - b).toNat < size) ∧
    (b ≤ addr + BitVec.ofNat 32 i → (addr + BitVec.ofNat 32 i - b).toNat < size →
      b ≤ addr ∧ (addr - b).toNat < size) := by
  have hsum : (addr + BitVec.ofNat 32 i).toNat = addr.toNat + i := by
    have hlt := addr.isLt
    rw [BitVec.toNat_add, BitVec.toNat_ofNat, Nat.add_mod_mod]
    exact Nat.mod_eq_of_lt (by omega)
  refine ⟨fun _ => ?_, fun hle hfit => ?_, fun hle hlt => ?_⟩
  · rw [BitVec.sub_eq_add_neg, BitVec.sub_eq_add_neg, BitVec.add_assoc, BitVec.add_assoc,
      BitVec.add_comm (BitVec.ofNat 32 i)]
  · have hnext : b ≤ addr + BitVec.ofNat 32 i := by
      rw [BitVec.le_def] at hle ⊢
      omega
    rw [BitVec.toNat_sub_of_le hle] at hfit
    rw [BitVec.toNat_sub_of_le hnext, hsum]
    exact ⟨hnext, by omega⟩
  · have hback : b ≤ addr := by
      rw [BitVec.le_def] at hle ⊢
      omega
    rw [BitVec.toNat_sub_of_le hle, hsum] at hlt
    rw [BitVec.toNat_sub_of_le hback]
    exact ⟨hback, by omega⟩

/-- Inside a page the framebuffer neither begins nor is left for the other one. -/
theorem pciVgaAddr_page {n i : Nat} (hbar : pc.BarAligned) (hpage : addr.toNat % 4096 + n ≤ 4096)
    (hi : i < n) :
    (∀ off, pc.pciVgaAddr addr = some off → off.toNat + n ≤ pc.vga.ramSize →
        pc.pciVgaAddr (addr + BitVec.ofNat 32 i) = some (off + BitVec.ofNat 32 i)) ∧
      (pc.pciVgaAddr addr = none → pc.pciVgaAddr (addr + BitVec.ofNat 32 i) = none) := by
  have hlfb : ∀ size, _ := fun size =>
    @region_page addr 0xe0000000 size n i (by decide) hpage hi
  have hregion : pc.pciVgaRamAddr ≠ 0xffffffff → ∀ size, _ := fun hne size =>
    @region_page addr pc.pciVgaRamAddr size n i (hbar.resolve_left hne) hpage hi
  have hbarBack : pc.pciVgaRamAddr ≠ 0xffffffff ∧
        pc.pciVgaRamAddr ≤ addr + BitVec.ofNat 32 i ∧
        (addr + BitVec.ofNat 32 i - pc.pciVgaRamAddr).toNat < pc.vga.ramSize →
      pc.pciVgaRamAddr ≠ 0xffffffff ∧ pc.pciVgaRamAddr ≤ addr ∧
        (addr - pc.pciVgaRamAddr).toNat < pc.vga.ramSize :=
    fun h => ⟨h.1, (hregion h.1 _).2.2 h.2.1 h.2.2⟩
  unfold pciVgaAddr
  constructor
  · intro off h hfit
    split at h
    · rename_i hin
      cases h
      have hnext := hregion hin.1 pc.vga.ramSize
      rw [if_pos ⟨hin.1, hnext.2.1 hin.2.1 hfit⟩, hnext.1 hin.2.1]
    · rename_i hout
      split at h
      · rename_i hin
        cases h
        have hnext := hlfb pc.vga.ramSize
        rw [if_neg (fun hc => hout (hbarBack hc)), if_pos (hnext.2.1 hin.1 hfit), hnext.1 hin.1]
      · cases h
  · intro h
    split at h
    · cases h
    · rename_i hout
      split at h
      · cases h
      · rename_i hout'
        rw [if_neg (fun hc => hout (hbarBack hc)),
          if_neg (fun hc => hout' ((hlfb pc.vga.ramSize).2.2 hc.1 hc.2))]

theorem iomemWriteString_frame {off : Word} (h : pc.pciVgaAddr addr = some off)
    (buf : List Byte) :
    iomemWriteString addr buf pc =
      if buf.length ≤ pc.vga.ramSize - off.toNat then
        (true, { pc with vga := pc.vga.put off buf })
      else (false, pc) := by
  unfold iomemWriteString
  simp only [h]

theorem iomemWriteString_window (h : pc.pciVgaAddr addr = none) (buf : List Byte) :
    iomemWriteString addr buf pc =
      ((memWriteString (addr - 0xa0000) buf pc.vga).1,
        { pc with vga := (memWriteString (addr - 0xa0000) buf pc.vga).2 }) := by
  unfold iomemWriteString
  simp only [h]

theorem stringAgrees (hr : Reached pc.vga.ramSize pc.vga.regs) (hbar : pc.BarAligned)
    {buf : List Byte} (hne : buf ≠ []) (hpage : addr.toNat % 4096 + buf.length ≤ 4096) :
    pc.StringAgrees addr buf := by
  have hpage' : (addr - 0xa0000).toNat % 4096 + buf.length ≤ 4096 := by
    have hsame : (addr - 0xa0000).toNat % 4096 = addr.toNat % 4096 := by bv_omega
    omega
  have hstring := Vga.stringAgrees hr hne hpage'
  cases hfirst : pc.pciVgaAddr addr with
  | some off =>
    have hoff := pciVgaAddr_lt hfirst
    have hframe := iomemWriteString_frame hfirst buf
    by_cases hfit : buf.length ≤ pc.vga.ramSize - off.toNat
    · rw [if_pos hfit] at hframe
      constructor
      · intro _ _
        rw [hframe, writeBytes_frame fun i hi =>
          (pciVgaAddr_page hbar hpage hi).1 off hfirst (by omega)]
        exact sameMemory_refl _
      · intro hrefused
        rw [hframe] at hrefused
        cases hrefused
    · rw [if_neg hfit] at hframe
      constructor
      · intro htaken _
        rw [hframe] at htaken
        cases htaken
      · intro _
        rw [hframe]
        exact sameMemory_refl _
  | none =>
    have hwindow := iomemWriteString_window hfirst buf
    constructor
    · intro htaken hplanes
      rw [hwindow] at htaken ⊢
      rw [writeBytes_window fun i hi => (pciVgaAddr_page hbar hpage hi).2 hfirst]
      exact hstring.taken htaken (hplanes hfirst)
    · intro hrefused
      rw [hwindow] at hrefused ⊢
      exact hstring.refused hrefused

end Agree

end Pc

/-- Wide writes equal their byte writes where the bytes are alike, and are dropped where they
overrun the memory. -/
theorem wide_writes (pc : Pc) (hr : Reached pc.vga.ramSize pc.vga.regs) (hbar : pc.BarAligned)
    (addr : Word) :
    (∀ val, WideAgrees pc.vga addr (bytes16 val) (memWrite16 addr val)) ∧
      (∀ val, WideAgrees pc.vga addr (bytes32 val) (memWrite32 addr val)) ∧
      (∀ val, pc.WideAgrees addr (bytes16 val) (Pc.iomemWrite16 addr val)) ∧
      (∀ val, pc.WideAgrees addr (bytes32 val) (Pc.iomemWrite32 addr val)) ∧
      ∀ buf, buf ≠ [] → addr.toNat % 4096 + buf.length ≤ 4096 →
        StringAgrees pc.vga addr buf ∧ pc.StringAgrees addr buf :=
  ⟨wideAgrees16, wideAgrees32, Pc.wideAgrees16, Pc.wideAgrees32, fun _ hne hpage =>
    ⟨stringAgrees hr hne hpage, Pc.stringAgrees hr hbar hne hpage⟩⟩

/-- A machine after power on, with 256 KiB of video memory and no address of its own. -/
def powerOn : Pc where
  vga :=
    { ram := fun _ => 0
      ramSize := 262144
      ramSize_lt := by omega
      latch := 0
      regs := VgaRegs.init 262144
      dirtyRender := false
      textHoldDefault := 0
      vramWriteGeneration := 0
      mode13DirtyMin := 0
      mode13DirtyMax := 199
      planar640DirtyMin := 0
      planar640DirtyMax := 239
      planar640DirtyRows := fun _ => true }
  pciVgaRamAddr := 0xffffffff

def portWrites (ws : List (Nat × Word)) (r : VgaRegs) : VgaRegs :=
  ws.foldl (fun r w => r.ioportWrite w.1 w.2) r

theorem Reached.portWrites {ramSize : Nat} (ws : List (Nat × Word)) :
    ∀ {r : VgaRegs}, Reached ramSize r → Reached ramSize (portWrites ws r) := by
  induction ws with
  | nil => exact fun hr => hr
  | cons w ws ih => exact fun hr => ih (hr.ioport w.1 w.2)

/-- All planes enabled and the window at 0xa0000, with `mode` in the memory mode register. -/
def modeOn (mode : Word) : Pc :=
  { powerOn with vga := { powerOn.vga with
      dirtyRender := true
      regs := portWrites [(0x3c4, 2), (0x3c5, 0x0f), (0x3c4, 4), (0x3c5, mode), (0x3ce, 6),
        (0x3cf, 5), (0x3ce, 5), (0x3cf, 0)] powerOn.vga.regs } }

theorem modeOn_reached (mode : Word) :
    Reached (modeOn mode).vga.ramSize (modeOn mode).vga.regs := Reached.portWrites _ .init

/-- A word into the framebuffer, a doubleword through chain 4 and a string into four planes. -/
theorem wide_writes_powerOn :
    SameMemory (Pc.iomemWrite16 0xe0000010 0x1234 powerOn).vga
        (writeBytes Pc.iomemWrite8 0xe0000010 (bytes16 0x1234) powerOn).vga ∧
      SameMemory (Pc.iomemWrite32 0xa0010 0x12345678 (modeOn 0x0e)).vga
        (writeBytes Pc.iomemWrite8 0xa0010 (bytes32 0x12345678) (modeOn 0x0e)).vga ∧
      (Pc.iomemWriteString 0xa0010 [1, 2, 3] (modeOn 6)).1 = true ∧
      SameMemory (Pc.iomemWriteString 0xa0010 [1, 2, 3] (modeOn 6)).2.vga
        (writeBytes Pc.iomemWrite8 0xa0010 [1, 2, 3] (modeOn 6)).vga := by
  refine ⟨?_, ?_, rfl, ?_⟩
  · apply ((wide_writes powerOn .init (Or.inl rfl) 0xe0000010).2.2.1 0x1234).equal
    left
    refine ⟨0x10, fun i hi => ?_⟩
    have hi' : i < 2 := hi
    rcases (by omega : i = 0 ∨ i = 1) with rfl | rfl <;> rfl
  · apply ((wide_writes (modeOn 0x0e) (modeOn_reached _) (Or.inl rfl) 0xa0010).2.2.2.1
      0x12345678).equal
    refine Or.inr ⟨fun i hi => ?_, fun _ => Or.inr ⟨0x10, fun i hi => ?_, Or.inl (by decide), ?_⟩⟩
    · have hi' : i < 4 := hi
      interval_cases i <;> rfl
    · have hi' : i < 4 := hi
      interval_cases i <;> rfl
    · exact Or.inl (by decide)
  · have hstring := ((wide_writes (modeOn 6) (modeOn_reached _) (Or.inl rfl) 0xa0010).2.2.2.2
      [1, 2, 3] (List.cons_ne_nil _ _) (by decide)).2
    exact hstring.taken rfl fun _ hchain => absurd hchain (by decide)

/-- At the last byte of the framebuffer the word is dropped, its first byte is not. -/
theorem last_byte_dropped :
    (Pc.iomemWrite16 0xe003ffff 0x1234 powerOn).vga.ram 262143 = 0 ∧
      (writeBytes Pc.iomemWrite8 0xe003ffff (bytes16 0x1234) powerOn).vga.ram 262143 = 0x34 ∧
      ¬SameMemory (Pc.iomemWrite16 0xe003ffff 0x1234 powerOn).vga
        (writeBytes Pc.iomemWrite8 0xe003ffff (bytes16 0x1234) powerOn).vga := by
  have hword : (Pc.iomemWrite16 0xe003ffff 0x1234 powerOn).vga.ram 262143 = 0 := rfl
  have hbyte : (writeBytes Pc.iomemWrite8 0xe003ffff (bytes16 0x1234) powerOn).vga.ram 262143 =
      0x34 := rfl
  refine ⟨hword, hbyte, ?_⟩
  intro h
  have hsame := congrFun h.1 262143
  rw [hword, hbyte] at hsame
  exact absurd hsame (by decide)

end Winspire.Vga
