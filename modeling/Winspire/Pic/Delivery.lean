import Winspire.Pic.State
import Mathlib.Tactic.Tauto

/-!
# Delivery of interrupts

A controller asks again only inside `pic_update_irq`. Each operation either ends there or leaves
what waits alone, apart from three writes.
-/

namespace Winspire.Pic

set_option autoImplicit false

/-- The lines of `a` are lines of `b`. -/
def Within (a b : BitVec 8) : Prop := ∀ i, a.getLsbD i = true → b.getLsbD i = true

section Priority

variable {add : Nat} {mask mask' : BitVec 8}

theorem findPriority_ge (fuel p : Nat) : p ≤ findPriority add mask fuel p := by
  induction fuel generalizing p with
  | zero => exact Nat.le_refl p
  | succ fuel ih =>
    unfold findPriority
    split
    · exact Nat.le_trans (Nat.le_succ p) (ih (p + 1))
    · exact Nat.le_refl p

theorem findPriority_le (fuel p : Nat) : findPriority add mask fuel p ≤ p + fuel := by
  induction fuel generalizing p with
  | zero => exact Nat.le_refl p
  | succ fuel ih =>
    unfold findPriority
    split
    · exact Nat.le_trans (ih (p + 1)) (by omega)
    · exact Nat.le_add_right p _

theorem findPriority_within (h : Within mask mask') (fuel p : Nat) :
    findPriority add mask' fuel p ≤ findPriority add mask fuel p := by
  induction fuel generalizing p with
  | zero => exact Nat.le_refl p
  | succ fuel ih =>
    by_cases hbit : mask'.getLsbD ((p + add) % 8) = false
    · have hmask : mask.getLsbD ((p + add) % 8) = false := by
        apply Bool.eq_false_of_not_eq_true
        intro ht
        exact Bool.false_ne_true (hbit.symm.trans (h _ ht))
      unfold findPriority
      rw [if_pos hbit, if_pos hmask]
      exact ih (p + 1)
    · have hhere : findPriority add mask' (fuel + 1) p = p := if_neg hbit
      rw [hhere]
      exact findPriority_ge (fuel + 1) p

end Priority

section Requests

variable {s t : PicState} {chip : Chip} {a b : BitVec 8}

theorem getPriority_le (s : PicState) (a : BitVec 8) : getPriority s a ≤ 8 := by
  unfold getPriority
  split
  · exact Nat.le_refl 8
  · exact findPriority_le 8 0

theorem getPriority_within (h : Within a b) : getPriority s b ≤ getPriority s a := by
  by_cases ha : a = 0
  · have h8 : getPriority s a = 8 := if_pos ha
    rw [h8]
    exact getPriority_le s b
  · have hb : b ≠ 0 := by
      intro hb
      apply ha
      apply BitVec.eq_of_getLsbD_eq
      intro i _
      rw [BitVec.ofNat_eq_ofNat, BitVec.getLsbD_zero]
      apply Bool.eq_false_of_not_eq_true
      intro hi
      have hbi := h i hi
      rw [hb, BitVec.ofNat_eq_ofNat, BitVec.getLsbD_zero] at hbi
      exact Bool.false_ne_true hbi
    unfold getPriority
    rw [if_neg ha, if_neg hb]
    exact findPriority_within h 8 0

/-- A request is wanted when it is before everything in service. -/
theorem picGetIrq_isSome :
    (picGetIrq chip s).isSome ↔
      getPriority s (s.irr &&& ~~~ s.imr) < getPriority s (inService chip s) := by
  have hle := getPriority_le s (inService chip s)
  unfold picGetIrq
  simp only []
  split
  · constructor
    · intro h
      cases h
    · omega
  · split <;> simp_all

/-- What `pic_get_irq` depends on. -/
structure Same (s t : PicState) : Prop where
  irr : s.irr = t.irr
  imr : s.imr = t.imr
  isr : s.isr = t.isr
  priorityAdd : s.priorityAdd = t.priorityAdd
  specialMask : s.specialMask = t.specialMask
  nested : s.specialFullyNestedMode = t.specialFullyNestedMode

theorem Same.getPriority (h : Same s t) (a : BitVec 8) :
    Pic.getPriority s a = Pic.getPriority t a := by
  unfold Pic.getPriority
  rw [h.priorityAdd]

theorem Same.inService (h : Same s t) : inService chip s = inService chip t := by
  unfold Pic.inService
  rw [h.isr, h.imr, h.specialMask, h.nested]

theorem Same.wants (h : Same s t) :
    (picGetIrq chip s).isSome ↔ (picGetIrq chip t).isSome := by
  rw [picGetIrq_isSome, picGetIrq_isSome, h.getPriority, h.getPriority, h.inService, h.irr, h.imr]

end Requests

/-- Line 2 of the master is neither masked nor behind an interrupt in service. -/
def CascadeOpen (p : PicState) : Prop :=
  p.imr.getLsbD 2 = false ∧ getPriority p (bit 2) < getPriority p (inService .master p)

def Waiting (s : PicState2) : Prop :=
  (picGetIrq .master s.master).isSome ∨ (picGetIrq .slave s.slave).isSome ∧ CascadeOpen s.master

instance (p : PicState) : Decidable (CascadeOpen p) := inferInstanceAs (Decidable (_ ∧ _))

instance (s : PicState2) : Decidable (Waiting s) := inferInstanceAs (Decidable (_ ∨ _))

def NoneLost (s : PicState2) : Prop := Waiting s → s.intr = true

/-- Between two operations line 2 of the master is low. -/
structure Sound (s : PicState2) : Prop where
  low : s.master.lastIrr.getLsbD 2 = false
  noneLost : NoneLost s

theorem bit_getLsbD (n i : Nat) :
    (bit n).getLsbD i = (decide (i < 8) && decide (i = n)) := by
  unfold bit
  rw [BitVec.getLsbD_shiftLeft, BitVec.getLsbD_one]
  grind

theorem bit_within {a : BitVec 8} {n : Nat} (h : a.getLsbD n = true) : Within (bit n) a := by
  intro i hi
  rw [bit_getLsbD, Bool.and_eq_true, decide_eq_true_eq, decide_eq_true_eq] at hi
  rw [hi.2]
  exact h

/-- The cascade request is delivered when the cascade is open. -/
theorem CascadeOpen.wants {p : PicState} (h : CascadeOpen p) (hirr : p.irr.getLsbD 2 = true) :
    (picGetIrq .master p).isSome := by
  rw [picGetIrq_isSome]
  apply Nat.lt_of_le_of_lt _ h.2
  apply getPriority_within
  apply bit_within
  rw [BitVec.getLsbD_and, hirr, BitVec.getLsbD_not, h.1]
  rfl

section Update

variable {s : PicState2}

theorem picSetIrq1_lastIrr (p : PicState) (irq i : Nat) (level : Bool) (h : i ≠ irq) :
    (picSetIrq1 p irq level).lastIrr.getLsbD i = p.lastIrr.getLsbD i := by
  have hbit : (bit irq).getLsbD i = false := by
    rw [bit_getLsbD, decide_eq_false h, Bool.and_false]
  unfold picSetIrq1
  cases level with
  | true => simp [hbit]
  | false =>
    simp only [Bool.false_eq_true, if_false, BitVec.getLsbD_and, BitVec.getLsbD_not, hbit]
    cases hi : p.lastIrr.getLsbD i with
    | false => rfl
    | true =>
      have hlt : i < 8 := BitVec.lt_of_getLsbD hi
      simp [hlt]

theorem picSetIrq1_low (p : PicState) (irq : Nat) :
    (picSetIrq1 p irq false).lastIrr.getLsbD irq = false := by
  unfold picSetIrq1
  simp only [Bool.false_eq_true, if_false, BitVec.getLsbD_and, BitVec.getLsbD_not, bit_getLsbD]
  grind

theorem picSetIrq1_irr {p : PicState} {irq : Nat} (hirq : irq < 8)
    (h : p.lastIrr.getLsbD irq = false) :
    (picSetIrq1 p irq true).irr.getLsbD irq = true := by
  have hedge : p.lastIrr &&& bit irq = 0 := by
    apply BitVec.eq_of_getLsbD_eq
    intro i hi
    rw [BitVec.getLsbD_and, bit_getLsbD]
    by_cases hii : i = irq
    · rw [hii, h]
      simp
    · rw [decide_eq_false hii]
      simp
  unfold picSetIrq1
  simp [hedge, bit_getLsbD, hirq]

theorem cascade_slave (s : PicState2) : (cascade s).slave = s.slave := by
  unfold cascade
  split <;> rfl

theorem cascade_low (h : s.master.lastIrr.getLsbD 2 = false) :
    (cascade s).master.lastIrr.getLsbD 2 = false := by
  unfold cascade
  split
  · exact picSetIrq1_low _ 2
  · exact h

theorem cascade_requests (h : s.master.lastIrr.getLsbD 2 = false)
    (hslave : (picGetIrq .slave s.slave).isSome) :
    (cascade s).master.irr.getLsbD 2 = true := by
  unfold cascade
  rw [if_pos hslave]
  exact picSetIrq1_irr (by omega) h

theorem picUpdateIrq_master (s : PicState2) :
    (picUpdateIrq s).master = (cascade s).master := by
  unfold picUpdateIrq
  simp only []
  split <;> rfl

theorem picUpdateIrq_slave (s : PicState2) : (picUpdateIrq s).slave = s.slave := by
  unfold picUpdateIrq
  simp only []
  split <;> exact cascade_slave s

theorem picUpdateIrq_intr (h : (picGetIrq .master (cascade s).master).isSome) :
    (picUpdateIrq s).intr = true := by
  unfold picUpdateIrq
  simp only []
  rw [if_pos h]

theorem picUpdateIrq_sound (h : s.master.lastIrr.getLsbD 2 = false) : Sound (picUpdateIrq s) := by
  constructor
  · rw [picUpdateIrq_master]
    exact cascade_low h
  · intro hw
    apply picUpdateIrq_intr
    unfold Waiting at hw
    rw [picUpdateIrq_master, picUpdateIrq_slave] at hw
    rcases hw with hmaster | ⟨hslave, hopen⟩
    · exact hmaster
    · exact hopen.wants (cascade_requests h hslave)

end Update

section Quiet

variable {s s' : PicState2} {p q : PicState} {chip : Chip}

theorem Same.cascadeOpen (h : Same p q) : CascadeOpen p ↔ CascadeOpen q := by
  unfold CascadeOpen
  rw [h.imr, h.getPriority, h.getPriority, h.inService]

theorem Same.refl (p : PicState) : Same p p := ⟨rfl, rfl, rfl, rfl, rfl, rfl⟩

theorem waiting_congr (hmaster : Same s.master s'.master) (hslave : Same s.slave s'.slave) :
    Waiting s ↔ Waiting s' := by
  unfold Waiting
  rw [hmaster.wants, hslave.wants, hmaster.cascadeOpen]

theorem Same.waiting (h : Same p q) (s : PicState2) (chip : Chip) :
    Waiting (s.setPic p chip) ↔ Waiting (s.setPic q chip) := by
  cases chip with
  | master => exact waiting_congr h (Same.refl _)
  | slave => exact waiting_congr (Same.refl _) h

theorem setPic_pic (s : PicState2) (chip : Chip) : s.setPic (s.pic chip) chip = s := by
  cases chip <;> rfl

theorem setPic_intr (s : PicState2) (p : PicState) (chip : Chip) :
    (s.setPic p chip).intr = s.intr := by
  cases chip <;> rfl

theorem setPic_low (h : s.master.lastIrr.getLsbD 2 = false)
    (hp : p.lastIrr = (s.pic chip).lastIrr) :
    (s.setPic p chip).master.lastIrr.getLsbD 2 = false := by
  cases chip with
  | master =>
    change p.lastIrr.getLsbD 2 = false
    rw [hp]
    exact h
  | slave => exact h

theorem Sound.update (h : Sound s) (hp : p.lastIrr = (s.pic chip).lastIrr) :
    Sound (picUpdateIrq (s.setPic p chip)) :=
  picUpdateIrq_sound (setPic_low h.low hp)

theorem Sound.same (h : Sound s) (hsame : Same p (s.pic chip))
    (hp : p.lastIrr = (s.pic chip).lastIrr) : Sound (s.setPic p chip) := by
  constructor
  · exact setPic_low h.low hp
  · intro hw
    rw [hsame.waiting, setPic_pic] at hw
    rw [setPic_intr]
    exact h.noneLost hw

end Quiet

section Operations

variable {s s' : PicState2} {chip : Chip} {addr val : BitVec 32}

theorem i8259SetIrq_sound (h : Sound s) {irq : Fin 16} {level : Bool}
    (hline : irq = 2 → level = false) : Sound (i8259SetIrq irq level s) := by
  apply picUpdateIrq_sound
  split
  · rename_i hmaster
    change (picSetIrq1 s.master (irq.val % 8) level).lastIrr.getLsbD 2 = false
    by_cases h2 : irq = 2
    · rw [hline h2, h2]
      exact picSetIrq1_low _ 2
    · rw [picSetIrq1_lastIrr]
      · exact h.low
      · omega
  · exact h.low

theorem picIntack_lastIrr (p : PicState) (irq : Nat) : (picIntack p irq).lastIrr = p.lastIrr := by
  unfold picIntack
  simp only []
  split
  · split <;> rfl
  · rfl

theorem acknowledge_sound (h : s.master.lastIrr.getLsbD 2 = false) :
    Sound (acknowledge s).2 := by
  have hack : ∀ irq, (picIntack s.master irq).lastIrr.getLsbD 2 = false := by
    intro irq
    rw [picIntack_lastIrr]
    exact h
  unfold acknowledge i8259ReadIrq
  simp only []
  split
  · split
    · split <;> exact picUpdateIrq_sound (hack _)
    · exact picUpdateIrq_sound (hack _)
  · exact picUpdateIrq_sound h

theorem writeOcw2_sound (h : Sound s) : Sound (writeOcw2 chip val s) := by
  unfold writeOcw2
  simp only []
  split
  · exact h.same ⟨rfl, rfl, rfl, rfl, rfl, rfl⟩ rfl
  · exact h.same ⟨rfl, rfl, rfl, rfl, rfl, rfl⟩ rfl
  · split
    · exact h.update rfl
    · exact h
  · split
    · exact h.update rfl
    · exact h
  · exact h.update rfl
  · exact h.update rfl
  · exact h.update rfl
  · exact h

/-- Polling takes a request away; when it does not ask again, the processor was asked before. -/
theorem picPollRead_sound (h : Sound s) : Sound (picPollRead chip addr s).2 := by
  unfold picPollRead
  split
  · rename_i ret hret
    simp only []
    split
    · by_cases haddr : addr >>> 7 ≠ 0
      · rw [if_pos haddr]
        cases chip <;> exact picUpdateIrq_sound h.low
      · rw [if_neg haddr]
        exact h.update rfl
    · rename_i hquiet
      have haddr : ¬ addr >>> 7 ≠ 0 := fun ha => hquiet (Or.inl ha)
      rw [if_neg haddr]
      constructor
      · exact setPic_low h.low rfl
      · intro hw
        rw [setPic_intr]
        apply h.noneLost
        have hwant : (picGetIrq chip (s.pic chip)).isSome := by
          rw [hret]
          rfl
        cases chip with
        | master => exact Or.inl hwant
        | slave =>
          rcases hw with hmaster | ⟨_, hopen⟩
          · exact Or.inl hmaster
          · exact Or.inr ⟨hwant, hopen⟩
  · exact picUpdateIrq_sound h.low

theorem picIoportRead_sound (h : Sound s) : Sound (picIoportRead chip addr s).2 := by
  unfold picIoportRead
  simp only []
  split
  · exact (picPollRead_sound h).same ⟨rfl, rfl, rfl, rfl, rfl, rfl⟩ rfl
  · split
    · split <;> exact h
    · exact h

end Operations

section Modes

variable {s : PicState2} {p q : PicState} {chip : Chip} {val : BitVec 32}

theorem noneLost_iff (s : PicState2) : NoneLost s ↔ s.intr = true ∨ ¬ Waiting s := by
  unfold NoneLost
  tauto

theorem wants_mono (hirr : p.irr = q.irr) (himr : p.imr = q.imr)
    (hadd : p.priorityAdd = q.priorityAdd)
    (hin : Within (inService chip q) (inService chip p)) (h : (picGetIrq chip p).isSome) :
    (picGetIrq chip q).isSome := by
  have hprio : ∀ a, getPriority p a = getPriority q a := by
    intro a
    unfold getPriority
    rw [hadd]
  rw [picGetIrq_isSome] at h ⊢
  rw [hprio, hprio, hirr, himr] at h
  exact Nat.lt_of_lt_of_le h (getPriority_within hin)

theorem cascadeOpen_mono (himr : p.imr = q.imr) (hadd : p.priorityAdd = q.priorityAdd)
    (hin : Within (inService .master q) (inService .master p)) (h : CascadeOpen p) :
    CascadeOpen q := by
  have hprio : ∀ a, getPriority p a = getPriority q a := by
    intro a
    unfold getPriority
    rw [hadd]
  refine ⟨himr ▸ h.1, ?_⟩
  have hlt := h.2
  rw [hprio, hprio] at hlt
  exact Nat.lt_of_lt_of_le hlt (getPriority_within hin)

theorem Waiting.mono (hirr : p.irr = (s.pic chip).irr) (himr : p.imr = (s.pic chip).imr)
    (hadd : p.priorityAdd = (s.pic chip).priorityAdd)
    (hin : Within (inService chip (s.pic chip)) (inService chip p))
    (h : Waiting (s.setPic p chip)) : Waiting s := by
  cases chip with
  | master =>
    rcases h with h | ⟨hslave, hopen⟩
    · exact Or.inl (wants_mono hirr himr hadd hin h)
    · exact Or.inr ⟨hslave, cascadeOpen_mono himr hadd hin hopen⟩
  | slave =>
    rcases h with h | ⟨hslave, hopen⟩
    · exact Or.inl h
    · exact Or.inr ⟨wants_mono hirr himr hadd hin hslave, hopen⟩

theorem inService_specialMask (chip : Chip) (p : PicState) :
    Within (inService chip p) (inService chip { p with specialMask := false }) := by
  intro i
  unfold inService
  cases p.specialMask <;> cases chip <;> cases p.specialFullyNestedMode <;>
    simp +contextual

theorem inService_nested (chip : Chip) (p : PicState) :
    Within (inService chip p) (inService chip { p with specialFullyNestedMode := false }) := by
  intro i
  unfold inService
  cases p.specialMask <;> cases chip <;> cases p.specialFullyNestedMode <;>
    simp +contextual

theorem waiting_specialMask (s : PicState2) (chip : Chip)
    (h : Waiting (s.setPic { s.pic chip with specialMask := false } chip)) : Waiting s := by
  apply Waiting.mono (p := { s.pic chip with specialMask := false }) rfl rfl rfl _ h
  exact inService_specialMask chip (s.pic chip)

theorem waiting_nested (s : PicState2) (chip : Chip)
    (h : Waiting (s.setPic { s.pic chip with specialFullyNestedMode := false } chip)) :
    Waiting s := by
  apply Waiting.mono (p := { s.pic chip with specialFullyNestedMode := false }) rfl rfl rfl _ h
  exact inService_nested chip (s.pic chip)

theorem writeIcw1_noneLost (h : Sound s) :
    NoneLost (s.setPic (writeIcw1 val) chip) ↔
      (chip = .master → s.intr = true ∨ picGetIrq .slave s.slave = none) := by
  have hempty : ∀ chip, picGetIrq chip (writeIcw1 val) = none := by
    intro chip
    have h8 : getPriority (writeIcw1 val) (0 &&& ~~~ 0) = 8 := if_pos (by decide)
    exact if_pos h8
  rw [noneLost_iff, setPic_intr]
  cases chip with
  | master =>
    have hreset : Same (writeIcw1 val) picReset := ⟨rfl, rfl, rfl, rfl, rfl, rfl⟩
    have hopen : CascadeOpen (writeIcw1 val) := by
      rw [hreset.cascadeOpen]
      exact ⟨rfl, by decide⟩
    have hw : Waiting (s.setPic (writeIcw1 val) .master) ↔ picGetIrq .slave s.slave ≠ none := by
      unfold Waiting
      change (picGetIrq .master (writeIcw1 val)).isSome ∨ _ ∧ CascadeOpen (writeIcw1 val) ↔ _
      rw [hempty, ← Option.isSome_iff_ne_none]
      simp only [Option.isSome_none, Bool.false_eq_true, false_or]
      exact and_iff_left hopen
    rw [hw]
    simp
  | slave =>
    have hw : Waiting (s.setPic (writeIcw1 val) .slave) → Waiting s := by
      intro hw
      rcases hw with hmaster | ⟨hslave, _⟩
      · exact Or.inl hmaster
      · have hnone : (picGetIrq .slave (writeIcw1 val)).isSome := hslave
        rw [hempty] at hnone
        cases hnone
    have hlost := h.noneLost
    unfold NoneLost at hlost
    simp only [reduceCtorEq, false_imp_iff, iff_true]
    tauto

/-- OCW3 only lets requests through when it turns special mask mode on. -/
theorem writeOcw3_noneLost (h : Sound s) :
    NoneLost (s.setPic (writeOcw3 val (s.pic chip)) chip) ↔
      (val.getLsbD 6 = true → val.getLsbD 5 = true → s.intr = true ∨
        ¬ Waiting (s.setPic { s.pic chip with specialMask := true } chip)) := by
  have hlost := (noneLost_iff s).mp h.noneLost
  rw [noneLost_iff, setPic_intr]
  by_cases h6 : val.getLsbD 6 = true
  · have hsame : Same (writeOcw3 val (s.pic chip))
        { s.pic chip with specialMask := val.getLsbD 5 } :=
      ⟨rfl, rfl, rfl, rfl, if_pos h6, rfl⟩
    rw [hsame.waiting]
    by_cases h5 : val.getLsbD 5 = true
    · rw [h5]
      simp [h6]
    · rw [Bool.eq_false_of_not_eq_true h5]
      refine iff_of_true ?_ fun _ ht => absurd ht Bool.false_ne_true
      rcases hlost with hintr | hnot
      · exact Or.inl hintr
      · exact Or.inr fun hw => hnot (waiting_specialMask s chip hw)
  · have hsame : Same (writeOcw3 val (s.pic chip)) (s.pic chip) :=
      ⟨rfl, rfl, rfl, rfl, if_neg h6, rfl⟩
    rw [hsame.waiting, setPic_pic]
    exact iff_of_true hlost fun ht => absurd ht h6

/-- ICW4 only lets requests through when it turns the fully nested mode on. -/
theorem writeIcw_noneLost (h : Sound s) :
    NoneLost (s.setPic (writeIcw val (s.pic chip)) chip) ↔
      ((s.pic chip).initState = 3 → val.getLsbD 4 = true → s.intr = true ∨
        ¬ Waiting (s.setPic { s.pic chip with specialFullyNestedMode := true } chip)) := by
  have hlost := (noneLost_iff s).mp h.noneLost
  rw [noneLost_iff, setPic_intr]
  by_cases h3 : (s.pic chip).initState = 3
  · have hsame : Same (writeIcw val (s.pic chip))
        { s.pic chip with specialFullyNestedMode := val.getLsbD 4 } := by
      unfold writeIcw
      rw [h3]
      exact ⟨rfl, rfl, rfl, rfl, rfl, rfl⟩
    rw [hsame.waiting]
    by_cases h4 : val.getLsbD 4 = true
    · rw [h4]
      simp [h3]
    · rw [Bool.eq_false_of_not_eq_true h4]
      refine iff_of_true ?_ fun _ ht => absurd ht Bool.false_ne_true
      rcases hlost with hintr | hnot
      · exact Or.inl hintr
      · exact Or.inr fun hw => hnot (waiting_nested s chip hw)
  · have hsame : Same (writeIcw val (s.pic chip)) (s.pic chip) := by
      unfold writeIcw
      split
      · exact ⟨rfl, rfl, rfl, rfl, rfl, rfl⟩
      · exact ⟨rfl, rfl, rfl, rfl, rfl, rfl⟩
      · rename_i hinit
        exact absurd hinit h3
      · exact Same.refl _
    rw [hsame.waiting, setPic_pic]
    exact iff_of_true hlost fun ht => absurd ht h3

end Modes

inductive Op where
  | setIrq (irq : Fin 16) (level : Bool)
  | write (addr val : BitVec 32)
  | read (addr : BitVec 32)
  | acknowledge
  deriving DecidableEq, Repr

/-- `none` when the operation selects level-triggered mode. -/
def Op.step : Op → PicState2 → Option PicState2
  | .setIrq irq level, s => some (i8259SetIrq irq level s)
  | .write addr val, s => i8259IoportWrite addr val s
  | .read addr, s => some (i8259IoportRead addr s).2
  | .acknowledge, s => some (Pic.acknowledge s).2

/-- ICW1 resets the master only when no request of the slave depends on it. -/
def IcwSafe (addr val : BitVec 32) (s : PicState2) : Prop :=
  addr &&& 1 = 0 → val.getLsbD 4 = true → chipAt addr = .master →
    s.intr = true ∨ picGetIrq .slave s.slave = none

/-- Special mask mode is turned on when no request waits for it alone. -/
def SpecialMaskSafe (addr val : BitVec 32) (s : PicState2) : Prop :=
  addr &&& 1 = 0 → val.getLsbD 4 = false → val.getLsbD 3 = true → val.getLsbD 6 = true →
    val.getLsbD 5 = true → s.intr = true ∨
      ¬ Waiting (s.setPic { s.pic (chipAt addr) with specialMask := true } (chipAt addr))

/-- The same for the special fully nested mode of ICW4. -/
def NestedSafe (addr val : BitVec 32) (s : PicState2) : Prop :=
  addr &&& 1 ≠ 0 → (s.pic (chipAt addr)).initState = 3 → val.getLsbD 4 = true →
    s.intr = true ∨
      ¬ Waiting (s.setPic { s.pic (chipAt addr) with specialFullyNestedMode := true }
        (chipAt addr))

/-- No device drives the cascade line, and no write lets a request through unnoticed. -/
def Op.Safe : Op → PicState2 → Prop
  | .setIrq irq level, _ => irq = 2 → level = false
  | .write addr val, s => IcwSafe addr val s ∧ SpecialMaskSafe addr val s ∧ NestedSafe addr val s
  | .read _, _ => True
  | .acknowledge, _ => True

/-- The states of the runs whose steps are all safe. -/
inductive Reached : PicState2 → Prop where
  | init : Reached i8259Init
  | step {s s' : PicState2} (op : Op) : Reached s → op.Safe s → op.step s = some s' → Reached s'

section Steps

variable {s s' : PicState2} {addr val : BitVec 32}

theorem writeIcw_lastIrr (val : BitVec 32) (p : PicState) :
    (writeIcw val p).lastIrr = p.lastIrr := by
  unfold writeIcw
  split <;> rfl

theorem writeMask_sound (h : Sound s) {chip : Chip} :
    Sound (picUpdateIrq (s.setPic { s.pic chip with imr := val.setWidth 8 } chip)) := by
  apply h.update (p := { s.pic chip with imr := val.setWidth 8 })
  rfl

theorem write_low (h : Sound s) (hstep : i8259IoportWrite addr val s = some s') :
    s'.master.lastIrr.getLsbD 2 = false := by
  unfold i8259IoportWrite picIoportWrite at hstep
  simp only [] at hstep
  split at hstep
  · split at hstep
    · split at hstep
      · cases hstep
      · cases hstep
        cases chipAt addr with
        | master => exact BitVec.getLsbD_zero
        | slave => exact h.low
    · split at hstep
      · cases hstep
        exact setPic_low h.low rfl
      · cases hstep
        exact (writeOcw2_sound h).low
  · split at hstep
    · cases hstep
      exact (writeMask_sound h).low
    · cases hstep
      exact setPic_low h.low (writeIcw_lastIrr _ _)

/-- A write loses a request exactly when one of the three conditions fails. -/
theorem write_noneLost (h : Sound s) (hstep : i8259IoportWrite addr val s = some s') :
    NoneLost s' ↔ (Op.write addr val).Safe s := by
  change _ ↔ IcwSafe addr val s ∧ SpecialMaskSafe addr val s ∧ NestedSafe addr val s
  unfold IcwSafe SpecialMaskSafe NestedSafe
  unfold i8259IoportWrite picIoportWrite at hstep
  simp only [] at hstep
  split at hstep
  · rename_i haddr
    split at hstep
    · rename_i h4
      split at hstep
      · cases hstep
      · cases hstep
        rw [writeIcw1_noneLost h]
        constructor
        · intro hslave
          exact ⟨fun _ _ => hslave, fun _ hf => absurd (hf.symm.trans h4) Bool.false_ne_true,
            fun hodd => absurd haddr hodd⟩
        · intro hsafe
          exact hsafe.1 haddr h4
    · rename_i h4
      have h4' : val.getLsbD 4 = false := Bool.eq_false_of_not_eq_true h4
      split at hstep
      · rename_i h3
        cases hstep
        rw [writeOcw3_noneLost h]
        constructor
        · intro hmask
          exact ⟨fun _ ht => absurd ht h4, fun _ _ _ => hmask, fun hodd => absurd haddr hodd⟩
        · intro hsafe
          exact hsafe.2.1 haddr h4' h3
      · rename_i h3
        cases hstep
        exact iff_of_true (writeOcw2_sound h).noneLost
          ⟨fun _ ht => absurd ht h4, fun _ _ ht => absurd ht h3, fun hodd => absurd haddr hodd⟩
  · rename_i haddr
    split at hstep
    · rename_i hinit
      cases hstep
      refine iff_of_true (writeMask_sound h).noneLost
        ⟨fun heven => absurd heven haddr, fun heven => absurd heven haddr, fun _ h3 => ?_⟩
      omega
    · cases hstep
      rw [writeIcw_noneLost h]
      constructor
      · intro hnested
        exact ⟨fun heven => absurd heven haddr, fun heven => absurd heven haddr, fun _ => hnested⟩
      · intro hsafe
        exact hsafe.2.2 haddr

theorem step_sound (h : Sound s) {op : Op} (hsafe : op.Safe s) (hstep : op.step s = some s') :
    Sound s' := by
  cases op with
  | setIrq irq level =>
    cases hstep
    exact i8259SetIrq_sound h hsafe
  | write addr val => exact ⟨write_low h hstep, (write_noneLost h hstep).mpr hsafe⟩
  | read addr =>
    cases hstep
    exact picIoportRead_sound h
  | acknowledge =>
    cases hstep
    exact acknowledge_sound h.low

theorem reached_sound (h : Reached s) : Sound s := by
  induction h with
  | init => exact ⟨by decide, fun h => absurd h (by decide)⟩
  | step op _ hsafe hstep ih => exact step_sound ih hsafe hstep

end Steps

/-- Along a safe run whatever could be delivered has been announced, and an unsafe write loses
something at once. -/
theorem none_lost (s : PicState2) (h : Reached s) :
    (Waiting s → s.intr = true) ∧
      ∀ addr val s', i8259IoportWrite addr val s = some s' →
        ((Waiting s' → s'.intr = true) ↔ (Op.write addr val).Safe s) :=
  ⟨(reached_sound h).noneLost, fun _ _ _ hstep => write_noneLost (reached_sound h) hstep⟩

theorem none_lost_keyboard : (i8259SetIrq 1 true i8259Init).intr = true :=
  (none_lost _ (.step (.setIrq 1 true) .init (by simp [Op.Safe]) rfl)).1 (by decide)

/-- The timer is in service and masked, the keyboard waits behind it, then special mask mode is
turned on. -/
def maskedTimer : List Op :=
  [.setIrq 0 true, .acknowledge, .setIrq 1 true, .write 0x21 0x01, .write 0x20 0x68]

theorem special_mask_loses :
    ∃ s, maskedTimer.foldlM (fun s op => op.step s) i8259Init = some s ∧
      s.master.initState = 0 ∧ s.slave.initState = 0 ∧
      picGetIrq .master s.master = some 1 ∧ s.intr = false := by
  refine ⟨_, rfl, ?_⟩
  decide

end Winspire.Pic
