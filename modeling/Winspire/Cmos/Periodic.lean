import Winspire.Cmos.Rtc

/-!
# Periodic interrupts

Polls and register writes at instants of a clock that is read in 32 bits. As long as the clock
does not wrap while interrupts are enabled, a poll raises the IRQ when a boundary of the selected
period has been crossed since the one before.
-/

namespace Winspire.Cmos

open Boundaries

set_option autoImplicit false

/-- The RTC time at an instant, as the source scales it. -/
def rtcTime (t : Nat) : Nat := t % 2 ^ 32 * 32768 / 1000000

/-- The period of a rate code, in RTC ticks. -/
def period (code : Nat) : Nat := 2 ^ periodBits code

inductive Op where
  | write (index : Bool) (val : Byte)
  | poll
  deriving DecidableEq, Repr

def CMOS.step (t : Nat) (s : CMOS) : Op → List IrqCall × CMOS
  | .write index val => ([], s.ioportWrite (reading 32 t) index val)
  | .poll => s.updateIrq (reading 32 t)

/-- Whether the IRQ comes periodically, and at which rate. -/
def CMOS.selected (s : CMOS) : Bool × Nat := (s.enabled, s.periodCode)

/-- The instant of the last poll, or of a change of the selection since then. -/
def CMOS.markAfter (t mark : Nat) (s : CMOS) : Op → Nat
  | .write index val =>
    if (s.ioportWrite (reading 32 t) index val).selected = s.selected then mark else t
  | .poll => t

/-- A boundary of the selected period lies behind `mark`. -/
def CMOS.Boundary (s : CMOS) (mark t : Nat) : Prop :=
  Crossed (period s.periodCode) (rtcTime mark) (rtcTime t)

instance (s : CMOS) (mark t : Nat) : Decidable (s.Boundary mark t) :=
  inferInstanceAs (Decidable (Crossed _ _ _))

def CMOS.Retimes (s : CMOS) (index : Bool) : Prop :=
  index = false ∧ (s.index = rtcRegA ∨ s.index = rtcRegB)

/-- While interrupts are enabled, the clock does not wrap, the rate code is not zero when the chip
is polled, and no write to the registers comes between a boundary and its poll. -/
def CMOS.Regular (s : CMOS) (mark t : Nat) : Op → Prop
  | .write index val => s.enabled = true → s.periodCode ≠ 0 → s.Retimes index →
      (s.ioportWrite (reading 32 t) index val).selected = s.selected →
      t / 2 ^ 32 = mark / 2 ^ 32 ∧ ¬ s.Boundary mark t
  | .poll => s.enabled = true → s.periodCode ≠ 0 ∧ t / 2 ^ 32 = mark / 2 ^ 32

/-- A run of operations at instants that never go back. -/
inductive Run : CMOS → Nat → CMOS → Nat → Prop where
  | start (s : CMOS) (mark : Nat) : Run s mark s mark
  | step {s u : CMOS} {mark m t : Nat} (op : Op) (h : Run s mark u m) (ht : m ≤ t)
      (hr : u.Regular m t op) : Run s mark (u.step t op).2 (u.markAfter t m op)

section Time

variable {t mark code : Nat}

theorem getTimer_toNat (t : Nat) : (getTimer (reading 32 t)).toNat = rtcTime t := by
  have ht := Nat.mod_lt t (Nat.two_pow_pos 32)
  have hread : (reading 32 t).toNat = t % 2 ^ 32 := by
    rw [reading, BitVec.toNat_ofNat]
  unfold getTimer rtcTime
  rw [BitVec.toNat_setWidth, BitVec.toNat_udiv, BitVec.toNat_mul, BitVec.toNat_setWidth, hread]
  have hfreq : (32768 : BitVec 64).toNat = 32768 := rfl
  have hmillion : (1000000 : BitVec 64).toNat = 1000000 := rfl
  rw [hfreq, hmillion, Nat.mod_eq_of_lt (b := 2 ^ 64) (by omega),
    Nat.mod_eq_of_lt (b := 2 ^ 64) (by omega), Nat.mod_eq_of_lt (b := 2 ^ 32) (by omega)]

theorem rtcTime_lt (t : Nat) : rtcTime t < 140737489 := by
  have ht := Nat.mod_lt t (Nat.two_pow_pos 32)
  unfold rtcTime
  omega

theorem rtcTime_mono (h : mark ≤ t) (hturn : t / 2 ^ 32 = mark / 2 ^ 32) :
    rtcTime mark ≤ rtcTime t := by
  have hm := Nat.div_add_mod mark (2 ^ 32)
  have ht := Nat.div_add_mod t (2 ^ 32)
  have hmod : mark % 2 ^ 32 ≤ t % 2 ^ 32 := by omega
  have hmul : mark % 2 ^ 32 * 32768 ≤ t % 2 ^ 32 * 32768 := Nat.mul_le_mul_right _ hmod
  exact Nat.div_le_div_right hmul

theorem periodBits_lt (hcode : code < 16) : periodBits code < 15 := by
  unfold periodBits
  split
  · omega
  · omega

theorem and_not_low (x : Ticks) {j : Nat} (hj : j < 32) :
    (x &&& ~~~((1 : Ticks) <<< j - 1)).toNat = x.toNat / 2 ^ j * 2 ^ j := by
  have hlt : 2 ^ j < 2 ^ 32 := Nat.pow_lt_pow_right (by decide) hj
  have hpos := Nat.two_pow_pos j
  have hone : (1 : Ticks).toNat = 1 := rfl
  have hshl : ((1 : Ticks) <<< j).toNat = 2 ^ j := by
    rw [BitVec.toNat_shiftLeft, hone, Nat.shiftLeft_eq, Nat.one_mul, Nat.mod_eq_of_lt hlt]
  have hlow : ((1 : Ticks) <<< j - 1).toNat = 2 ^ j - 1 := by
    rw [BitVec.toNat_sub_of_le (by rw [BitVec.le_def, hshl, hone]; exact hpos), hshl, hone]
  have hshift : x &&& ~~~((1 : Ticks) <<< j - 1) = (x >>> j) <<< j := by
    apply BitVec.eq_of_getLsbD_eq
    intro i hi
    have hbit : ((1 : Ticks) <<< j - 1).getLsbD i = decide (i < j) := by
      rw [BitVec.getLsbD, hlow, Nat.testBit_two_pow_sub_one]
    rw [BitVec.getLsbD_and, BitVec.getLsbD_not, hbit, BitVec.getLsbD_shiftLeft,
      BitVec.getLsbD_ushiftRight]
    by_cases hij : i < j
    · simp [hij]
    · have hsum : j + (i - j) = i := by omega
      simp [hij, hi, hsum]
  have hx := x.isLt
  have hle : x.toNat / 2 ^ j * 2 ^ j ≤ x.toNat := Nat.div_mul_le_self _ _
  rw [hshift, BitVec.toNat_shiftLeft, BitVec.toNat_ushiftRight, Nat.shiftLeft_eq,
    Nat.shiftRight_eq_div_pow, Nat.mod_eq_of_lt (by omega)]

theorem nextTimeout_toNat (t : Nat) {j : Nat} (hj : j < 15) :
    (nextTimeout (getTimer (reading 32 t)) ((1 : Ticks) <<< j)).toNat =
      (rtcTime t / 2 ^ j + 1) * 2 ^ j := by
  have ht := rtcTime_lt t
  have hlt : 2 ^ j < 2 ^ 15 := Nat.pow_lt_pow_right (by decide) hj
  have hpos := Nat.two_pow_pos j
  have hone : (1 : Ticks).toNat = 1 := rfl
  have hshl : ((1 : Ticks) <<< j).toNat = 2 ^ j := by
    rw [BitVec.toNat_shiftLeft, hone, Nat.shiftLeft_eq, Nat.one_mul, Nat.mod_eq_of_lt (by omega)]
  have hsum : (getTimer (reading 32 t) + (1 : Ticks) <<< j).toNat = rtcTime t + 2 ^ j := by
    rw [BitVec.toNat_add, getTimer_toNat, hshl, Nat.mod_eq_of_lt (by omega)]
  unfold nextTimeout
  rw [and_not_low _ (by omega), hsum, Nat.add_div_right _ hpos]

end Time

section Invariant

variable {s : CMOS} {mark t : Nat}

/-- The timeout is the next boundary behind the mark. -/
structure Armed (s : CMOS) (mark : Nat) : Prop where
  length : s.irqPeriod = (1 : Ticks) <<< periodBits s.periodCode
  timeout : s.irqTimeout.toNat = (rtcTime mark / period s.periodCode + 1) * period s.periodCode

def Tuned (s : CMOS) (mark : Nat) : Prop :=
  s.enabled = true → s.periodCode ≠ 0 → Armed s mark

theorem periodCode_lt (s : CMOS) : s.periodCode < 16 := by
  unfold CMOS.periodCode
  rw [BitVec.toNat_and]
  exact Nat.and_lt_two_pow (n := 4) _ (by decide)

theorem armed_updateTimer (h : s.enabled = true ∧ s.periodCode ≠ 0) (t : Nat) :
    Armed (s.updateTimer (reading 32 t)) t := by
  have hbits := periodBits_lt (periodCode_lt s)
  have hsame : (s.updateTimer (reading 32 t)).periodCode = s.periodCode := by
    unfold CMOS.updateTimer
    rw [if_pos h]
    rfl
  constructor
  · rw [hsame]
    unfold CMOS.updateTimer
    rw [if_pos h]
  · rw [hsame]
    unfold CMOS.updateTimer
    rw [if_pos h]
    exact nextTimeout_toNat t hbits

theorem Armed.due (h : Armed s mark) (t : Nat) :
    0 ≤ (getTimer (reading 32 t) - s.irqTimeout).toInt ↔ s.Boundary mark t := by
  have hbits := periodBits_lt (periodCode_lt s)
  have hpos : 0 < period s.periodCode := Nat.two_pow_pos _
  have hlt : period s.periodCode < 2 ^ 15 := Nat.pow_lt_pow_right (by decide) hbits
  have ht := rtcTime_lt t
  have hm := rtcTime_lt mark
  have hle : rtcTime mark / period s.periodCode * period s.periodCode ≤ rtcTime mark :=
    Nat.div_mul_le_self _ _
  have htimeout := h.timeout
  rw [Nat.add_mul, Nat.one_mul] at htimeout
  have hdiv : s.irqTimeout.toNat ≤ rtcTime t ↔ s.Boundary mark t := by
    unfold CMOS.Boundary
    rw [crossed_iff_div, h.timeout, ← Nat.le_div_iff_mul_le hpos]
    exact Nat.succ_le_iff
  rw [← hdiv, ← getTimer_toNat t]
  have hnow := getTimer_toNat t
  rw [BitVec.toInt_eq_toNat_cond, BitVec.toNat_sub]
  split
  · omega
  · omega

theorem Armed.congr {u : CMOS} (h : Armed s mark) (hp : u.irqPeriod = s.irqPeriod)
    (ht : u.irqTimeout = s.irqTimeout) (hc : u.periodCode = s.periodCode) : Armed u mark where
  length := by rw [hp, hc, h.length]
  timeout := by rw [ht, hc, h.timeout]

/-- Without a boundary between them, two instants have the same next boundary. -/
theorem same_boundary (hle : mark ≤ t) (hturn : t / 2 ^ 32 = mark / 2 ^ 32)
    (hno : ¬ s.Boundary mark t) :
    rtcTime t / period s.periodCode = rtcTime mark / period s.periodCode := by
  unfold CMOS.Boundary at hno
  rw [crossed_iff_div] at hno
  have hmono := rtcTime_mono hle hturn
  have hdiv : rtcTime mark / period s.periodCode ≤ rtcTime t / period s.periodCode :=
    Nat.div_le_div_right hmono
  omega

theorem updateTimer_selected (s : CMOS) (t : Nat) :
    (s.updateTimer (reading 32 t)).selected = s.selected := by
  unfold CMOS.updateTimer
  split
  · rfl
  · rfl

theorem tuned_updateTimer {u : CMOS} (hle : mark ≤ t)
    (hr : s.enabled = true → s.periodCode ≠ 0 → u.selected = s.selected →
      t / 2 ^ 32 = mark / 2 ^ 32 ∧ ¬ s.Boundary mark t) :
    Tuned (u.updateTimer (reading 32 t))
      (if (u.updateTimer (reading 32 t)).selected = s.selected then mark else t) := by
  have hsel := updateTimer_selected u t
  have henabled : (u.updateTimer (reading 32 t)).enabled = u.enabled := congrArg Prod.fst hsel
  have hcode : (u.updateTimer (reading 32 t)).periodCode = u.periodCode := congrArg Prod.snd hsel
  intro he hc
  rw [henabled] at he
  rw [hcode] at hc
  have harmed := armed_updateTimer ⟨he, hc⟩ t
  rw [hsel]
  by_cases hsame : u.selected = s.selected
  · rw [if_pos hsame]
    have hse : u.enabled = s.enabled := congrArg Prod.fst hsame
    have hsc : u.periodCode = s.periodCode := congrArg Prod.snd hsame
    obtain ⟨hturn, hno⟩ := hr (by rw [← hse]; exact he) (by rw [← hsc]; exact hc) hsame
    have hdiv := same_boundary hle hturn hno
    refine ⟨harmed.length, ?_⟩
    rw [harmed.timeout, hcode, hsc, hdiv]
  · rw [if_neg hsame]
    exact harmed

theorem selected_setData {i : Fin 128} {b : Byte} (hA : i ≠ rtcRegA) (hB : i ≠ rtcRegB) :
    (s.setData i b).selected = s.selected := by
  unfold CMOS.selected CMOS.enabled CMOS.periodCode CMOS.setData
  simp only [Function.update_of_ne hA.symm, Function.update_of_ne hB.symm]

theorem Tuned.congr {u : CMOS} (h : Tuned s mark) (hp : u.irqPeriod = s.irqPeriod)
    (ht : u.irqTimeout = s.irqTimeout) (hsel : u.selected = s.selected) : Tuned u mark := by
  have he : u.enabled = s.enabled := congrArg Prod.fst hsel
  have hc : u.periodCode = s.periodCode := congrArg Prod.snd hsel
  intro hen hcode
  rw [he] at hen
  rw [hc] at hcode
  exact (h hen hcode).congr hp ht hc

theorem Tuned.poll (h : Tuned s mark) (hle : mark ≤ t) (hr : s.Regular mark t .poll) :
    (s.updateIrq (reading 32 t)).1 =
        (if s.enabled = true ∧ s.periodCode ≠ 0 ∧ s.Boundary mark t then
          [⟨s.irq, true⟩, ⟨s.irq, false⟩] else []) ∧
      Tuned (s.updateIrq (reading 32 t)).2 t := by
  unfold CMOS.updateIrq
  by_cases he : s.enabled = true
  · obtain ⟨hcode, hturn⟩ := hr he
    have harmed := h he hcode
    have hdue := harmed.due t
    rw [if_pos he]
    by_cases hb : s.Boundary mark t
    · simp only [if_pos (hdue.mpr hb)]
      rw [if_pos ⟨he, hcode, hb⟩]
      refine ⟨rfl, fun _ _ => ?_⟩
      have hsel : (s.setData rtcRegC (s.data rtcRegC ||| 0xc0)).selected = s.selected :=
        selected_setData (by decide) (by decide)
      have hc : (s.setData rtcRegC (s.data rtcRegC ||| 0xc0)).periodCode = s.periodCode :=
        congrArg Prod.snd hsel
      refine ⟨harmed.length.trans (by rw [← hc]; rfl), ?_⟩
      have hnext := nextTimeout_toNat t (periodBits_lt (periodCode_lt s))
      rw [← harmed.length] at hnext
      change (nextTimeout (getTimer (reading 32 t)) s.irqPeriod).toNat =
        (rtcTime t / period (s.setData rtcRegC (s.data rtcRegC ||| 0xc0)).periodCode + 1) *
          period (s.setData rtcRegC (s.data rtcRegC ||| 0xc0)).periodCode
      rw [hc, hnext]
      rfl
    · simp only [if_neg (mt hdue.mp hb)]
      rw [if_neg fun hand => hb hand.2.2]
      refine ⟨rfl, fun _ _ => ⟨harmed.length, ?_⟩⟩
      rw [harmed.timeout, same_boundary hle hturn hb]
  · rw [if_neg he, if_neg fun hand => he hand.1]
    exact ⟨rfl, fun hen => absurd hen he⟩

theorem Tuned.write (h : Tuned s mark) (hle : mark ≤ t) {index : Bool} {val : Byte}
    (hr : s.Regular mark t (.write index val)) :
    Tuned (s.ioportWrite (reading 32 t) index val) (s.markAfter t mark (.write index val)) := by
  unfold CMOS.markAfter
  unfold CMOS.Regular at hr
  unfold CMOS.ioportWrite at hr ⊢
  cases index with
  | true =>
    have hsel : ({ s with index := Fin.ofNat 128 (val &&& 0x7f).toNat } : CMOS).selected =
        s.selected := rfl
    simp only [if_true]
    rw [if_pos hsel]
    exact h.congr rfl rfl rfl
  | false =>
    by_cases hA : s.index = rtcRegA
    · simp only [Bool.false_eq_true, if_false, if_pos hA] at hr ⊢
      refine tuned_updateTimer hle fun he hc hsel => hr he hc ⟨rfl, Or.inl hA⟩ ?_
      rw [updateTimer_selected]
      exact hsel
    · by_cases hB : s.index = rtcRegB
      · simp only [Bool.false_eq_true, if_false, if_neg hA, if_pos hB] at hr ⊢
        refine tuned_updateTimer hle fun he hc hsel => hr he hc ⟨rfl, Or.inr hB⟩ ?_
        rw [updateTimer_selected]
        exact hsel
      · simp only [Bool.false_eq_true, if_false, if_neg hA, if_neg hB]
        have hsel := @selected_setData s s.index val hA hB
        rw [if_pos hsel]
        exact h.congr rfl rfl hsel

theorem Tuned.step (h : Tuned s mark) (hle : mark ≤ t) {op : Op} (hr : s.Regular mark t op) :
    Tuned (s.step t op).2 (s.markAfter t mark op) := by
  cases op with
  | poll => exact (h.poll hle hr).2
  | write index val => exact h.write hle hr

end Invariant

/-- A chip that starts with periodic interrupts off, as `cmos_init` leaves it. -/
theorem Run.tuned {s u : CMOS} {mark m : Nat} (h : Run s mark u m) (hs : s.enabled = false) :
    Tuned u m := by
  induction h with
  | start =>
    intro he
    rw [hs] at he
    cases he
  | step op _ ht hr ih => exact ih.step ht hr

/-- In a regular run a poll raises the IRQ exactly when interrupts are enabled at a rate and a
boundary of its period has been crossed since the last poll, or since the rate was selected. -/
theorem polls_keep_rate {s u : CMOS} {mark m t : Nat} (h : Run s mark u m)
    (hs : s.enabled = false) (ht : m ≤ t) (hr : u.Regular m t .poll) :
    (u.step t .poll).1 = if u.enabled = true ∧ u.periodCode ≠ 0 ∧ u.Boundary m t then
      [⟨u.irq, true⟩, ⟨u.irq, false⟩] else [] :=
  ((h.tuned hs).poll ht hr).1

theorem enabled_setData {s : CMOS} {i : Fin 128} {b : Byte} (hi : i ≠ rtcRegB) :
    (s.setData i b).enabled = s.enabled := by
  unfold CMOS.enabled CMOS.setData
  simp only [Function.update_of_ne hi.symm]

theorem enabled_init (memSize irq : Nat) (tm : HostTime) :
    (CMOS.init memSize irq tm).enabled = false := by
  have hmem : ∀ s : CMOS, (s.setMemSize memSize).enabled = s.enabled := by
    intro s
    unfold CMOS.setMemSize
    split
    · split
      · rw [enabled_setData (by decide), enabled_setData (by decide)]
      · rw [enabled_setData (by decide), enabled_setData (by decide)]
    · rfl
  unfold CMOS.init
  simp only [hmem]
  rw [enabled_setData (by decide), enabled_setData (by decide)]
  unfold CMOS.enabled CMOS.setData
  simp only [Function.update_self]
  decide

/-- A chip with interrupts enabled at an instant. -/
def enabledAt (t : Nat) : CMOS :=
  (((CMOS.init 0 8 ⟨0, 0, 0, 0, 1, 0, 100⟩).ioportWrite (reading 32 t) true 11).ioportWrite
    (reading 32 t) false 0x42)

/-- The first second. -/
theorem polls_keep_rate_second :
    ((enabledAt 0).step 1000000 .poll).1 = [⟨8, true⟩, ⟨8, false⟩] := by
  have hoff : (CMOS.init 0 8 ⟨0, 0, 0, 0, 1, 0, 100⟩).enabled = false := enabled_init _ _ _
  have hindex := Run.step (.write true 11) (.start (CMOS.init 0 8 ⟨0, 0, 0, 0, 1, 0, 100⟩) 0)
    (Nat.le_refl 0) (fun he => absurd (hoff.symm.trans he) (by decide))
  have hrun : Run (CMOS.init 0 8 ⟨0, 0, 0, 0, 1, 0, 100⟩) 0 (enabledAt 0) 0 :=
    .step (.write false 0x42) hindex (Nat.le_refl 0)
      (fun he => absurd (hoff.symm.trans he) (by decide))
  have hraise := polls_keep_rate hrun hoff (Nat.zero_le 1000000)
    (fun _ => ⟨by decide, by decide⟩)
  rw [hraise]
  exact if_pos ⟨by decide, by decide, by decide⟩

/-- Polled a second after the clock has wrapped. -/
def afterWrap : CMOS := ((enabledAt 4294767296).step 4295967296 .poll).2

def withoutRate : CMOS := ((enabledAt 0).ioportWrite 0 true 10).ioportWrite 0 false 0x20

/-- Enabled just before the clock wraps, the chip misses every boundary of the next second; and it
still raises the IRQ when the rate code has become zero. -/
theorem not_polls_keep_rate :
    (afterWrap.enabled = true ∧ afterWrap.periodCode ≠ 0 ∧
      afterWrap.Boundary 4295967296 4296967296 ∧ (afterWrap.step 4296967296 .poll).1 = []) ∧
    withoutRate.periodCode = 0 ∧ (withoutRate.step 1000000 .poll).1 ≠ [] := by
  decide +kernel

end Winspire.Cmos
