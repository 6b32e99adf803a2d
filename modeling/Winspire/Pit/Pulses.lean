import Winspire.Lib.Boundaries
import Winspire.Pit.Channel

/-!
# Pulses of channel 0

The clock is a reading, in 32 bits, of an instant that never goes back. Against the instants
themselves the channel is a short automaton: the origin of its ticks and the last pulse.
-/

namespace Winspire.Pit

open Boundaries

set_option autoImplicit false

/-- The ticks in `e` microseconds. -/
def ticksIn (e : Nat) : Nat := e * 1193182 / 1000000

/-- The two readings of the clock in a call of `i8254_update_irq`. -/
structure Poll where
  first : Nat
  again : Nat

/-- Polls one after the other, less than 2^30 microseconds apart; the clock last stood at `low`. -/
def Spaced : Nat → Nat → List Poll → Prop
  | _, _, [] => True
  | last, low, p :: ps =>
    low ≤ p.first ∧ p.first - last < 2 ^ 30 ∧ p.first ≤ p.again ∧ Spaced p.first p.again ps

/-- `origin` is the load, or the last reload; `prev` the last pulse, or the origin. -/
structure Epoch where
  origin : Nat
  prev : Nat

/-- A multiple of the count has been reached since the last pulse. -/
def Epoch.Due (n t : Nat) (e : Epoch) : Prop :=
  Crossed n (ticksIn (e.prev - e.origin)) (ticksIn (t - e.origin))

instance (n t : Nat) (e : Epoch) : Decidable (e.Due n t) := inferInstanceAs (Decidable (Crossed _ _ _))

def Epoch.poll (n : Nat) (p : Poll) (e : Epoch) : Epoch :=
  if e.Due n p.first then
    if 2 ^ 31 < p.first - e.origin then ⟨p.again, p.again⟩ else ⟨e.origin, p.first⟩
  else e

def PITState.poll (p : Poll) (pit : PITState) : List IrqCall × PITState :=
  pit.updateIrq (reading 32 p.first) (reading 32 p.again)

def PITState.after (ps : List Poll) (pit : PITState) : PITState :=
  ps.foldl (fun pit p => (pit.poll p).2) pit

def Epoch.after (n : Nat) (ps : List Poll) (e : Epoch) : Epoch :=
  ps.foldl (fun e p => e.poll n p) e

/-- The instant of the last poll, or of the load. -/
def lastPoll (t : Nat) (ps : List Poll) : Nat := ps.foldl (fun _ p => p.first) t

/-- A count of `n` has just been loaded. -/
structure Loaded (n t irq : Nat) (s : PITChannelState) : Prop where
  count : s.count.toNat = n
  load : s.countLoadTime = reading 32 t
  fresh : s.lastIrqCount = 0
  irq : s.irq = some irq

theorem loaded_loadCount {n irq : Nat} {val : Ticks} (s : PITChannelState) (hv : val ≠ 0)
    (hn : val.toNat = n) (hirq : s.irq = some irq) (t : Nat) :
    Loaded n t irq (s.loadCount (reading 32 t) val) where
  count := by
    unfold PITChannelState.loadCount
    rw [if_neg hv]
    exact hn
  load := rfl
  fresh := rfl
  irq := hirq

theorem Loaded.writeState {n t irq : Nat} {s : PITChannelState} (h : Loaded n t irq s) (b : Byte) :
    Loaded n t irq { s with writeState := b } := ⟨h.count, h.load, h.fresh, h.irq⟩

theorem loaded_port {irq : Nat} {val : Ticks} (s : PITChannelState) (hv : val.toNat < 65536)
    (hirq : s.irq = some irq) (t : Nat) :
    ∃ n, 1 ≤ n ∧ n ≤ 65536 ∧ Loaded n t irq (s.loadCount (reading 32 t) val) := by
  by_cases hz : val = 0
  · refine ⟨65536, by decide, Nat.le_refl _, ⟨?_, rfl, rfl, hirq⟩⟩
    unfold PITChannelState.loadCount
    rw [if_pos hz]
    rfl
  · have hpos : val.toNat ≠ 0 := fun h0 => hz (BitVec.eq_of_toNat_eq h0)
    exact ⟨val.toNat, by omega, by omega, loaded_loadCount s hz rfl hirq t⟩

/-- A byte for the data port is kept for the next one, or loads a count. -/
theorem data_loads {irq : Nat} (s : PITChannelState) (hirq : s.irq = some irq) (t : Nat)
    (val : Byte) :
    s.data (reading 32 t) val = { s with writeLatch := val, writeState := rwStateWord1 } ∨
      ∃ n, 1 ≤ n ∧ n ≤ 65536 ∧ Loaded n t irq (s.data (reading 32 t) val) := by
  have hval := val.isLt
  have hwide : (val.setWidth 32).toNat = val.toNat := by
    rw [BitVec.toNat_setWidth, Nat.mod_eq_of_lt (by omega)]
  have hhigh : (val.setWidth 32 <<< 8).toNat < 65536 := by
    rw [BitVec.toNat_shiftLeft, hwide, Nat.shiftLeft_eq]
    omega
  unfold PITChannelState.data
  split
  · exact Or.inr (loaded_port s hhigh hirq t)
  · split
    · exact Or.inl rfl
    · split
      · have hlatch := s.writeLatch.isLt
        have hsum : (s.writeLatch.setWidth 32 ||| (val.setWidth 32 <<< 8)).toNat < 65536 := by
          rw [BitVec.toNat_or, BitVec.toNat_setWidth]
          apply Nat.or_lt_two_pow (n := 16)
          · omega
          · exact hhigh
        obtain ⟨n, hpos, hle, hl⟩ := loaded_port s hsum hirq t
        exact Or.inr ⟨n, hpos, hle, hl.writeState _⟩
      · exact Or.inr (loaded_port s (by omega) hirq t)

section Channel

variable {n t irq : Nat} {s : PITChannelState} {e : Epoch}

theorem ticksIn_mono {a b : Nat} (h : a ≤ b) : ticksIn a ≤ ticksIn b := by
  unfold ticksIn
  omega

/-- The channel as the automaton has it, after a poll at `last`. -/
structure Follows (n irq last low : Nat) (e : Epoch) (s : PITChannelState) : Prop where
  count : s.count.toNat = n
  load : s.countLoadTime = reading 32 e.origin
  done : s.lastIrqCount.toNat = ticksIn (e.prev - e.origin) / n * n
  irq : s.irq = some irq
  origin : e.origin ≤ e.prev
  prev : e.prev ≤ low
  early : e.prev - e.origin ≤ 2 ^ 31
  quiet : ¬ e.Due n last

theorem Loaded.follows (h : Loaded n t irq s) {last : Nat} (hlast : last ≤ t) :
    Follows n irq last t ⟨t, t⟩ s where
  count := h.count
  load := h.load
  done := by
    rw [h.fresh]
    simp [ticksIn]
  irq := h.irq
  origin := Nat.le_refl t
  prev := Nat.le_refl t
  early := by
    rw [Nat.sub_self]
    exact Nat.zero_le _
  quiet hdue := by
    have hzero : last - t = t - t := by omega
    unfold Epoch.Due at hdue
    rw [hzero] at hdue
    exact not_crossed_self hdue

theorem ticks_exact {o : Nat} (hload : s.countLoadTime = reading 32 o) (hot : o ≤ t)
    (hfit : ticksIn (t - o) < 2 ^ 32) : (s.ticks (reading 32 t)).toNat = ticksIn (t - o) := by
  have hlt : t - o < 2 ^ 32 := by
    unfold ticksIn at hfit
    omega
  have hsub := reading_sub hot hlt
  unfold PITChannelState.ticks
  rw [hload, BitVec.toNat_setWidth, BitVec.toNat_udiv, BitVec.toNat_mul, BitVec.toNat_setWidth, hsub]
  have hfreq : pitFreq.toNat = 1193182 := rfl
  have hmillion : (1000000 : BitVec 64).toNat = 1000000 := rfl
  rw [hfreq, hmillion, Nat.mod_eq_of_lt (b := 2 ^ 64) (by omega),
    Nat.mod_eq_of_lt (b := 2 ^ 64) (by omega)]
  unfold ticksIn at hfit ⊢
  exact Nat.mod_eq_of_lt hfit

/-- No overflow: the origin is never much more than 2^31 microseconds behind the last poll. -/
theorem Follows.fits {last low : Nat} (h : Follows n irq last low e s) (hn : 0 < n)
    (hle : n ≤ 65536) (hgap : t - last < 2 ^ 30) : ticksIn (t - e.origin) < 2 ^ 32 := by
  have hearly := h.early
  have hquiet : ¬ ticksIn (e.prev - e.origin) + n ≤ ticksIn (last - e.origin) :=
    fun hp => h.quiet (crossed_of_period hn hp)
  have hprev : ticksIn (e.prev - e.origin) ≤ ticksIn (2 ^ 31) := ticksIn_mono hearly
  unfold ticksIn at *
  omega

theorem due_toNat (d : Ticks) (hs : s.count.toNat = n) :
    (d - d % s.count).toNat = d.toNat / n * n := by
  have hmod := Nat.div_add_mod d.toNat n
  have hlow : d.toNat % n ≤ d.toNat := Nat.mod_le _ _
  have hcomm : n * (d.toNat / n) = d.toNat / n * n := Nat.mul_comm _ _
  rw [BitVec.toNat_sub_of_le (by rw [BitVec.le_def, BitVec.toNat_umod, hs]; exact hlow),
    BitVec.toNat_umod, hs]
  omega

/-- What is pending is a count or more exactly when a multiple was crossed. -/
theorem pending_lt {d last : Ticks} {a : Nat} (hs : s.count.toNat = n) (hn : 0 < n)
    (hd : a ≤ d.toNat) (hlast : last.toNat = a / n * n) :
    d - d % s.count - last < s.count ↔ ¬ Crossed n a d.toNat := by
  have hle : a / n ≤ d.toNat / n := Nat.div_le_div_right hd
  have hmul : a / n * n ≤ d.toNat / n * n := Nat.mul_le_mul_right n hle
  have hdue := due_toNat d hs
  have hpending : (d - d % s.count - last).toNat = (d.toNat / n - a / n) * n := by
    rw [BitVec.toNat_sub_of_le (by rw [BitVec.le_def, hdue, hlast]; exact hmul), hdue, hlast,
      Nat.sub_mul]
  rw [BitVec.lt_def, hpending, hs, crossed_iff_div]
  constructor
  · intro hlt hdiv
    have hone : 1 ≤ d.toNat / n - a / n := by omega
    have hn' : 1 * n ≤ (d.toNat / n - a / n) * n := Nat.mul_le_mul_right n hone
    omega
  · intro hdiv
    have hzero : d.toNat / n - a / n = 0 := by omega
    rw [hzero, Nat.zero_mul]
    exact hn

theorem updateIrq_periodic (hmode : s.mode = 2 ∨ s.mode = 3) (hirq : s.irq = some irq)
    (uticks again : Ticks) :
    s.updateIrq uticks again =
      if s.ticks uticks - s.ticks uticks % s.count - s.lastIrqCount < s.count then ([], s)
      else (pulse irq,
        s.pulsed uticks again (s.ticks uticks - s.ticks uticks % s.count)) := by
  unfold PITChannelState.updateIrq
  rcases hmode with hm | hm
  · simp only [hm, hirq]
  · simp only [hm, hirq]

theorem pulsed_mode (uticks again due : Ticks) : (s.pulsed uticks again due).mode = s.mode := by
  simp only [PITChannelState.pulsed]
  split
  · rfl
  · rfl

theorem Follows.pulsed {last low : Nat} (h : Follows n irq last low e s) (hn : 0 < n) {p : Poll}
    (hot : e.origin ≤ p.first) (hfits : ticksIn (p.first - e.origin) < 2 ^ 32)
    (hagain : p.first ≤ p.again) (hdue : e.Due n p.first) :
    Follows n irq p.first p.again (e.poll n p)
      (s.pulsed (reading 32 p.first) (reading 32 p.again)
        (s.ticks (reading 32 p.first) - s.ticks (reading 32 p.first) % s.count)) := by
  have hlt : p.first - e.origin < 2 ^ 32 := by
    unfold ticksIn at hfits
    omega
  have hwrap : (0x80000000 : Ticks) < reading 32 p.first - s.countLoadTime ↔
      2 ^ 31 < p.first - e.origin := by
    have htop : (0x80000000 : Ticks).toNat = 2 ^ 31 := by decide
    rw [h.load, BitVec.lt_def, reading_sub hot hlt, htop]
  unfold PITChannelState.pulsed Epoch.poll
  rw [if_pos hdue]
  by_cases hfar : 2 ^ 31 < p.first - e.origin
  · simp only [hwrap.mpr hfar, if_pos hfar, if_true]
    have hne : s.count ≠ 0 := by
      intro hz
      have hc := h.count
      rw [hz] at hc
      exact absurd hc (Nat.ne_of_lt hn)
    let d := s.ticks (reading 32 p.first)
    have hl := loaded_loadCount { s with lastIrqCount := d - d % s.count } hne h.count h.irq p.again
    exact hl.follows hagain
  · simp only [(not_congr hwrap).mpr hfar, if_neg hfar, if_false]
    refine ⟨h.count, h.load, ?_, h.irq, hot, hagain, Nat.le_of_not_lt hfar, not_crossed_self⟩
    rw [due_toNat _ h.count, ticks_exact h.load hot hfits]

theorem Follows.poll {last low : Nat} (h : Follows n irq last low e s) (hmode : s.mode = 2 ∨ s.mode = 3)
    (hn : 0 < n) (hle : n ≤ 65536) {p : Poll} (hlow : low ≤ p.first) (hgap : p.first - last < 2 ^ 30)
    (hagain : p.first ≤ p.again) :
    (s.updateIrq (reading 32 p.first) (reading 32 p.again)).1 =
        (if e.Due n p.first then pulse irq else []) ∧
      Follows n irq p.first p.again (e.poll n p)
        (s.updateIrq (reading 32 p.first) (reading 32 p.again)).2 ∧
      (s.updateIrq (reading 32 p.first) (reading 32 p.again)).2.mode = s.mode := by
  have horigin := h.origin
  have hprev := h.prev
  have hot : e.origin ≤ p.first := by omega
  have hfits := h.fits hn hle hgap
  have hexact := ticks_exact h.load hot hfits
  have hmono : ticksIn (e.prev - e.origin) ≤ (s.ticks (reading 32 p.first)).toNat := by
    rw [hexact]
    exact ticksIn_mono (by omega)
  have hpending := pending_lt h.count hn hmono h.done
  rw [hexact] at hpending
  rw [updateIrq_periodic hmode h.irq]
  by_cases hdue : e.Due n p.first
  · have hnot := (not_congr hpending).mpr (not_not_intro hdue)
    rw [if_neg hnot, if_pos hdue]
    refine ⟨rfl, ?_, ?_⟩
    · exact h.pulsed hn hot hfits hagain hdue
    · exact pulsed_mode _ _ _
  · rw [if_pos (hpending.mpr hdue), if_neg hdue]
    refine ⟨rfl, ?_, rfl⟩
    unfold Epoch.poll
    rw [if_neg hdue]
    exact ⟨h.count, h.load, h.done, h.irq, h.origin, by omega, h.early, hdue⟩

structure Waits (n t irq last low : Nat) (s : PITChannelState) : Prop extends Loaded n t irq s where
  low : t ≤ low
  early : ticksIn (last - t) < n

theorem Loaded.waits (h : Loaded n t irq s) (hn : 0 < n) : Waits n t irq t t s where
  toLoaded := h
  low := Nat.le_refl t
  early := by
    rw [Nat.sub_self]
    exact hn

/-- The modes in which the channel fires once. -/
def FiresOnce (s : PITChannelState) : Prop := s.mode = 0 ∨ s.mode = 1 ∨ s.mode = 4 ∨ s.mode = 5

theorem updateIrq_once (hmode : FiresOnce s) (hirq : s.irq = some irq) (uticks again : Ticks) :
    s.updateIrq uticks again =
      if s.lastIrqCount = 0 ∧ s.count ≤ s.ticks uticks then
        (pulse irq, { s with lastIrqCount := s.count })
      else ([], s) := by
  unfold PITChannelState.updateIrq
  rcases hmode with hm | hm | hm | hm
  · simp only [hm, hirq]
  · simp only [hm, hirq]
  · simp only [hm, hirq]
  · simp only [hm, hirq]

theorem updateIrq_fired (hmode : FiresOnce s) (hfired : s.lastIrqCount ≠ 0) (uticks again : Ticks) :
    s.updateIrq uticks again = ([], s) := by
  unfold PITChannelState.updateIrq
  rcases hmode with hm | hm | hm | hm
  · simp only [hm, hfired, false_and, if_false]
  · simp only [hm, hfired, false_and, if_false]
  · simp only [hm, hfired, false_and, if_false]
  · simp only [hm, hfired, false_and, if_false]

theorem Waits.poll {last low : Nat} (h : Waits n t irq last low s) (hmode : FiresOnce s)
    (hn : 0 < n) (hle : n ≤ 65536) {p : Poll} (hlow : low ≤ p.first) (hgap : p.first - last < 2 ^ 30)
    (hagain : p.first ≤ p.again) :
    if n ≤ ticksIn (p.first - t) then
      s.updateIrq (reading 32 p.first) (reading 32 p.again) =
          (pulse irq, { s with lastIrqCount := s.count }) ∧ s.count ≠ 0
    else
      s.updateIrq (reading 32 p.first) (reading 32 p.again) = ([], s) ∧
        Waits n t irq p.first p.again s := by
  have hlow' := h.low
  have hot : t ≤ p.first := by omega
  have hearly := h.early
  have hfits : ticksIn (p.first - t) < 2 ^ 32 := by
    have hsum : p.first - t ≤ (last - t) + 2 ^ 30 := by omega
    have hticks : ticksIn (p.first - t) ≤ ticksIn ((last - t) + 2 ^ 30) := ticksIn_mono hsum
    have hadd : ticksIn ((last - t) + 2 ^ 30) ≤ ticksIn (last - t) + ticksIn (2 ^ 30) + 1 := by
      unfold ticksIn
      omega
    have hgap' : ticksIn (2 ^ 30) = 1281169417 := by decide
    omega
  have hexact := ticks_exact h.load hot hfits
  have hreach : s.count ≤ s.ticks (reading 32 p.first) ↔ n ≤ ticksIn (p.first - t) := by
    rw [BitVec.le_def, h.count, hexact]
  rw [updateIrq_once hmode h.irq]
  by_cases hdue : n ≤ ticksIn (p.first - t)
  · rw [if_pos hdue, if_pos ⟨h.fresh, hreach.mpr hdue⟩]
    refine ⟨rfl, fun hz => ?_⟩
    have hc := h.count
    rw [hz] at hc
    exact absurd hc (Nat.ne_of_lt hn)
  · rw [if_neg hdue, if_neg (fun hand => hdue (hreach.mp hand.2))]
    exact ⟨rfl, h.toLoaded, by omega, Nat.lt_of_not_le hdue⟩

end Channel

section Runs

variable {n t irq last low : Nat} {pit : PITState} {e : Epoch} {p : Poll}

def lastAgain (low : Nat) (ps : List Poll) : Nat := ps.foldl (fun _ p => p.again) low

theorem spaced_append (ps : List Poll) : ∀ {last low : Nat}, Spaced last low (ps ++ [p]) →
    Spaced last low ps ∧ lastAgain low ps ≤ p.first ∧ p.first - lastPoll last ps < 2 ^ 30 ∧
      p.first ≤ p.again := by
  induction ps with
  | nil =>
    intro last low h
    exact ⟨trivial, h.1, h.2.1, h.2.2.1⟩
  | cons q ps ih =>
    intro last low h
    obtain ⟨hlow, hgap, hagain, hrest⟩ := h
    obtain ⟨hps, hp⟩ := ih hrest
    exact ⟨⟨hlow, hgap, hagain, hps⟩, hp⟩

theorem poll_channel (p : Poll) (pit : PITState) :
    (pit.poll p).1 = ((pit.channels 0).updateIrq (reading 32 p.first) (reading 32 p.again)).1 ∧
      (pit.poll p).2.channels 0 =
        ((pit.channels 0).updateIrq (reading 32 p.first) (reading 32 p.again)).2 := by
  exact ⟨rfl, Function.update_self (0 : Fin 3) _ pit.channels⟩

theorem PITState.after_cons (p : Poll) (ps : List Poll) (pit : PITState) :
    pit.after (p :: ps) = (pit.poll p).2.after ps := List.foldl_cons ..

theorem Epoch.after_cons (p : Poll) (ps : List Poll) (e : Epoch) :
    e.after n (p :: ps) = (e.poll n p).after n ps := List.foldl_cons ..

theorem Follows.after (hn : 0 < n) (hle : n ≤ 65536) (ps : List Poll) :
    ∀ {last low : Nat} {e : Epoch} {pit : PITState}, Follows n irq last low e (pit.channels 0) →
      ((pit.channels 0).mode = 2 ∨ (pit.channels 0).mode = 3) → Spaced last low ps →
      Follows n irq (lastPoll last ps) (lastAgain low ps) (e.after n ps) ((pit.after ps).channels 0) ∧
        ((pit.after ps).channels 0).mode = (pit.channels 0).mode := by
  induction ps with
  | nil =>
    intro last low e pit h _ _
    exact ⟨h, rfl⟩
  | cons p ps ih =>
    intro last low e pit h hmode hs
    obtain ⟨hlow, hgap, hagain, hrest⟩ := hs
    obtain ⟨-, hstep, hsame⟩ := h.poll hmode hn hle hlow hgap hagain
    rw [← (poll_channel p pit).2] at hstep hsame
    obtain ⟨hfol, hmode'⟩ := ih hstep (by rw [hsame]; exact hmode) hrest
    rw [PITState.after_cons, Epoch.after_cons]
    exact ⟨hfol, hmode'.trans hsame⟩

theorem after_fired (ps : List Poll) : ∀ {pit : PITState}, FiresOnce (pit.channels 0) →
    (pit.channels 0).lastIrqCount ≠ 0 → (pit.after ps).channels 0 = pit.channels 0 := by
  induction ps with
  | nil =>
    intro pit _ _
    rfl
  | cons p ps ih =>
    intro pit hmode hfired
    have hsame : (pit.poll p).2.channels 0 = pit.channels 0 := by
      rw [(poll_channel p pit).2, updateIrq_fired hmode hfired]
    have hrest := @ih (pit.poll p).2 (by rw [hsame]; exact hmode) (by rw [hsame]; exact hfired)
    exact hrest.trans hsame

theorem Waits.after (hn : 0 < n) (hle : n ≤ 65536) (ps : List Poll) :
    ∀ {last low : Nat} {pit : PITState}, Waits n t irq last low (pit.channels 0) →
      FiresOnce (pit.channels 0) → Spaced last low ps →
      FiresOnce ((pit.after ps).channels 0) ∧
        (((∀ q ∈ ps, ticksIn (q.first - t) < n) ∧
            Waits n t irq (lastPoll last ps) (lastAgain low ps) ((pit.after ps).channels 0)) ∨
          ((∃ q ∈ ps, n ≤ ticksIn (q.first - t)) ∧
            ((pit.after ps).channels 0).lastIrqCount ≠ 0)) := by
  induction ps with
  | nil =>
    intro last low pit h hmode _
    refine ⟨hmode, Or.inl ⟨?_, h⟩⟩
    intro q hq
    exact absurd hq List.not_mem_nil
  | cons p ps ih =>
    intro last low pit h hmode hs
    obtain ⟨hlow, hgap, hagain, hrest⟩ := hs
    have hpoll := h.poll hmode hn hle hlow hgap hagain
    have hchan := (poll_channel p pit).2
    by_cases hdue : n ≤ ticksIn (p.first - t)
    · rw [if_pos hdue] at hpoll
      obtain ⟨hrun, hne⟩ := hpoll
      rw [hrun] at hchan
      have hmode' : FiresOnce ((pit.poll p).2.channels 0) := by
        rw [hchan]
        exact hmode
      have hfired : ((pit.poll p).2.channels 0).lastIrqCount ≠ 0 := by
        rw [hchan]
        exact hne
      have hafter := after_fired ps hmode' hfired
      refine ⟨?_, Or.inr ⟨⟨p, List.mem_cons_self, hdue⟩, ?_⟩⟩
      · exact (congrArg FiresOnce hafter).mpr hmode'
      · intro hz
        exact hfired ((congrArg PITChannelState.lastIrqCount hafter).symm.trans hz)
    · rw [if_neg hdue] at hpoll
      obtain ⟨hrun, hwaits⟩ := hpoll
      rw [hrun] at hchan
      change _ = pit.channels 0 at hchan
      rw [← hchan] at hwaits
      obtain ⟨hmode', hrest'⟩ := ih hwaits (by rw [hchan]; exact hmode) hrest
      refine ⟨hmode', ?_⟩
      rcases hrest' with ⟨hall, hw⟩ | ⟨⟨q, hq, hqd⟩, hfired⟩
      · refine Or.inl ⟨?_, hw⟩
        intro q hq
        rcases List.mem_cons.mp hq with rfl | hq
        · exact Nat.lt_of_not_le hdue
        · exact hall q hq
      · exact Or.inr ⟨⟨q, List.mem_cons_of_mem p hq, hqd⟩, hfired⟩

/-- In every run after a load, a poll in mode 2 or 3 raises a pulse when a multiple of the count
has been reached since the last one, the ticks of the source are exact, and polls less than a period
apart pass one multiple each; in the other modes only the first poll after the count does. -/
theorem pulses_on_schedule (h : Loaded n t irq (pit.channels 0)) (hn : 1 ≤ n) (hle : n ≤ 65536)
    {ps : List Poll} (hs : Spaced t t (ps ++ [p])) :
    ((pit.channels 0).mode = 2 ∨ (pit.channels 0).mode = 3 →
      ((pit.after ps).poll p).1 =
          (if ((⟨t, t⟩ : Epoch).after n ps).Due n p.first then pulse irq else []) ∧
        (((pit.after ps).channels 0).ticks (reading 32 p.first)).toNat =
          ticksIn (p.first - ((⟨t, t⟩ : Epoch).after n ps).origin) ∧
        ((p.first - lastPoll t ps) * 1193182 < n * 1000000 →
          ticksIn (p.first - ((⟨t, t⟩ : Epoch).after n ps).origin) / n ≤
            ticksIn (((⟨t, t⟩ : Epoch).after n ps).prev -
              ((⟨t, t⟩ : Epoch).after n ps).origin) / n + 1)) ∧
    (FiresOnce (pit.channels 0) →
      ((pit.after ps).poll p).1 =
        if (∀ q ∈ ps, ticksIn (q.first - t) < n) ∧ n ≤ ticksIn (p.first - t) then pulse irq
        else []) := by
  obtain ⟨hps, hlow, hgap, hagain⟩ := spaced_append ps hs
  constructor
  · intro hmode
    obtain ⟨hfol, hsame⟩ := (h.follows (Nat.le_refl t)).after hn hle ps hmode hps
    have hmode' : ((pit.after ps).channels 0).mode = 2 ∨ ((pit.after ps).channels 0).mode = 3 := by
      rw [hsame]
      exact hmode
    refine ⟨(hfol.poll hmode' hn hle hlow hgap hagain).1, ?_, ?_⟩
    · have horigin := hfol.origin
      have hprev := hfol.prev
      exact ticks_exact hfol.load (by omega) (hfol.fits hn hle hgap)
    · intro hshort
      have hquiet := hfol.quiet
      unfold Epoch.Due at hquiet
      rw [crossed_iff_div] at hquiet
      generalize (⟨t, t⟩ : Epoch).after n ps = e at hquiet ⊢
      generalize lastPoll t ps = last at hshort hquiet
      have hstep : ticksIn (p.first - e.origin) ≤ ticksIn (last - e.origin) + n := by
        unfold ticksIn
        omega
      have hdiv : ticksIn (p.first - e.origin) / n ≤ (ticksIn (last - e.origin) + n) / n :=
        Nat.div_le_div_right hstep
      rw [Nat.add_div_right _ hn] at hdiv
      omega
  · intro hmode
    obtain ⟨hmode', hcase⟩ := (h.waits hn).after hn hle ps hmode hps
    rcases hcase with ⟨hall, hw⟩ | ⟨⟨q, hq, hqd⟩, hfired⟩
    · have hpoll := hw.poll hmode' hn hle hlow hgap hagain
      rw [(poll_channel p (pit.after ps)).1]
      by_cases hdue : n ≤ ticksIn (p.first - t)
      · rw [if_pos hdue] at hpoll
        rw [if_pos ⟨hall, hdue⟩, hpoll.1]
      · rw [if_neg hdue] at hpoll
        rw [if_neg fun hand => hdue hand.2, hpoll.1]
    · rw [(poll_channel p (pit.after ps)).1, updateIrq_fired hmode' hfired,
        if_neg fun hand => absurd (hand.1 q hq) (Nat.not_lt.mpr hqd)]

def wrapStart : Nat := 4294000000

/-- Polls after 60 ms, then 17 minutes apart; the clock wraps after the first of them,
and the last reloads the count. -/
def longPolls : List Poll :=
  [⟨4294060000, 4294060000⟩, ⟨5367801823, 5367801823⟩, ⟨6441543646, 6441543650⟩]

/-- A count of 59659 in mode 0, which is 50 milliseconds. -/
def oneShot : PITState where
  channels i :=
    (((PITState.init 0 0).channels i).control 0 0x30).loadCount (reading 32 wrapStart) 59659

/-- A timer of 55 milliseconds across the wrap of the clock and a reload, polled 54 and 60
milliseconds after it; a single shot, polled before it fires, as it fires and afterwards. -/
theorem pulses_on_schedule_start :
    (((PITState.init (reading 32 wrapStart) 0).after longPolls).poll
        ⟨6441597650, 6441597650⟩).1 = [] ∧
      (((PITState.init (reading 32 wrapStart) 0).after longPolls).poll
        ⟨6441603650, 6441603650⟩).1 = pulse 0 ∧
      ((oneShot.after [⟨4294010000, 4294010000⟩]).poll ⟨4294060000, 4294060000⟩).1 = pulse 0 ∧
      ((oneShot.after longPolls).poll ⟨6441603650, 6441603650⟩).1 = [] := by
  have hloaded : Loaded 65536 wrapStart 0
      ((PITState.init (reading 32 wrapStart) 0).channels 0) := ⟨rfl, rfl, rfl, rfl⟩
  have hshot : Loaded 59659 wrapStart 0 (oneShot.channels 0) := ⟨rfl, rfl, rfl, rfl⟩
  have hspaced : ∀ u, 6441543650 ≤ u → u < 6441543650 + 2 ^ 29 →
      Spaced wrapStart wrapStart (longPolls ++ [⟨u, u⟩]) := by
    intro u hlow hhigh
    refine ⟨by decide, by decide, by decide, by decide, by decide, by decide, by decide, by decide,
      by decide, hlow, ?_, Nat.le_refl u, trivial⟩
    change u - 6441543646 < 2 ^ 30
    omega
  have hperiodic : ∀ u, 6441543650 ≤ u → u < 6441543650 + 2 ^ 29 → _ :=
    fun u hlow hhigh =>
      ((pulses_on_schedule hloaded (by decide) (by decide) (hspaced u hlow hhigh)).1 (Or.inr rfl)).1
  have hshotSpaced : Spaced wrapStart wrapStart
      ([⟨4294010000, 4294010000⟩] ++ [⟨4294060000, 4294060000⟩]) := by
    refine ⟨by decide, by decide, by decide, by decide, by decide, by decide, trivial⟩
  refine ⟨?_, ?_, ?_, ?_⟩
  · exact (hperiodic _ (by decide) (by decide)).trans (if_neg (by decide))
  · exact (hperiodic _ (by decide) (by decide)).trans (if_pos (by decide))
  · exact ((pulses_on_schedule hshot (by decide) (by decide) hshotSpaced).2 (Or.inl rfl)).trans
      (if_pos (by decide))
  · exact ((pulses_on_schedule hshot (by decide) (by decide)
      (hspaced _ (by decide) (by decide))).2 (Or.inl rfl)).trans (if_neg (by decide))

end Runs

end Winspire.Pit
