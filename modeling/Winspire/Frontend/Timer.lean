import Mathlib.Data.List.Infix
import Mathlib.Tactic.Ring

/-!
# Guest time of the two front ends

`main.c` of the server build and of the calculator turn executed instructions into microseconds
and carry the remainder. The server build can also do so in the middle of a batch, when a device
reads the time.
-/

namespace Winspire.Frontend

set_option autoImplicit false

/-- `guest_ticks`, `last_cycle` and `cycle_rem` or `tick_remainder`. -/
structure GuestTimer where
  guestTicks : BitVec 32
  lastCycle : BitVec 32
  cycleRem : BitVec 64
  deriving DecidableEq, Repr

def GuestTimer.reset : GuestTimer := ⟨0, 0, 0⟩

/-- The end of `sync_timer_cpu` and `advance_guest_timer`. -/
def GuestTimer.credit (scale hz : BitVec 64) (currentCycle delta : BitVec 32) (t : GuestTimer) :
    GuestTimer :=
  let scaled := delta.setWidth 64 * scale * 1000000 + t.cycleRem
  { guestTicks := t.guestTicks + (scaled / hz).setWidth 32
    lastCycle := currentCycle
    cycleRem := scaled % hz }

@[simp] theorem GuestTimer.credit_lastCycle (scale hz : BitVec 64) (current delta : BitVec 32)
    (t : GuestTimer) : (t.credit scale hz current delta).lastCycle = current := rfl

/-- `GUEST_HZ`, also `CPU_HZ` of the calculator. -/
def guestHz : BitVec 64 := 4770000

/-- `IDLE_INSNS` and `IDLE_INS`. -/
def idleInsns : BitVec 32 := 12288

/-- The statics of the server front end; `timerCpu` tells whether `timer_cpu` is set. -/
structure Server where
  timer : GuestTimer
  cycleScale : BitVec 32
  timerCpu : Bool
  timerReadsTrackCpu : Bool
  realtimeTimer : Bool
  timerBaseUs : BitVec 32
  deriving DecidableEq, Repr

/-- `cpu` is the counter of the processor, `now` the clock of the host. -/
def Server.syncTimerCpu (now : BitVec 32) (cpu : Option Nat) (allowIdle : Bool) (s : Server) :
    Server :=
  if s.realtimeTimer then { s with timer := { s.timer with guestTicks := now - s.timerBaseUs } }
  else match cpu with
    | none => s
    | some cycle =>
      let current := BitVec.ofNat 32 cycle
      let delta := current - s.timer.lastCycle
      if delta = 0 then
        if allowIdle then
          { s with timer := s.timer.credit (s.cycleScale.setWidth 64) guestHz current idleInsns }
        else s
      else { s with timer := s.timer.credit (s.cycleScale.setWidth 64) guestHz current delta }

/-- The time a device sees, and the timer after its read. -/
def Server.getUticks (now : BitVec 32) (cycle : Nat) (s : Server) : BitVec 32 × Server :=
  if s.realtimeTimer then (now - s.timerBaseUs, s)
  else
    let s' :=
      if s.timerReadsTrackCpu then
        s.syncTimerCpu now (if s.timerCpu then some cycle else none) false
      else s
    (s'.timer.guestTicks, s')

def Server.syncGuestTimer (now : BitVec 32) (cycle : Nat) (s : Server) : Server :=
  s.syncTimerCpu now (some cycle) true

/-- The calculator, `INS_CYCLES` being 12. -/
def advanceGuestTimer (hz : BitVec 64) (cycle : Nat) (t : GuestTimer) : GuestTimer :=
  let current := BitVec.ofNat 32 cycle
  let instructions := current - t.lastCycle
  t.credit 12 hz current (if instructions = 0 then idleInsns else instructions)

inductive Event where
  | run (n : Nat)
  | read (now : BitVec 32)
  deriving DecidableEq, Repr

/-- One `pc_step` and the synchronisation behind it. -/
structure Batch where
  events : List Event
  now : BitVec 32
  deriving DecidableEq, Repr

def executed : List Event → Nat
  | [] => 0
  | .run n :: es => n + executed es
  | .read _ :: es => executed es

/-- Instructions behind the last read, with `p` before the events. Only reads that track the
processor count. -/
def sinceRead (tracking : Bool) (p : Nat) : List Event → Nat
  | [] => p
  | .run n :: es => sinceRead tracking (p + n) es
  | .read _ :: es => sinceRead tracking (if tracking then 0 else p) es

def Batch.credited (b : Batch) : Nat :=
  if executed b.events = 0 then idleInsns.toNat else executed b.events

def credited (bs : List Batch) : Nat := (bs.map Batch.credited).sum

/-- `floor (n * scale * 10^6 / hz)`, modulo `2^32`. -/
def guestTime (scale hz n : Nat) : BitVec 32 := BitVec.ofNat 32 (n * scale * 1000000 / hz)

structure ServerRun where
  server : Server
  cycle : Nat
  deriving DecidableEq, Repr

def ServerRun.event (r : ServerRun) : Event → ServerRun
  | .run n => { r with cycle := r.cycle + n }
  | .read now => { r with server := (r.server.getUticks now r.cycle).2 }

def ServerRun.batch (r : ServerRun) (b : Batch) : ServerRun :=
  let r' := b.events.foldl ServerRun.event r
  { r' with server := r'.server.syncGuestTimer b.now r'.cycle }

/-- Before the loop of `main`. -/
def ServerRun.start (tracking : Bool) (scale : BitVec 32) (cycle : Nat) : ServerRun :=
  ⟨⟨{ GuestTimer.reset with lastCycle := BitVec.ofNat 32 cycle }, scale, true, tracking, false, 0⟩,
    cycle⟩

structure CalculatorRun where
  timer : GuestTimer
  cycle : Nat
  deriving DecidableEq, Repr

/-- `get_uticks` of the calculator only reads. -/
def CalculatorRun.event (r : CalculatorRun) : Event → CalculatorRun
  | .run n => { r with cycle := r.cycle + n }
  | .read _ => r

def CalculatorRun.batch (hz : BitVec 64) (r : CalculatorRun) (b : Batch) : CalculatorRun :=
  let r' := b.events.foldl CalculatorRun.event r
  { r' with timer := advanceGuestTimer hz r'.cycle r'.timer }

def CalculatorRun.start : CalculatorRun := ⟨GuestTimer.reset, 0⟩

/-- The timer stands at `n` instructions. -/
structure Tracks (scale hz n : Nat) (t : GuestTimer) : Prop where
  ticks : t.guestTicks = guestTime scale hz n
  rem : t.cycleRem.toNat = n * scale * 1000000 % hz

section Tracks

variable {scale hz : BitVec 64} {n : Nat} {t : GuestTimer} {delta current : BitVec 32}

theorem scaled_toNat (hscale : scale.toNat ≤ 64) (hrem : t.cycleRem.toNat < 2 ^ 32) :
    (delta.setWidth 64 * scale * 1000000 + t.cycleRem).toNat =
      delta.toNat * scale.toNat * 1000000 + t.cycleRem.toNat := by
  have hd := delta.isLt
  have h1 : (delta.setWidth 64).toNat = delta.toNat := by
    rw [BitVec.toNat_setWidth]
    omega
  have hprod : delta.toNat * scale.toNat ≤ 2 ^ 32 * 64 :=
    Nat.mul_le_mul (Nat.le_of_lt hd) hscale
  have h2 : (delta.setWidth 64 * scale).toNat = delta.toNat * scale.toNat := by
    rw [BitVec.toNat_mul, h1]
    exact Nat.mod_eq_of_lt (by omega)
  have h3 : (1000000 : BitVec 64).toNat = 1000000 := rfl
  rw [BitVec.toNat_add, BitVec.toNat_mul, h2, h3]
  generalize delta.toNat * scale.toNat = p at *
  omega

theorem Tracks.credit (h : Tracks scale.toNat hz.toNat n t) (hscale : scale.toNat ≤ 64)
    (hpos : 0 < hz.toNat) (hhz : hz.toNat ≤ 2 ^ 32) :
    Tracks scale.toNat hz.toNat (n + delta.toNat) (t.credit scale hz current delta) := by
  have hrem : t.cycleRem.toNat < hz.toNat := by
    rw [h.rem]
    exact Nat.mod_lt _ hpos
  have hs : (delta.setWidth 64 * scale * 1000000 + t.cycleRem).toNat = _ :=
    scaled_toNat hscale (Nat.lt_of_lt_of_le hrem hhz)
  have hsum : (n + delta.toNat) * scale.toNat * 1000000 =
      hz.toNat * (n * scale.toNat * 1000000 / hz.toNat) +
        (delta.toNat * scale.toNat * 1000000 + t.cycleRem.toNat) := by
    have hdiv := Nat.div_add_mod (n * scale.toNat * 1000000) hz.toNat
    rw [← h.rem] at hdiv
    calc (n + delta.toNat) * scale.toNat * 1000000
        = n * scale.toNat * 1000000 + delta.toNat * scale.toNat * 1000000 := by ring
      _ = _ := by omega
  constructor
  · unfold GuestTimer.credit guestTime
    simp only []
    rw [hsum, Nat.mul_add_div hpos, h.ticks, guestTime, BitVec.ofNat_add]
    congr 1
    apply BitVec.eq_of_toNat_eq
    rw [BitVec.toNat_setWidth, BitVec.toNat_udiv, hs, BitVec.toNat_ofNat]
  · unfold GuestTimer.credit
    simp only []
    rw [hsum, Nat.mul_add_mod, BitVec.toNat_umod, hs]

end Tracks

theorem tracks_start (scale hz : Nat) (current : BitVec 32) :
    Tracks scale hz 0 { GuestTimer.reset with lastCycle := current } := by
  constructor
  · simp [GuestTimer.reset, guestTime]
  · simp [GuestTimer.reset]

theorem guestHz_toNat : guestHz.toNat = 4770000 := rfl

theorem guestHz_pos : 0 < guestHz.toNat := by
  rw [guestHz_toNat]
  omega

theorem guestHz_le : guestHz.toNat ≤ 2 ^ 32 := by
  rw [guestHz_toNat]
  omega

/-- The timer stands at `n` instructions and the processor is `p` further. -/
structure Behind (tracking : Bool) (scale n p : Nat) (r : ServerRun) : Prop where
  tracks : Tracks scale guestHz.toNat n r.server.timer
  pending : BitVec.ofNat 32 r.cycle = r.server.timer.lastCycle + BitVec.ofNat 32 p
  scale : r.server.cycleScale.toNat = scale
  timerCpu : r.server.timerCpu = true
  timerReads : r.server.timerReadsTrackCpu = tracking
  realtime : r.server.realtimeTimer = false

section Server

variable {tracking : Bool} {scale n p : Nat} {r : ServerRun}

theorem Behind.delta (h : Behind tracking scale n p r) (hp : p < 2 ^ 32) :
    (BitVec.ofNat 32 r.cycle - r.server.timer.lastCycle).toNat = p := by
  have hsub : BitVec.ofNat 32 r.cycle - r.server.timer.lastCycle = BitVec.ofNat 32 p := by
    rw [h.pending]
    rw [BitVec.add_comm]
    exact BitVec.add_sub_cancel _ _
  rw [hsub, BitVec.toNat_ofNat]
  exact Nat.mod_eq_of_lt hp

/-- Without the clock of the host, a zero difference is idle time or nothing. -/
theorem Server.syncTimerCpu_some {s : Server} (h : s.realtimeTimer = false) (now : BitVec 32)
    (cycle : Nat) (allowIdle : Bool) :
    s.syncTimerCpu now (some cycle) allowIdle =
      if BitVec.ofNat 32 cycle - s.timer.lastCycle = 0 then
        if allowIdle then
          { s with
            timer := s.timer.credit (s.cycleScale.setWidth 64) guestHz (BitVec.ofNat 32 cycle)
              idleInsns }
        else s
      else
        { s with
          timer := s.timer.credit (s.cycleScale.setWidth 64) guestHz (BitVec.ofNat 32 cycle)
            (BitVec.ofNat 32 cycle - s.timer.lastCycle) } :=
  if_neg (by rw [h]; exact Bool.false_ne_true)

theorem Behind.withTimer (h : Behind tracking scale n p r) {m : Nat} {t : GuestTimer}
    (ht : Tracks scale guestHz.toNat m t) (hlast : t.lastCycle = BitVec.ofNat 32 r.cycle) :
    Behind tracking scale m 0 { r with server := { r.server with timer := t } } := by
  refine ⟨ht, ?_, h.scale, h.timerCpu, h.timerReads, h.realtime⟩
  rw [BitVec.add_zero]
  exact hlast.symm

theorem Behind.sync (h : Behind tracking scale n p r) (hscale : scale ≤ 64) (hp : p < 2 ^ 32)
    (now : BitVec 32) (allowIdle : Bool) :
    Behind tracking scale (n + if p = 0 ∧ allowIdle = true then idleInsns.toNat else p) 0
      { r with server := r.server.syncTimerCpu now (some r.cycle) allowIdle } := by
  have hdelta := h.delta hp
  have hs : (r.server.cycleScale.setWidth 64).toNat = scale := by
    rw [BitVec.toNat_setWidth, h.scale]
    omega
  have htracks : ∀ d : BitVec 32, Tracks scale guestHz.toNat (n + d.toNat)
      (r.server.timer.credit (r.server.cycleScale.setWidth 64) guestHz
        (BitVec.ofNat 32 r.cycle) d) := by
    intro d
    have ht := h.tracks
    rw [← hs] at ht ⊢
    exact ht.credit (by omega) guestHz_pos guestHz_le
  rw [Server.syncTimerCpu_some h.realtime]
  by_cases h0 : p = 0
  · have hz : BitVec.ofNat 32 r.cycle - r.server.timer.lastCycle = 0 :=
      BitVec.eq_of_toNat_eq (by simp [hdelta, h0])
    rw [if_pos hz]
    cases allowIdle with
    | true =>
      rw [if_pos rfl, if_pos ⟨h0, rfl⟩]
      exact h.withTimer (htracks idleInsns) (GuestTimer.credit_lastCycle _ _ _ _ _)
    | false =>
      rw [if_neg Bool.false_ne_true, if_neg (fun h => Bool.false_ne_true h.2), h0]
      rw [h0] at h
      exact h
  · have hz : BitVec.ofNat 32 r.cycle - r.server.timer.lastCycle ≠ 0 := by
      intro hz
      have hp0 : p = 0 := by simpa [hz] using hdelta.symm
      exact h0 hp0
    rw [if_neg hz, if_neg (fun h => h0 h.1)]
    have ht := htracks (BitVec.ofNat 32 r.cycle - r.server.timer.lastCycle)
    rw [hdelta] at ht
    exact h.withTimer ht (GuestTimer.credit_lastCycle _ _ _ _ _)

theorem Behind.run (h : Behind tracking scale n p r) (m : Nat) :
    Behind tracking scale n (p + m) (r.event (.run m)) := by
  refine ⟨h.tracks, ?_, h.scale, h.timerCpu, h.timerReads, h.realtime⟩
  change BitVec.ofNat 32 (r.cycle + m) = _
  rw [BitVec.ofNat_add, h.pending, BitVec.ofNat_add, BitVec.add_assoc]
  rfl

theorem Behind.read (h : Behind tracking scale n p r) (hscale : scale ≤ 64) (hp : p < 2 ^ 32)
    (now : BitVec 32) :
    Behind tracking scale (if tracking then n + p else n) (if tracking then 0 else p)
      (r.event (.read now)) := by
  unfold ServerRun.event Server.getUticks
  simp only [h.realtime, h.timerReads, h.timerCpu, Bool.false_eq_true, if_false, if_true]
  cases tracking with
  | true =>
    have hs := h.sync hscale hp now false
    rw [if_neg (fun h => Bool.false_ne_true h.2)] at hs
    exact hs
  | false => exact h

/-- By induction on the events: what a read credits is no longer behind. -/
theorem Behind.events (hscale : scale ≤ 64) (es : List Event) {n p : Nat} {r : ServerRun}
    (h : Behind tracking scale n p r) (hp : p + executed es < 2 ^ 32) :
    ∃ m, m + sinceRead tracking p es = n + p + executed es ∧
      Behind tracking scale m (sinceRead tracking p es) (es.foldl ServerRun.event r) := by
  induction es generalizing n p r with
  | nil => exact ⟨n, rfl, h⟩
  | cons e es ih =>
    cases e with
    | run m =>
      have hexec : executed (.run m :: es) = m + executed es := rfl
      rcases ih (h.run m) (by omega) with ⟨k, hk, hb⟩
      exact ⟨k, by rw [hexec]; exact hk.trans (by omega), hb⟩
    | read now =>
      have hexec : executed (.read now :: es) = executed es := rfl
      have hr := h.read hscale (by omega) now
      cases tracking with
      | true =>
        rcases ih hr (by rw [if_pos rfl]; omega) with ⟨k, hk, hb⟩
        rw [if_pos rfl, if_pos rfl, Nat.add_zero] at hk
        exact ⟨k, by rw [hexec]; exact hk, hb⟩
      | false =>
        rcases ih hr (by rw [if_neg Bool.false_ne_true]; omega) with ⟨k, hk, hb⟩
        exact ⟨k, by rw [hexec]; exact hk, hb⟩

def Batch.counted (tracking : Bool) (b : Batch) : Nat :=
  executed b.events + if sinceRead tracking 0 b.events = 0 then idleInsns.toNat else 0

def counted (tracking : Bool) (bs : List Batch) : Nat := (bs.map (Batch.counted tracking)).sum

theorem sinceRead_le (tracking : Bool) (p : Nat) (es : List Event) :
    sinceRead tracking p es ≤ p + executed es := by
  induction es generalizing p with
  | nil => exact Nat.le_refl p
  | cons e es ih =>
    cases e with
    | run m =>
      have h := ih (p + m)
      simp only [sinceRead, executed]
      omega
    | read now =>
      have h := ih (if tracking then 0 else p)
      have hp : (if tracking then 0 else p) ≤ p := by split <;> omega
      simp only [sinceRead, executed]
      omega

theorem Behind.batch (h : Behind tracking scale n 0 r) (hscale : scale ≤ 64) {b : Batch}
    (hb : executed b.events < 2 ^ 32) : Behind tracking scale (n + b.counted tracking) 0 (r.batch b) := by
  rcases h.events hscale b.events (by omega) with ⟨m, hm, hr⟩
  have hle := sinceRead_le tracking 0 b.events
  have hsync := hr.sync hscale (by omega) b.now true
  have hn : (m + if sinceRead tracking 0 b.events = 0 ∧ true = true then idleInsns.toNat
      else sinceRead tracking 0 b.events) = n + b.counted tracking := by
    unfold Batch.counted
    by_cases h0 : sinceRead tracking 0 b.events = 0
    · rw [if_pos ⟨h0, rfl⟩, if_pos h0]
      omega
    · rw [if_neg (fun h => h0 h.1), if_neg h0]
      omega
  rw [hn] at hsync
  exact hsync

theorem Behind.batches (hscale : scale ≤ 64) (bs : List Batch) {n : Nat} {r : ServerRun}
    (h : Behind tracking scale n 0 r) (hbs : ∀ b ∈ bs, executed b.events < 2 ^ 32) :
    Behind tracking scale (n + counted tracking bs) 0 (bs.foldl ServerRun.batch r) := by
  induction bs generalizing n r with
  | nil => exact h
  | cons b bs ih =>
    have hstep := h.batch hscale (hbs b List.mem_cons_self)
    have hrest := ih hstep fun b' hb' => hbs b' (List.mem_cons_of_mem b hb')
    have hsum : counted tracking (b :: bs) = b.counted tracking + counted tracking bs := by simp [counted]
    rw [hsum, ← Nat.add_assoc]
    exact hrest

theorem behind_start (tracking : Bool) (scale : BitVec 32) (cycle : Nat) :
    Behind tracking scale.toNat 0 0 (ServerRun.start tracking scale cycle) :=
  ⟨tracks_start _ _ _, (BitVec.add_zero _).symm, rfl, rfl, rfl, rfl⟩

theorem server_ticks (s : BitVec 32) (cycle : Nat) (hs : s.toNat ≤ 64) {bs : List Batch}
    (hbs : ∀ b ∈ bs, executed b.events < 2 ^ 32) :
    (bs.foldl ServerRun.batch (ServerRun.start tracking s cycle)).server.timer.guestTicks =
      guestTime s.toNat guestHz.toNat (counted tracking bs) := by
  have h := (behind_start tracking s cycle).batches hs bs hbs
  rw [Nat.zero_add] at h
  exact h.tracks.ticks

theorem counted_eq {b : Batch} (h : executed b.events = 0 ∨ 0 < sinceRead tracking 0 b.events) :
    b.counted tracking = b.credited := by
  have hle := sinceRead_le tracking 0 b.events
  unfold Batch.counted Batch.credited
  rcases h with h | h
  · rw [if_pos (by omega), if_pos h, h, Nat.zero_add]
  · rw [if_neg (by omega), if_neg (by omega), Nat.add_zero]

/-- A read behind the last instruction: the batch is taken for an idle one as well. -/
theorem counted_late {b : Batch} (hb : 0 < executed b.events)
    (h : sinceRead tracking 0 b.events = 0) :
    b.counted tracking = b.credited + idleInsns.toNat := by
  unfold Batch.counted Batch.credited
  rw [if_pos h, if_neg (by omega)]

theorem counted_all {bs : List Batch}
    (h : ∀ b ∈ bs, executed b.events = 0 ∨ 0 < sinceRead tracking 0 b.events) :
    counted tracking bs = credited bs := by
  have hmap : bs.map (Batch.counted tracking) = bs.map Batch.credited :=
    List.map_congr_left fun b hb => counted_eq (h b hb)
  unfold counted credited
  rw [hmap]

/-- The idle amount is at least 2576 microseconds and far from a turn of the counter. -/
theorem guestTime_idle_ne (hpos : 1 ≤ scale) (hscale : scale ≤ 64) (n : Nat) :
    guestTime scale guestHz.toNat (n + idleInsns.toNat) ≠ guestTime scale guestHz.toNat n := by
  intro h
  have hidle : idleInsns.toNat = 12288 := rfl
  have hnat := congrArg BitVec.toNat h
  have hsum : (n + idleInsns.toNat) * scale * 1000000 =
      n * scale * 1000000 + 12288000000 * scale := by
    rw [hidle]
    ring
  unfold guestTime at hnat
  rw [hsum, guestHz_toNat, BitVec.toNat_ofNat, BitVec.toNat_ofNat] at hnat
  generalize n * scale * 1000000 = x at hnat
  omega

end Server

section Calculator

variable {hz : BitVec 64}

theorem calculator_events (es : List Event) (r : CalculatorRun) :
    es.foldl CalculatorRun.event r = { r with cycle := r.cycle + executed es } := by
  induction es generalizing r with
  | nil => rfl
  | cons e es ih =>
    rw [List.foldl_cons, ih]
    cases e with
    | run n => exact congrArg (CalculatorRun.mk r.timer) (Nat.add_assoc _ _ _)
    | read now => rfl

/-- The timer of the calculator stands at the processor between two batches. -/
structure Level (hz n : Nat) (r : CalculatorRun) : Prop where
  tracks : Tracks 12 hz n r.timer
  last : r.timer.lastCycle = BitVec.ofNat 32 r.cycle

theorem Level.batch {n : Nat} {r : CalculatorRun} (h : Level hz.toNat n r) (hpos : 0 < hz.toNat)
    (hhz : hz.toNat ≤ 2 ^ 32) {b : Batch} (hb : executed b.events < 2 ^ 32) :
    Level hz.toNat (n + b.credited) (r.batch hz b) := by
  have hdelta : BitVec.ofNat 32 (r.cycle + executed b.events) - r.timer.lastCycle =
      BitVec.ofNat 32 (executed b.events) := by
    rw [h.last, BitVec.ofNat_add, BitVec.add_comm]
    exact BitVec.add_sub_cancel _ _
  have hnat : (BitVec.ofNat 32 (executed b.events)).toNat = executed b.events := by
    rw [BitVec.toNat_ofNat]
    exact Nat.mod_eq_of_lt hb
  have hcredited : (if BitVec.ofNat 32 (executed b.events) = 0 then idleInsns
      else BitVec.ofNat 32 (executed b.events)).toNat = b.credited := by
    unfold Batch.credited
    by_cases h0 : executed b.events = 0
    · rw [h0]
      rfl
    · rw [if_neg h0, if_neg (fun hz => h0 (by simpa [hz] using hnat.symm)), hnat]
  have ht : ∀ d : BitVec 32, Tracks 12 hz.toNat (n + d.toNat)
      (r.timer.credit 12 hz (BitVec.ofNat 32 (r.cycle + executed b.events)) d) := by
    intro d
    have hscale : (12 : BitVec 64).toNat = 12 := rfl
    have htracks := h.tracks
    rw [← hscale] at htracks ⊢
    exact htracks.credit (by omega) hpos hhz
  unfold CalculatorRun.batch advanceGuestTimer
  rw [calculator_events]
  simp only []
  rw [hdelta, ← hcredited]
  exact ⟨ht _, GuestTimer.credit_lastCycle _ _ _ _ _⟩

theorem level_start (hz : Nat) : Level hz 0 CalculatorRun.start :=
  ⟨tracks_start _ _ _, rfl⟩

theorem calculator_ticks (hpos : 0 < hz.toNat) (hhz : hz.toNat ≤ 2 ^ 32) (bs : List Batch)
    {n : Nat} {r : CalculatorRun} (h : Level hz.toNat n r)
    (hbs : ∀ b ∈ bs, executed b.events < 2 ^ 32) :
    Level hz.toNat (n + credited bs) (bs.foldl (CalculatorRun.batch hz) r) := by
  induction bs generalizing n r with
  | nil => exact h
  | cons b bs ih =>
    have hstep := h.batch hpos hhz (hbs b List.mem_cons_self)
    have hrest := ih hstep fun b' hb' => hbs b' (List.mem_cons_of_mem b hb')
    have hsum : credited (b :: bs) = b.credited + credited bs := by simp [credited]
    rw [hsum, ← Nat.add_assoc]
    exact hrest

end Calculator

def InTime (tracking : Bool) (b : Batch) : Prop :=
  executed b.events = 0 ∨ 0 < sinceRead tracking 0 b.events

/-- Every synchronisation finds the time of the credited instructions. -/
def OnTime (tracking : Bool) (scale : BitVec 32) (cycle : Nat) (bs : List Batch) : Prop :=
  ∀ bs', bs' <+: bs →
    (bs'.foldl ServerRun.batch (ServerRun.start tracking scale cycle)).server.timer.guestTicks =
      guestTime scale.toNat guestHz.toNat (credited bs')

section Batches

variable {tracking : Bool} {scale : BitVec 32} {cycle : Nat}

theorem onTime_of_inTime (hscale : scale.toNat ≤ 64) {bs : List Batch}
    (hbs : ∀ b ∈ bs, executed b.events < 2 ^ 32) (h : ∀ b ∈ bs, InTime tracking b) :
    OnTime tracking scale cycle bs := by
  intro bs' hpre
  have hmem : ∀ b ∈ bs', b ∈ bs := fun b hb => hpre.subset hb
  rw [server_ticks scale cycle hscale fun b hb => hbs b (hmem b hb)]
  rw [counted_all fun b hb => h b (hmem b hb)]

/-- By induction from the last batch: the first late one shows at its own synchronisation. -/
theorem inTime_of_onTime (hpos : 1 ≤ scale.toNat) (hscale : scale.toNat ≤ 64) (bs : List Batch)
    (hbs : ∀ b ∈ bs, executed b.events < 2 ^ 32) (h : OnTime tracking scale cycle bs) :
    ∀ b ∈ bs, InTime tracking b := by
  induction bs using List.reverseRecOn with
  | nil => simp
  | append_singleton bs b ih =>
    have hbefore : ∀ b ∈ bs, InTime tracking b :=
      ih (fun b' hb' => hbs b' (List.mem_append_left _ hb'))
        fun bs' hpre => h bs' (hpre.trans (List.prefix_append bs [b]))
    have hlast : InTime tracking b := by
      by_contra hlate
      have hexec : 0 < executed b.events := by
        unfold InTime at hlate
        omega
      have hread : sinceRead tracking 0 b.events = 0 := by
        unfold InTime at hlate
        omega
      have hticks := h (bs ++ [b]) List.prefix_rfl
      have hcounted : counted tracking (bs ++ [b]) = credited bs + b.counted tracking := by
        rw [← counted_all hbefore]
        simp [counted]
      have hcredited : credited (bs ++ [b]) = credited bs + b.credited := by simp [credited]
      rw [server_ticks scale cycle hscale hbs, hcounted, hcredited, counted_late hexec hread,
        ← Nat.add_assoc] at hticks
      exact guestTime_idle_ne hpos hscale _ hticks
    intro b' hb'
    rcases List.mem_append.mp hb' with hb' | hb'
    · exact hbefore b' hb'
    · rw [List.mem_singleton.mp hb']
      exact hlast

end Batches

/-- Guest time counts instructions: always on the calculator, and on the server when no batch
that executes something reads the time behind its last instruction. -/
theorem guest_time (bs : List Batch) (hbs : ∀ b ∈ bs, executed b.events < 2 ^ 32) :
    (∀ hz : BitVec 64, 1000000 ≤ hz.toNat → hz.toNat ≤ 100000000 → ∀ bs', bs' <+: bs →
      (bs'.foldl (CalculatorRun.batch hz) CalculatorRun.start).timer.guestTicks =
        guestTime 12 hz.toNat (credited bs')) ∧
    (∀ (tracking : Bool) (scale : BitVec 32) (cycle : Nat), 1 ≤ scale.toNat → scale.toNat ≤ 64 →
      (OnTime tracking scale cycle bs ↔ ∀ b ∈ bs, InTime tracking b)) := by
  constructor
  · intro hz hmin hmax bs' hpre
    have h := calculator_ticks (by omega) (by omega) bs' (level_start hz.toNat)
      fun b hb => hbs b (hpre.subset hb)
    rw [Nat.zero_add] at h
    exact h.tracks.ticks
  · intro tracking scale cycle hpos hscale
    exact ⟨inTime_of_onTime hpos hscale bs hbs, onTime_of_inTime hscale hbs⟩

/-- Five instructions, the last of which reads a port that asks for the time. -/
def lateRead : Batch := ⟨[.run 5, .read 0], 0⟩

/-- The read takes all five, the synchronisation adds an idle batch. -/
theorem late_read_idles :
    ([lateRead].foldl ServerRun.batch (ServerRun.start true 12 0)).server.timer.guestTicks =
        30925 ∧
      guestTime 12 guestHz.toNat (credited [lateRead]) = 12 ∧ ¬ OnTime true 12 0 [lateRead] := by
  have hticks : ([lateRead].foldl ServerRun.batch
      (ServerRun.start true 12 0)).server.timer.guestTicks = 30925 := by decide
  have htime : guestTime 12 guestHz.toNat (credited [lateRead]) = 12 := by decide
  refine ⟨hticks, htime, ?_⟩
  intro h
  have hlast := (h [lateRead] List.prefix_rfl).symm.trans hticks
  exact absurd (htime.symm.trans hlast) (by decide)

theorem guest_time_flat :
    (CalculatorRun.batch 4770000 CalculatorRun.start lateRead).timer.guestTicks =
        guestTime 12 4770000 5 ∧
      OnTime true 12 0 [⟨[.run 3, .read 0, .run 2], 0⟩, ⟨[.read 0], 0⟩] := by
  constructor
  · exact (guest_time [lateRead] (by decide)).1 4770000 (by decide) (by decide) [lateRead]
      List.prefix_rfl
  · apply ((guest_time _ (by decide)).2 true 12 0 (by decide) (by decide)).mpr
    intro b hb
    unfold InTime
    revert b
    decide

end Winspire.Frontend
