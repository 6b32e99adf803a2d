import Winspire.Sound.Stream
import Mathlib.Data.Nat.Find

/-!
# Changing the rate

Two counters run down together, one for the frames that come in and one for the frames that go
out. Each frame that goes out is the one that has come in last by then.
-/

namespace Winspire.Sound

set_option autoImplicit false

section Counters

variable {r t T : Nat}

theorem counter_ends (hr : 0 < r) (h : t % r + 1 = r) :
    (t + 1) / r = t / r + 1 ∧ (t + 1) % r = 0 := by
  have hsum : t + 1 = r * (t / r + 1) := by
    have hdiv := Nat.div_add_mod t r
    rw [Nat.mul_add, Nat.mul_one]
    omega
  rw [hsum]
  exact ⟨Nat.mul_div_cancel_left _ hr, Nat.mul_mod_right _ _⟩

theorem counter_goes (hr : 0 < r) (h : ¬t % r + 1 = r) :
    (t + 1) / r = t / r ∧ (t + 1) % r = t % r + 1 := by
  have hmod := Nat.mod_lt t hr
  have hsum : t + 1 = (t % r + 1) + r * (t / r) := by
    have hdiv := Nat.div_add_mod t r
    omega
  constructor
  · conv_lhs => rw [hsum]
    rw [Nat.add_mul_div_left _ _ hr, Nat.div_eq_of_lt (by omega), Nat.zero_add]
  · conv_lhs => rw [hsum]
    rw [Nat.add_mul_mod_self_left, Nat.mod_eq_of_lt (by omega)]

theorem counter_out {β : Type} (hr : 0 < r) (hT : t + 1 ≤ T) (f : Nat → β) :
    (if t % r + 1 = r then [f (t / r)] else []) ++
        (List.range' ((t + 1) / r) (T / r - (t + 1) / r)).map f =
      (List.range' (t / r) (T / r - t / r)).map f := by
  by_cases h : t % r + 1 = r
  · obtain ⟨hdiv, -⟩ := counter_ends hr h
    have hle : (t + 1) / r ≤ T / r := Nat.div_le_div_right hT
    have hmore : T / r - t / r = (T / r - (t + 1) / r) + 1 := by omega
    rw [if_pos h, hmore, List.range'_succ, List.map_cons, hdiv]
    rfl
  · obtain ⟨hdiv, -⟩ := counter_goes hr h
    rw [if_neg h, hdiv, List.nil_append]

end Counters

section Loop

variable {x : Input} {olen os is : Nat}

/-- The loop goes on after `t` turns. -/
def Going (x : Input) (olen os is t : Nat) : Prop :=
  x.step * (t / os) + (x.step - 1) < x.ilen ∧ 2 * (t / is) + 1 < olen

/-- The frame that goes out in place `k`. -/
def sourceOf (os is k : Nat) : Nat := ((k + 1) * is - 1) / os

theorem output_counter (his : 0 < is) (t : Nat) :
    (((is - t % is : Nat) : Int) - 1 = 0 ↔ t % is + 1 = is) ∧
      (if t % is + 1 = is then 2 * (t / is) + 2 else 2 * (t / is)) = 2 * ((t + 1) / is) ∧
      (if t % is + 1 = is then (is : Int) else ((is - t % is : Nat) : Int) - 1) =
        (is - (t + 1) % is : Nat) := by
  have hmod := Nat.mod_lt t his
  refine ⟨by omega, ?_⟩
  by_cases h : t % is + 1 = is
  · obtain ⟨hdiv, hrest⟩ := counter_ends his h
    rw [if_pos h, if_pos h, hdiv, hrest]
    omega
  · obtain ⟨hdiv, hrest⟩ := counter_goes his h
    rw [if_neg h, if_neg h, hdiv, hrest]
    omega

theorem sourceOf_last {t : Nat} (h : t % is + 1 = is) :
    sourceOf os is (t / is) = t / os := by
  have hsum : (t / is + 1) * is - 1 = t := by
    have hdiv := Nat.div_add_mod t is
    rw [Nat.add_mul, Nat.one_mul, Nat.mul_comm]
    omega
  rw [sourceOf, hsum]

instance (t : Nat) : Decidable (Going x olen os is t) := inferInstanceAs (Decidable (_ ∧ _))

/-- The loop after `t` turns. -/
def loopFrom (x : Input) (olen os is t : Nat) : List (Sample × Sample) × Nat :=
  resampleLoop x olen os is (x.step * (t / os)) (2 * (t / is)) (os - t % os) (is - t % is : Nat)

theorem loopFrom_ends {t : Nat} (h : ¬Going x olen os is t) :
    loopFrom x olen os is t = ([], x.step * (t / os)) := by
  unfold loopFrom
  rw [resampleLoop]
  exact if_neg h

theorem loopFrom_turn (hos : 0 < os) (his : 0 < is) {t : Nat} (h : Going x olen os is t) :
    loopFrom x olen os is t =
      ((if t % is + 1 = is then [x.frame (x.step * (t / os))] else []) ++
        (loopFrom x olen os is (t + 1)).1, (loopFrom x olen os is (t + 1)).2) := by
  obtain ⟨hiff, hjump, hcount⟩ := output_counter his t
  have hmod := Nat.mod_lt t hos
  unfold Going at h
  unfold loopFrom
  rw [resampleLoop, if_pos h]
  dsimp only
  simp only [hiff, hjump, hcount]
  by_cases hlast : t % os + 1 = os
  · obtain ⟨hdiv, hrest⟩ := counter_ends hos hlast
    rw [if_pos (by omega), hdiv, hrest, Nat.mul_add, Nat.mul_one, Nat.sub_zero]
  · obtain ⟨hdiv, hrest⟩ := counter_goes hos hlast
    have hless : os - t % os - 1 = os - (t % os + 1) := by omega
    rw [if_neg (by omega), hdiv, hrest, hless]

theorem loopFrom_all (hos : 0 < os) (his : 0 < is) {T : Nat} (hend : ¬Going x olen os is T) (n : Nat)
    {t : Nat} (ht : t + n = T) (hgo : ∀ u, t ≤ u → u < T → Going x olen os is u) :
    loopFrom x olen os is t =
      ((List.range' (t / is) (T / is - t / is)).map fun k => x.frame (x.step * sourceOf os is k),
        x.step * (T / os)) := by
  induction n generalizing t with
  | zero =>
    have hlast : t = T := ht
    subst hlast
    rw [loopFrom_ends hend, Nat.sub_self]
    rfl
  | succ n ih =>
    have hrest := ih (t := t + 1) (by omega) fun u hle hlt => hgo u (by omega) hlt
    rw [loopFrom_turn hos his (hgo t (Nat.le_refl t) (by omega)), hrest,
      ← counter_out his (show t + 1 ≤ T by omega)]
    dsimp only
    congr 2
    split
    · rename_i hlast
      rw [sourceOf_last hlast]
    · rfl

theorem going_ends (x : Input) (olen is : Nat) (hos : 0 < os) : ∃ T, ¬Going x olen os is T := by
  refine ⟨os * x.ilen, fun h => ?_⟩
  have hstep := x.step_pos
  have hlt := h.1
  rw [Nat.mul_div_cancel_left _ hos] at hlt
  have hle := Nat.le_mul_of_pos_left x.ilen hstep
  omega

/-- What the loop puts out and how far it gets. -/
structure Resampled (x : Input) (olen os is m n : Nat) : Prop where
  /-- The frames that go out have come in. -/
  inside : ∀ k, k < m → x.step * sourceOf os is k + (x.step - 1) < x.ilen
  /-- The output is not overrun. -/
  fits : 2 * m ≤ olen
  /-- Nothing more could be done. -/
  ends : ¬(x.step * n + (x.step - 1) < x.ilen ∧ 2 * m + 1 < olen)
  /-- The rates. -/
  rate : m * is < (n + 1) * os ∧ n * os < (m + 1) * is

theorem resampleLoop_resampled (x : Input) (olen : Nat) (hos : 0 < os) (his : 0 < is) :
    ∃ m n, Resampled x olen os is m n ∧ resampleLoop x olen os is 0 0 os is =
      ((List.range m).map fun k => x.frame (x.step * sourceOf os is k), x.step * n) := by
  have hfind := going_ends x olen is hos
  obtain ⟨T, hend, hmin⟩ : ∃ T, ¬Going x olen os is T ∧ ∀ u, u < T → Going x olen os is u :=
    ⟨Nat.find hfind, Nat.find_spec hfind, fun u hlt => by
      by_contra hnot
      exact Nat.find_min hfind hlt hnot⟩
  have hall := loopFrom_all hos his hend T (Nat.zero_add T) fun u _ hlt => hmin u hlt
  have hout : T / is * is ≤ T := Nat.div_mul_le_self T is
  have hin : T / os * os ≤ T := Nat.div_mul_le_self T os
  have hlast : ∀ k, k < T / is → Going x olen os is ((k + 1) * is - 1) := by
    intro k hk
    have hle : (k + 1) * is ≤ T := (Nat.mul_le_mul_right is hk).trans hout
    have hpos : 0 < (k + 1) * is := Nat.mul_pos (Nat.succ_pos k) his
    exact hmin _ (by omega)
  refine ⟨T / is, T / os, ⟨fun k hk => (hlast k hk).1, ?_, hend, ?_, ?_⟩, ?_⟩
  · rcases Nat.eq_zero_or_pos (T / is) with hzero | hpos
    · omega
    · have hgo := (hlast (T / is - 1) (by omega)).2
      have hplace : T / is - 1 ≤ ((T / is - 1 + 1) * is - 1) / is := by
        rw [Nat.le_div_iff_mul_le his, Nat.add_mul, Nat.one_mul]
        omega
      omega
  · have hlt := Nat.lt_mul_div_succ T hos
    rw [Nat.mul_comm] at hlt
    exact Nat.lt_of_le_of_lt hout hlt
  · have hlt := Nat.lt_mul_div_succ T his
    rw [Nat.mul_comm] at hlt
    exact Nat.lt_of_le_of_lt hin hlt
  · unfold loopFrom at hall
    rw [Nat.zero_div, Nat.zero_div, Nat.zero_mod, Nat.zero_mod, Nat.mul_zero, Nat.mul_zero,
      Nat.sub_zero, Nat.sub_zero, Nat.sub_zero, ← List.range_eq_range'] at hall
    exact hall

end Loop

namespace AudioFormat

def width : AudioFormat → Nat
  | s16 | u16 => 2
  | u8 | s8 => 1

/-- An element of the queue, as the output has it. -/
def sample (fmt : AudioFormat) (xs : List Byte) (i : Nat) : Sample :=
  match fmt with
  | s16 => xs.getD (2 * i + 1) 0 ++ xs.getD (2 * i) 0
  | u16 => (xs.getD (2 * i + 1) 0 ++ xs.getD (2 * i) 0) - 32768
  | u8 | s8 => (xs.getD i 0 - 128) ++ (0 : Byte)

end AudioFormat

namespace Sb16

def frameBytes (s : Sb16) : Nat := s.fmt.width * if s.fmtStereo then 2 else 1

def frameAt (s : Sb16) (i : Nat) : Sample × Sample :=
  if s.fmtStereo then (s.fmt.sample s.queued (2 * i), s.fmt.sample s.queued (2 * i + 1))
  else (s.fmt.sample s.queued i, s.fmt.sample s.queued i)

end Sb16

section Queue

variable {s : Sb16} {x : Input} {size : Nat}

theorem queued_getD {i : Nat} (h : i < s.queueLength) :
    s.queued.getD i 0 = s.audioBuf ((s.audioP.toNat + i) % audioBufLen) := by
  have hcell : audioRing.cell (s.audioP.toNat + i) = (s.audioP.toNat + i) % audioBufLen :=
    Nat.zero_add _
  unfold Sb16.queued Cyclic.read
  rw [List.getD_eq_getElem?_getD, List.getElem?_map, List.getElem?_range h, ← hcell]
  rfl

theorem queuedByte_eq {i : Nat} (h : i < s.queueLength) : s.queuedByte i = s.queued.getD i 0 := by
  rw [queued_getD h, Sb16.queuedByte, Nat.mod_add_mod]

theorem queuedWord_eq (heven : s.audioP.toNat % 2 = 0) {i : Nat} (h : 2 * i + 1 < s.queueLength) :
    s.queuedWord i = s.queued.getD (2 * i + 1) 0 ++ s.queued.getD (2 * i) 0 := by
  have hlow : 2 * ((s.audioP.toNat % audioBufLen / 2 + i) % (audioBufLen / 2)) =
      (s.audioP.toNat + 2 * i) % audioBufLen := by
    unfold audioBufLen
    omega
  have hhigh : 2 * ((s.audioP.toNat % audioBufLen / 2 + i) % (audioBufLen / 2)) + 1 =
      (s.audioP.toNat + (2 * i + 1)) % audioBufLen := by
    unfold audioBufLen
    omega
  rw [queued_getD h, queued_getD (by omega), Sb16.queuedWord, hhigh, hlow]

theorem input_sample (hfmt : s.fmt ≠ .s8) (heven : s.fmt = .u8 ∨ s.audioP.toNat % 2 = 0) :
    ∃ x, s.input s.queueLength = some (x, s.fmt.width) ∧ x.stereo = s.fmtStereo ∧
      x.ilen = s.queueLength / s.fmt.width ∧
      ∀ i, i < x.ilen → x.sample i = s.fmt.sample s.queued i := by
  unfold Sb16.input
  cases hf : s.fmt with
  | s16 =>
    refine ⟨_, rfl, rfl, rfl, fun i hi => ?_⟩
    have heven' : s.audioP.toNat % 2 = 0 := heven.resolve_left fun h => by rw [hf] at h; cases h
    change i < s.queueLength / 2 at hi
    exact queuedWord_eq heven' (by omega)
  | u16 =>
    refine ⟨_, rfl, rfl, rfl, fun i hi => ?_⟩
    have heven' : s.audioP.toNat % 2 = 0 := heven.resolve_left fun h => by rw [hf] at h; cases h
    change i < s.queueLength / 2 at hi
    exact congrArg (· - 32768) (queuedWord_eq heven' (by omega))
  | u8 =>
    refine ⟨_, rfl, rfl, (Nat.div_one _).symm, fun i hi => ?_⟩
    exact congrArg (fun b => (b - 128) ++ (0 : Byte)) (queuedByte_eq hi)
  | s8 => exact absurd hf hfmt

end Queue

/-- The frame of the queue that goes out in place `k`: at 44100 frames a second it is the last one
that has begun. -/
def sourceFrame (freq k : Nat) : Nat := ((k + 1) * freq - 1) / outputRate

/-- `m` frames go out, and `n` frames of the queue are used. -/
structure Plays (free m n : Nat) (s s' : Sb16) (out : List (Sample × Sample)) : Prop where
  out_eq : out = (List.range m).map fun k => s.frameAt (sourceFrame s.freq.toNat k)
  queued : s'.queued = s.queued.drop (n * s.frameBytes)
  inside : ∀ k, k < m → (sourceFrame s.freq.toNat k + 1) * s.frameBytes ≤ s.queueLength
  fits : 4 * m ≤ free
  ends : s.queueLength < (n + 1) * s.frameBytes ∨ free < 4 * m + 4
  slow : m * s.freq.toNat < (n + 1) * outputRate
  fast : n * outputRate < (m + 1) * s.freq.toNat

section Callback

variable {s : Sb16} {free freq : Nat}

theorem sourceOf_lowest (hfreq : 0 < freq) (k : Nat) :
    sourceOf (outputRate / Nat.gcd outputRate freq) (freq / Nat.gcd outputRate freq) k =
      sourceFrame freq k := by
  have hg : 0 < Nat.gcd outputRate freq := Nat.gcd_pos_of_pos_right _ hfreq
  have his : Nat.gcd outputRate freq * (freq / Nat.gcd outputRate freq) = freq :=
    Nat.mul_div_cancel' (Nat.gcd_dvd_right _ _)
  have hos : Nat.gcd outputRate freq * (outputRate / Nat.gcd outputRate freq) = outputRate :=
    Nat.mul_div_cancel' (Nat.gcd_dvd_left _ _)
  generalize freq / Nat.gcd outputRate freq = is at *
  generalize outputRate / Nat.gcd outputRate freq = os at *
  generalize Nat.gcd outputRate freq = g at *
  have hpos : 0 < (k + 1) * is := by
    apply Nat.mul_pos (Nat.succ_pos k)
    apply Nat.pos_of_ne_zero
    intro hzero
    rw [hzero, Nat.mul_zero] at his
    omega
  have hless : ((k + 1) * (g * is) - 1) / g = (k + 1) * is - 1 := by
    rw [Nat.mul_left_comm]
    generalize (k + 1) * is = a at *
    have hsum : g * a - 1 = (g - 1) + g * (a - 1) := by
      have hmul : g * a = g * (a - 1) + g := by
        rw [← Nat.mul_succ, Nat.succ_eq_add_one, Nat.sub_add_cancel hpos]
      omega
    rw [hsum, Nat.add_mul_div_left _ _ hg, Nat.div_eq_of_lt (by omega), Nat.zero_add]
  unfold sourceOf sourceFrame
  rw [← his, ← hos, ← Nat.div_div_eq_div_mul, hless]

theorem input_frame {x : Input} (hstereo : x.stereo = s.fmtStereo)
    (hsample : ∀ i, i < x.ilen → x.sample i = s.fmt.sample s.queued i) {i : Nat}
    (h : x.step * i + (x.step - 1) < x.ilen) : x.frame (x.step * i) = s.frameAt i := by
  unfold Input.step at h
  unfold Input.frame Input.step Sb16.frameAt
  rw [hstereo] at h ⊢
  cases hb : s.fmtStereo with
  | true =>
    rw [hb] at h
    simp only [if_true] at h ⊢
    rw [hsample _ (by omega), hsample _ (by omega)]
  | false =>
    rw [hb] at h
    simp only [Bool.false_eq_true, if_false] at h ⊢
    rw [Nat.one_mul, hsample _ (by omega)]

theorem audioCallback_run {x : Input} {size : Nat} (hq : s.queueLength ≤ audioBufLen)
    (hactive : s.activeOut = true) (hx : s.input s.queueLength = some (x, size)) :
    audioCallback free s =
      ({ s with
          audioFree := BitVec.ofNat 32 free
          audioP := s.audioP + BitVec.ofNat 32
            ((resample x (free / 2) outputRate s.freq.toNat).2 * size) },
        (resample x (free / 2) outputRate s.freq.toNat).1) := by
  have hfits : ¬audioBufLen < (s.audioQ - s.audioP).toNat := Nat.not_lt_of_le hq
  have hidle : ¬s.activeOut = false := by
    rw [hactive]
    exact Bool.noConfusion
  have hinput : Sb16.input { s with audioFree := BitVec.ofNat 32 free }
      (s.audioQ - s.audioP).toNat = some (x, size) := hx
  unfold audioCallback
  dsimp only
  rw [if_neg hidle, if_neg hfits, hinput]

theorem scale_lt {a b m n g : Nat} (hg : 0 < g) (h : m * a < n * b) :
    m * (g * a) < n * (g * b) := by
  rw [Nat.mul_left_comm m, Nat.mul_left_comm n]
  exact Nat.mul_lt_mul_of_pos_left h hg

theorem width_pos (fmt : AudioFormat) : 0 < fmt.width := by
  cases fmt <;> decide

/-- The two rates in lowest terms. -/
theorem resample_resampled (x : Input) (olen : Nat) (hfreq : 0 < freq) :
    ∃ m n, Resampled x olen (outputRate / Nat.gcd outputRate freq)
        (freq / Nat.gcd outputRate freq) m n ∧
      resample x olen outputRate freq =
        ((List.range m).map fun k => x.frame (x.step * sourceFrame freq k), x.step * n) := by
  have hg : 0 < Nat.gcd outputRate freq := Nat.gcd_pos_of_pos_right _ hfreq
  have hos : 0 < outputRate / Nat.gcd outputRate freq :=
    Nat.div_pos (Nat.gcd_le_left _ (by decide)) hg
  have his : 0 < freq / Nat.gcd outputRate freq := Nat.div_pos (Nat.gcd_le_right _ hfreq) hg
  obtain ⟨m, n, hr, hloop⟩ := resampleLoop_resampled x olen hos his
  refine ⟨m, n, hr, ?_⟩
  unfold resample
  dsimp only
  rw [hloop]
  simp only [sourceOf_lowest hfreq]

theorem Resampled.rates {x : Input} {olen m n : Nat} (hfreq : 0 < freq)
    (h : Resampled x olen (outputRate / Nat.gcd outputRate freq)
      (freq / Nat.gcd outputRate freq) m n) :
    m * freq < (n + 1) * outputRate ∧ n * outputRate < (m + 1) * freq := by
  have hg : 0 < Nat.gcd outputRate freq := Nat.gcd_pos_of_pos_right _ hfreq
  have his : Nat.gcd outputRate freq * (freq / Nat.gcd outputRate freq) = freq :=
    Nat.mul_div_cancel' (Nat.gcd_dvd_right _ _)
  have hos : Nat.gcd outputRate freq * (outputRate / Nat.gcd outputRate freq) = outputRate :=
    Nat.mul_div_cancel' (Nat.gcd_dvd_left _ _)
  have hslow := scale_lt hg h.rate.1
  have hfast := scale_lt hg h.rate.2
  rw [his, hos] at hslow hfast
  exact ⟨hslow, hfast⟩

theorem frameBytes_eq {x : Input} (hstereo : x.stereo = s.fmtStereo) :
    s.frameBytes = x.step * s.fmt.width := by
  unfold Sb16.frameBytes Input.step
  rw [hstereo, Nat.mul_comm]

/-- The frames before `n` are whole. -/
theorem Input.whole {x : Input} {n : Nat} (h : x.step * n + (x.step - 1) < x.ilen) :
    (n + 1) * x.step ≤ x.ilen := by
  have hstep := x.step_pos
  rw [Nat.add_mul, Nat.one_mul, Nat.mul_comm]
  omega

theorem Input.not_whole {x : Input} {n : Nat} (h : ¬x.step * n + (x.step - 1) < x.ilen) :
    x.ilen < (n + 1) * x.step := by
  have hstep := x.step_pos
  rw [Nat.add_mul, Nat.one_mul, Nat.mul_comm]
  omega

/-- Every frame that goes out is the one of the queue whose turn it is, and the callback goes on
until the stream is full or no whole frame is left. -/
theorem audioCallback_plays (hq : s.queueLength ≤ audioBufLen) (hactive : s.activeOut = true)
    (hfmt : s.fmt ≠ .s8) (heven : s.fmt = .u8 ∨ s.audioP.toNat % 2 = 0) (hfreq : 0 < s.freq) :
    ∃ m n, Plays free m n s (audioCallback free s).1 (audioCallback free s).2 := by
  have hfreq' : 0 < s.freq.toNat := by omega
  obtain ⟨x, hx, hstereo, hilen, hsample⟩ := input_sample hfmt heven
  obtain ⟨m, n, hr, hres⟩ := resample_resampled x (free / 2) hfreq'
  have hframe := frameBytes_eq hstereo
  have hwidth : x.ilen * s.fmt.width ≤ s.queueLength := input_le hx
  have hused : x.step * n ≤ x.ilen := by
    have hle := resample_le x (free / 2) outputRate s.freq.toNat
    rw [hres] at hle
    exact hle
  have hrun : audioCallback free s =
      ({ s with
          audioFree := BitVec.ofNat 32 free
          audioP := s.audioP + BitVec.ofNat 32 (x.step * n * s.fmt.width) },
        (List.range m).map fun k => x.frame (x.step * sourceFrame s.freq.toNat k)) := by
    rw [audioCallback_run hq hactive hx, hres]
  have htakes : Takes (x.step * n * s.fmt.width) s (audioCallback free s).1 := by
    rw [hrun]
    exact ⟨rfl, (Nat.mul_le_mul_right _ hused).trans hwidth⟩
  have hcount : x.step * n * s.fmt.width = n * s.frameBytes := by
    rw [hframe, Nat.mul_comm x.step n, Nat.mul_assoc]
  have hinside : ∀ k, k < m →
      x.step * sourceFrame s.freq.toNat k + (x.step - 1) < x.ilen := by
    intro k hk
    rw [← sourceOf_lowest hfreq']
    exact hr.inside k hk
  refine ⟨m, n, ?_⟩
  exact
    { out_eq := by
        rw [hrun]
        apply List.map_congr_left
        intro k hk
        exact input_frame hstereo hsample (hinside k (List.mem_range.mp hk))
      queued := by rw [htakes.queued, hcount]
      inside := fun k hk => by
        rw [hframe, ← Nat.mul_assoc]
        exact (Nat.mul_le_mul_right _ (Input.whole (hinside k hk))).trans hwidth
      fits := by
        have hle := hr.fits
        omega
      ends := by
        by_cases hfull : 2 * m + 1 < free / 2
        · left
          have hlt := Input.not_whole fun h => hr.ends ⟨h, hfull⟩
          rw [hilen, Nat.div_lt_iff_lt_mul (width_pos s.fmt)] at hlt
          rw [hframe, ← Nat.mul_assoc]
          exact hlt
        · right
          omega
      slow := (hr.rates hfreq').1
      fast := (hr.rates hfreq').2 }

/-- Four samples wait, at half the rate of the output. -/
def fourSamples : Sb16 :=
  ⟨5, false, false, 8, .u8, true, 4, false, 22050, -1, true, false, false, 4, true, 22050, 0, 64,
    fun i => BitVec.ofNat 8 (32 * i), 0, 4, true, true, 0, 0, []⟩

/-- Each of the four goes out twice. -/
theorem audioCallback_plays_fourSamples :
    Plays 64 8 4 fourSamples (audioCallback 64 fourSamples).1 (audioCallback 64 fourSamples).2 := by
  have hq : fourSamples.queueLength ≤ audioBufLen := by
    unfold Sb16.queueLength audioBufLen
    decide
  obtain ⟨m, n, h⟩ : ∃ m n, Plays 64 m n fourSamples _ _ :=
    audioCallback_plays hq rfl (by decide) (.inl rfl) (by decide)
  have hm : m ≤ 8 := by
    by_contra hmore
    have hinside := h.inside 8 (by omega)
    have hbehind : fourSamples.queueLength < (sourceFrame fourSamples.freq.toNat 8 + 1) *
        fourSamples.frameBytes := by decide
    omega
  have hends : 4 < (n + 1) * 1 ∨ 64 < 4 * m + 4 := h.ends
  have hfast : n * 44100 < (m + 1) * 22050 := h.fast
  obtain rfl : m = 8 := by omega
  obtain rfl : n = 4 := by omega
  exact h

end Callback

end Winspire.Sound
