import Winspire.Server.State

/-!
# The image on the host

The bytes of the image, the file pointer, and a record of every access. Any file operation may
fail or transfer less than was asked for. The rules say, for each function that touches the
image, which bytes it may touch and what they hold afterwards.
-/

namespace Winspire.Server

open Interaction Netblk

set_option autoImplicit false

structure Image where
  image : Nat → UInt8
  pos : Nat := 0
  /-- Offset and length of each access, latest first. -/
  touched : List (Nat × Nat) := []

def Image.touch (img : Image) (offset bytes : Nat) : Image :=
  { img with touched := (offset, bytes) :: img.touched }

/-- Memory-mapped accesses cannot fail. Where `faultless` holds, nothing fails and the clock is
not before the epoch. -/
def imageHost (faultless : Prop) : Env hostSig Image := fun img op r img' =>
  match op with
  | .time => img' = img ∧ (faultless → (0 : Int) ≤ r)
  | .readView offset bytes => r = slice img.image offset bytes ∧ img' = img.touch offset bytes
  | .writeView offset data =>
    img' = { img.touch offset data.length with image := blit img.image offset data }
  | .setFilePointer offset =>
    (r = true ∧ 0 ≤ offset ∧ img' = { img with pos := offset.toNat }) ∨
    (r = false ∧ ¬(faultless ∧ 0 ≤ offset) ∧ img' = img)
  | .readFile want =>
    (∃ j, j ≤ want ∧ (faultless → 0 < want → 0 < j) ∧ r = some (slice img.image img.pos j) ∧
      img' = { img.touch img.pos j with pos := img.pos + j }) ∨
    (r = none ∧ ¬faultless ∧ img' = img)
  | .writeFile data =>
    (∃ j, j ≤ data.length ∧ (faultless → 0 < data.length → 0 < j) ∧ r = some j ∧
      img' = { img.touch img.pos j with
        image := blit img.image img.pos (data.take j)
        pos := img.pos + j }) ∨
    (r = none ∧ ¬faultless ∧ img' = img)
  | .flushView => img' = img ∧ (faultless → r = true)
  | .flushFile => img' = img ∧ (faultless → r = true)

/-- Every new access lies in `[lo, hi)` and is at most `step` bytes long, and no other byte has
changed. -/
structure Touches (lo hi step : Nat) (img img' : Image) : Prop where
  accesses : ∃ new, img'.touched = new ++ img.touched ∧
    ∀ t ∈ new, (lo ≤ t.1 ∧ t.1 + t.2 ≤ hi) ∧ t.2 ≤ step
  outside : ∀ i, ¬(lo ≤ i ∧ i < hi) → img'.image i = img.image i

namespace Touches
variable {lo hi step : Nat} {img img' img'' : Image}

theorem refl (img : Image) : Touches lo hi step img img := ⟨⟨[], rfl, by simp⟩, fun _ _ => rfl⟩

theorem trans (h : Touches lo hi step img img') (h' : Touches lo hi step img' img'') :
    Touches lo hi step img img'' := by
  obtain ⟨new, hnew, hin⟩ := h.accesses
  obtain ⟨new', hnew', hin'⟩ := h'.accesses
  refine ⟨⟨new' ++ new, by rw [hnew', hnew, List.append_assoc], fun t ht => ?_⟩, fun i hi => ?_⟩
  · rcases List.mem_append.mp ht with ht | ht
    · exact hin' t ht
    · exact hin t ht
  · rw [h'.outside i hi, h.outside i hi]

theorem moved (img : Image) (pos : Nat) : Touches lo hi step img { img with pos := pos } :=
  ⟨⟨[], rfl, by simp⟩, fun _ _ => rfl⟩

theorem read {offset bytes : Nat} (hlo : lo ≤ offset) (hhi : offset + bytes ≤ hi)
    (hstep : bytes ≤ step) (pos : Nat) :
    Touches lo hi step img { img.touch offset bytes with pos := pos } := by
  refine ⟨⟨[(offset, bytes)], rfl, fun t ht => ?_⟩, fun _ _ => rfl⟩
  obtain rfl := List.mem_singleton.mp ht
  exact ⟨⟨hlo, hhi⟩, hstep⟩

theorem write {offset bytes : Nat} {data : List UInt8} (hlo : lo ≤ offset)
    (hhi : offset + bytes ≤ hi) (hstep : bytes ≤ step) (hlen : data.length ≤ bytes) (pos : Nat) :
    Touches lo hi step img { img.touch offset bytes with
      image := blit img.image offset data
      pos := pos } := by
  refine ⟨⟨[(offset, bytes)], rfl, fun t ht => ?_⟩, fun i hi => ?_⟩
  · obtain rfl := List.mem_singleton.mp ht
    exact ⟨⟨hlo, hhi⟩, hstep⟩
  · exact blit_apply_of_not_mem _ _ (by omega)

end Touches

section Rules
variable {faultless : Prop} {lo hi step : Nat}

/-- A file offset below 2^63 survives the cast to a signed number. -/
theorem toInt_of_lt {offset : UInt64} (h : offset.toNat < 2 ^ 63) :
    offset.toBitVec.toInt = offset.toNat := by
  rw [BitVec.toInt_eq_toNat_of_lt]
  · rfl
  · have hnat : offset.toBitVec.toNat = offset.toNat := rfl
    omega

theorem wp_readFileLoop (fuel want : Nat) (acc : List UInt8) {img : Image} (hfuel : want ≤ fuel)
    (hlo : lo ≤ img.pos) (hhi : img.pos + want ≤ hi) (hstep : want ≤ step) :
    wp (imageHost faultless) (readFileLoop fuel want acc) (fun r img' =>
      Touches lo hi step img img' ∧ img'.image = img.image ∧
      (faultless → r = some (acc ++ slice img.image img.pos want))) img := by
  induction fuel generalizing want acc img with
  | zero =>
    obtain rfl : want = 0 := by omega
    exact ⟨Touches.refl _, rfl, fun _ => by simp⟩
  | succ fuel ih =>
    cases want with
    | zero => exact ⟨Touches.refl _, rfl, fun _ => by simp⟩
    | succ want =>
      rintro r img' (⟨j, hj, hpos, rfl, rfl⟩ | ⟨rfl, hno, rfl⟩)
      · have htouch : Touches lo hi step img { img.touch img.pos j with pos := img.pos + j } :=
          Touches.read hlo (by omega) (by omega) _
        cases hdata : slice img.image img.pos j with
        | nil =>
          refine ⟨htouch, rfl, fun hf => absurd (congrArg List.length hdata) ?_⟩
          have := hpos hf (by omega)
          rw [length_slice]
          simp
          omega
        | cons b bs =>
          have hlen : (b :: bs).length = j := by rw [← hdata, length_slice]
          have hone : 1 ≤ j := by rw [← hlen, List.length_cons]; omega
          simp only [hlen]
          refine wp_mono (ih _ _ (by omega) (by simp; omega) (by simp; omega) (by omega))
            fun r img' ⟨htouch', himg', hall⟩ => ⟨htouch.trans htouch', himg', fun hf => ?_⟩
          rw [hall hf, List.append_assoc, ← hdata]
          simp only [Image.touch]
          rw [← slice_add]
          congr 3
          omega
      · exact ⟨Touches.refl _, rfl, fun hf => absurd hf hno⟩

theorem wp_writeFileLoop (fuel : Nat) (data : List UInt8) {img : Image} (hfuel : data.length ≤ fuel)
    (hlo : lo ≤ img.pos) (hhi : img.pos + data.length ≤ hi) (hstep : data.length ≤ step) :
    wp (imageHost faultless) (writeFileLoop fuel data) (fun ok img' =>
      Touches lo hi step img img' ∧ (ok = true → img'.image = blit img.image img.pos data) ∧
      (faultless → ok = true)) img := by
  induction fuel generalizing data img with
  | zero =>
    obtain rfl : data = [] := List.length_eq_zero_iff.mp (by omega)
    exact ⟨Touches.refl _, fun _ => (blit_nil _ _).symm, fun _ => rfl⟩
  | succ fuel ih =>
    cases data with
    | nil => exact ⟨Touches.refl _, fun _ => (blit_nil _ _).symm, fun _ => rfl⟩
    | cons b bs =>
      rintro r img' (⟨j, hj, hpos, rfl, rfl⟩ | ⟨rfl, hno, rfl⟩)
      · have htake : ((b :: bs).take j).length = j := List.length_take_of_le hj
        have htouch : Touches lo hi step img { img.touch img.pos j with
            image := blit img.image img.pos ((b :: bs).take j)
            pos := img.pos + j } :=
          Touches.write hlo (by omega) (by omega) (by omega) _
        cases j with
        | zero =>
          refine ⟨htouch, fun h => absurd h (by simp), fun hf => absurd (hpos hf ?_) (by omega)⟩
          simp
        | succ k =>
          have hdrop : ((b :: bs).drop (k + 1)).length = (b :: bs).length - (k + 1) :=
            List.length_drop
          refine wp_mono (ih _ (by omega) (by simp; omega) (by simp only; omega) (by omega))
            fun ok img' ⟨htouch', himg', hall⟩ =>
              ⟨htouch.trans htouch', fun hok => ?_, hall⟩
          have hjoin := blit_append img.image img.pos ((b :: bs).take (k + 1))
            ((b :: bs).drop (k + 1))
          rw [htake, List.take_append_drop] at hjoin
          rw [himg' hok, ← hjoin]
      · exact ⟨Touches.refl _, fun h => absurd h (by simp), fun hf => absurd hf hno⟩

theorem wp_writeImageExact (st : ServerState) {offset : UInt64} {data : List UInt8} {img : Image}
    (hlo : lo ≤ offset.toNat) (hhi : offset.toNat + data.length ≤ hi) (hsize : hi < 2 ^ 63)
    (hstep : data.length ≤ step) :
    wp (imageHost faultless) (writeImageExact st offset data) (fun ok img' =>
      Touches lo hi step img img' ∧ (ok = true → img'.image = blit img.image offset.toNat data) ∧
      (faultless → ok = true)) img := by
  unfold writeImageExact
  split
  · rintro r img' rfl
    exact ⟨Touches.write hlo hhi hstep (Nat.le_refl _) _, fun _ => rfl, fun _ => rfl⟩
  · unfold writeFileExact
    rw [toInt_of_lt (by omega)]
    rintro r img' (⟨rfl, _, rfl⟩ | ⟨rfl, hno, rfl⟩)
    · simp only [if_true]
      refine wp_mono (wp_writeFileLoop _ data (Nat.le_refl _) hlo hhi hstep)
        fun ok img'' ⟨htouch, hdone, hall⟩ => ⟨(Touches.moved _ _).trans htouch, hdone, hall⟩
    · simp only [Bool.false_eq_true, if_false]
      exact ⟨Touches.refl _, fun h => absurd h (by simp),
        fun hf => absurd ⟨hf, Int.natCast_nonneg _⟩ hno⟩

theorem wp_readImage (st : ServerState) {offset : UInt64} {bytes : UInt32} {img : Image}
    (hlo : lo ≤ offset.toNat) (hhi : offset.toNat + bytes.toNat ≤ hi) (hsize : hi < 2 ^ 63)
    (hstep : bytes.toNat ≤ step) :
    wp (imageHost faultless) (readImage st offset bytes) (fun r img' =>
      Touches lo hi step img img' ∧ img'.image = img.image ∧
      (faultless → r = some (slice img.image offset.toNat bytes.toNat))) img := by
  unfold readImage
  split
  · rintro r img' ⟨rfl, rfl⟩
    exact ⟨Touches.read hlo hhi hstep _, rfl, fun _ => rfl⟩
  · unfold readFileExact
    rw [toInt_of_lt (by omega)]
    rintro r img' (⟨rfl, _, rfl⟩ | ⟨rfl, hno, rfl⟩)
    · simp only [if_true]
      refine wp_mono (wp_readFileLoop _ _ [] (Nat.le_refl _) hlo hhi hstep)
        fun r img'' ⟨htouch, himg, hall⟩ => ⟨(Touches.moved _ _).trans htouch, himg, hall⟩
    · simp only [Bool.false_eq_true, if_false]
      exact ⟨Touches.refl _, rfl, fun hf => absurd ⟨hf, Int.natCast_nonneg _⟩ hno⟩

theorem wp_flushImage (st : ServerState) {img : Image} :
    wp (imageHost faultless) (flushImage st) (fun ok img' => img' = img ∧ (faultless → ok = true))
      img := by
  have hfile : ∀ ok : Bool, (faultless → ok = true) → wp (imageHost faultless)
      (if ok then Prog.perform (S := hostSig) .flushFile else .ret false)
      (fun ok img' => img' = img ∧ (faultless → ok = true)) img := by
    intro ok hok
    cases ok with
    | false => exact ⟨rfl, hok⟩
    | true =>
      rintro r img' ⟨rfl, hr⟩
      exact ⟨rfl, hr⟩
  unfold flushImage
  split
  · rintro r img' ⟨rfl, hr⟩
    exact hfile r hr
  · exact hfile true fun _ => rfl

theorem imageHost_total (img : Image) (op : HostOp) : ∃ r img', imageHost faultless img op r img' := by
  cases op with
  | time => exact ⟨(0 : Int), img, rfl, fun _ => Int.le_refl 0⟩
  | readView offset bytes => exact ⟨_, _, rfl, rfl⟩
  | writeView offset data => exact ⟨(), _, rfl⟩
  | setFilePointer offset =>
    by_cases h : 0 ≤ offset
    · exact ⟨true, _, Or.inl ⟨rfl, h, rfl⟩⟩
    · exact ⟨false, img, Or.inr ⟨rfl, fun hn => h hn.2, rfl⟩⟩
  | readFile want => exact ⟨_, _, Or.inl ⟨want, Nat.le_refl _, fun _ h => h, rfl, rfl⟩⟩
  | writeFile data => exact ⟨_, _, Or.inl ⟨data.length, Nat.le_refl _, fun _ h => h, rfl, rfl⟩⟩
  | flushView => exact ⟨true, img, rfl, fun _ => rfl⟩
  | flushFile => exact ⟨true, img, rfl, fun _ => rfl⟩

theorem imageHost_mono (img : Image) (op : HostOp) (r : hostSig.Answer op) (img' : Image)
    (h : imageHost faultless img op r img') : imageHost False img op r img' := by
  cases op with
  | time => exact ⟨h.1, False.elim⟩
  | readView offset bytes => exact h
  | writeView offset data => exact h
  | setFilePointer offset =>
    rcases h with h | ⟨hr, _, himg⟩
    · exact Or.inl h
    · exact Or.inr ⟨hr, fun hn => hn.1, himg⟩
  | readFile want =>
    rcases h with ⟨j, hj, _, hr, himg⟩ | ⟨hr, _, himg⟩
    · exact Or.inl ⟨j, hj, False.elim, hr, himg⟩
    · exact Or.inr ⟨hr, id, himg⟩
  | writeFile data =>
    rcases h with ⟨j, hj, _, hr, himg⟩ | ⟨hr, _, himg⟩
    · exact Or.inl ⟨j, hj, False.elim, hr, himg⟩
    · exact Or.inr ⟨hr, id, himg⟩
  | flushView => exact ⟨h.1, False.elim⟩
  | flushFile => exact ⟨h.1, False.elim⟩

end Rules

end Winspire.Server
