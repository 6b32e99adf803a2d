import Winspire.Lib.Cyclic
import Winspire.Net.Ne2000

/-!
# Frames in the ring

Positions in the ring are counted without end. The frames that wait are a chain from the position of
the first one to that of the next one to come, and the pages before the boundary may be written.
-/

namespace Winspire.Net

set_option autoImplicit false

def page (p : Byte) : Nat := p.toNat * 256

namespace Ne2000

variable {s t : Ne2000} {ring : Cyclic} {m m' : Nat → Byte} {f : List Byte}
  {fs gs : List (List Byte)} {b h i j n : Nat}

theorem page_word (p : Byte) : (p.setWidth 32 <<< 8).toNat = page p := by
  have hlt := p.isLt
  unfold page
  rw [BitVec.toNat_shiftLeft, BitVec.toNat_setWidth, Nat.shiftLeft_eq]
  omega

theorem page_inj {p q : Byte} (heq : page p = page q) : p = q := by
  unfold page at heq
  exact BitVec.eq_of_toNat_eq (by omega)

theorem page_of {w : Word} (hdvd : 256 ∣ w.toNat) (hlt : w.toNat < 2 ^ 16) :
    page ((w >>> 8).setWidth 8) = w.toNat := by
  unfold page
  rw [BitVec.toNat_setWidth, BitVec.toNat_ushiftRight, Nat.shiftRight_eq_div_pow]
  omega

/-- The registers hold a ring in the memory of packets. -/
structure SetUp (s : Ne2000) (ring : Cyclic) : Prop where
  start : s.start.toNat = ring.base
  stop : s.stop.toNat = ring.base + ring.size
  base_dvd : 256 ∣ ring.base
  size_dvd : 256 ∣ ring.size
  low : 0x4000 ≤ ring.base
  high : ring.base + ring.size ≤ 0xc000

theorem SetUp.cell_dvd (hs : s.SetUp ring) (hi : 256 ∣ i) : 256 ∣ ring.cell i :=
  Nat.dvd_add hs.base_dvd ((Nat.dvd_mod_iff hs.size_dvd).mpr hi)

theorem SetUp.page_dvd {p : Byte} (hs : s.SetUp ring) (hp : page p = ring.cell i) : 256 ∣ i := by
  have hpage : 256 ∣ page p := Nat.dvd_mul_left 256 _
  rw [hp] at hpage
  have hmod := (Nat.dvd_add_right hs.base_dvd).mp hpage
  exact (Nat.dvd_mod_iff hs.size_dvd).mp hmod

theorem SetUp.cell_page (hs : s.SetUp ring) (hi : 256 ∣ i) (hn : n < 256) :
    ring.cell (i + n) = ring.cell i + n := by
  have hdvd := hs.cell_dvd hi
  have hbase := hs.base_dvd
  have hsize := hs.size_dvd
  obtain ⟨hlow, hhigh⟩ := ring.cell_inside i
  apply Cyclic.cell_add
  omega

/-- The bytes of a frame with its header, in whole pages. -/
def span (f : List Byte) : Nat := (f.length + 263) / 256 * 256

theorem span_dvd (f : List Byte) : 256 ∣ span f := Nat.dvd_mul_left 256 _

theorem span_gt (f : List Byte) : f.length + 8 ≤ span f := by
  unfold span
  omega

theorem storeFrame_eq (hs : s.SetUp ring) {index : Word} (hindex : index.toNat = ring.cell i) :
    storeFrame s.start s.stop m index f = some (ring.put m i f) := by
  induction hn : f.length using Nat.strong_induction_on generalizing m index i f with
  | _ n ih =>
    have hstart := hs.start
    have hstop := hs.stop
    have hhigh := hs.high
    obtain ⟨hlow, hlt⟩ := ring.cell_inside i
    unfold storeFrame
    split
    · rename_i hnil
      rw [hnil]
      rfl
    rename_i hne
    have hpos := List.length_pos_iff.mpr hne
    have hle : index ≤ s.stop := by
      rw [BitVec.le_def]
      omega
    have hroom : (room s.stop index).toNat = ring.base + ring.size - ring.cell i := by
      unfold room
      rw [if_pos hle, BitVec.toNat_sub_of_le hle, hstop, hindex]
    dsimp only
    rw [hroom]
    generalize hlen : min f.length (ring.base + ring.size - ring.cell i) = len
    have hzero : ¬len = 0 := by omega
    rw [if_neg hzero]
    have htake : (f.take len).length = len := by
      rw [List.length_take]
      omega
    have hnext : (index + BitVec.ofNat 32 len).toNat = ring.cell i + len := by
      rw [BitVec.toNat_add, BitVec.toNat_ofNat, hindex]
      omega
    have hcell : (if index + BitVec.ofNat 32 len = s.stop then s.start else
        index + BitVec.ofNat 32 len).toNat = ring.cell (i + len) := by
      split
      · rename_i hend
        have hat : ring.cell i + len = ring.base + ring.size := by
          rw [← hnext, hend, hstop]
        have hwrap := ring.cell_wrap (i := i) (n := len) (by omega) (by omega)
        omega
      · rename_i hin
        have hnot : ring.cell i + len ≠ ring.base + ring.size := by
          intro hat
          apply hin
          apply BitVec.eq_of_toNat_eq
          omega
        rw [hnext]
        exact (Cyclic.cell_add (by omega)).symm
    have hblit : blit m index.toNat (f.take len) = ring.put m i (f.take len) := by
      rw [hindex]
      exact Cyclic.blit_eq_put (by omega)
    have hdrop : (f.drop len).length < n := by
      rw [List.length_drop]
      omega
    have hwhole : ring.put m i f = ring.put (ring.put m i (f.take len)) (i + len) (f.drop len) := by
      have happ := Cyclic.put_append (c := ring) (m := m) (i := i) (f.take len) (f.drop len)
      rw [List.take_append_drop, htake] at happ
      exact happ
    rw [hblit, hwhole]
    exact ih _ hdrop hcell rfl

/-- A frame with its header is in the ring, and the header has the page behind it. -/
structure Stored (ring : Cyclic) (m : Nat → Byte) (i : Nat) (f : List Byte) : Prop where
  length : f.length ≤ maxEthFrameSize
  bytes : ∃ next : Word, page ((next >>> 8).setWidth 8) = ring.cell (i + span f) ∧
    ring.read m i (4 + f.length) = header f next ++ f

/-- Frames from a position to another, one after the other. -/
def Chain (ring : Cyclic) (m : Nat → Byte) : Nat → List (List Byte) → Nat → Prop
  | i, [], j => i = j
  | i, f :: fs, j => Stored ring m i f ∧ Chain ring m (i + span f) fs j

theorem Chain.le (h : Chain ring m i fs j) : i ≤ j := by
  induction fs generalizing i with
  | nil => exact Nat.le_of_eq h
  | cons f fs ih => exact Nat.le_trans (Nat.le_add_right i _) (ih h.2)

theorem Stored.congr (hf : Stored ring m i f)
    (hsame : ∀ k, i ≤ k → k < i + span f → m' (ring.cell k) = m (ring.cell k)) :
    Stored ring m' i f := by
  obtain ⟨hlength, next, hpage, hbytes⟩ := hf
  have hspan := span_gt f
  refine ⟨hlength, next, hpage, ?_⟩
  rw [← hbytes]
  apply Cyclic.read_congr
  intro k hi hk
  exact hsame k hi (by omega)

theorem Chain.congr (h : Chain ring m i fs j)
    (hsame : ∀ k, i ≤ k → k < j → m' (ring.cell k) = m (ring.cell k)) : Chain ring m' i fs j := by
  induction fs generalizing i with
  | nil => exact h
  | cons f fs ih =>
    obtain ⟨hf, hfs⟩ := h
    have hle := hfs.le
    constructor
    · exact hf.congr fun k hi hk => hsame k hi (by omega)
    · exact ih hfs fun k hi hk => hsame k (by omega) hk

theorem Chain.append (h : Chain ring m i fs n) (h' : Chain ring m n gs j) :
    Chain ring m i (fs ++ gs) j := by
  induction fs generalizing i with
  | nil =>
    rw [show i = n from h]
    exact h'
  | cons f fs ih => exact ⟨h.1, ih h.2⟩

/-- Pages from `b` on are not written, frames wait from `h` on, and the next one comes to `j`. -/
structure Holds (s : Ne2000) (ring : Cyclic) (b h : Nat) (fs : List (List Byte)) (j : Nat) :
    Prop where
  setUp : s.SetUp ring
  boundary : page s.boundary = ring.cell b
  curpag : page s.curpag = ring.cell j
  dvd_first : 256 ∣ h
  dvd_next : 256 ∣ j
  dvd_boundary : 256 ∣ b
  boundary_le : b ≤ h
  near : j < b + ring.size
  chain : Chain ring s.mem h fs j

/-- The free bytes are those that are not from the boundary to the next frame. -/
theorem Holds.available (hs : s.Holds ring b h fs j) :
    s.available.toNat = ring.size - (j - b) := by
  have hle : b ≤ j := Nat.le_trans hs.boundary_le hs.chain.le
  have hnear := hs.near
  have hstart := hs.setUp.start
  have hstop := hs.setUp.stop
  have hhigh := hs.setUp.high
  have hboundary := hs.boundary
  have hcurpag := hs.curpag
  have hindex := page_word s.curpag
  have hbound := page_word s.boundary
  obtain ⟨hlow, hlt⟩ := ring.cell_inside b
  obtain ⟨hlow', hlt'⟩ := ring.cell_inside j
  have hj : b + (j - b) = j := by omega
  have hsize : (s.stop - s.start).toNat = ring.size := by
    rw [BitVec.toNat_sub_of_le (by rw [BitVec.le_def]; omega)]
    omega
  unfold Ne2000.available
  dsimp only
  generalize s.curpag.setWidth 32 <<< 8 = index at *
  generalize s.boundary.setWidth 32 <<< 8 = bound at *
  rcases Nat.lt_or_ge (ring.cell b + (j - b)) (ring.base + ring.size) with hstay | hpast
  · have hcell := Cyclic.cell_add hstay
    rw [hj] at hcell
    have hnot : ¬index < bound := by
      rw [BitVec.lt_def]
      omega
    have hsub : (index - bound).toNat = j - b := by
      rw [BitVec.toNat_sub_of_le (by rw [BitVec.le_def]; omega)]
      omega
    rw [if_neg hnot, BitVec.toNat_sub_of_le (by rw [BitVec.le_def]; omega), hsize, hsub]
  · have hcell := Cyclic.cell_wrap hpast (by omega)
    rw [hj] at hcell
    have hless : index < bound := by
      rw [BitVec.lt_def]
      omega
    rw [if_pos hless, BitVec.toNat_sub_of_le (by rw [BitVec.le_def]; omega)]
    omega

theorem Holds.bufferFull (hs : s.Holds ring b h fs j) :
    s.bufferFull = decide (ring.size - (j - b) < 1518) := by
  have havailable := hs.available
  have hhigh := hs.setUp.high
  unfold Ne2000.bufferFull
  have hint : s.available.toInt = (ring.size - (j - b) : Nat) := by
    rw [BitVec.toInt_eq_toNat_of_lt (by omega), havailable]
  rw [hint]
  apply decide_eq_decide.mpr
  unfold maxEthFrameSize
  omega

end Ne2000

end Winspire.Net
