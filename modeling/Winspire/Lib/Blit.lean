import Mathlib.Data.List.Basic

/-!
# Copying runs of cells

A memory, a disk or a buffer is a total map from addresses. `blit` overwrites a run of
consecutive cells, `slice` reads one. Nothing here depends on what a cell holds.
-/

namespace Winspire

set_option autoImplicit false

variable {α : Type}

/-- Overwrite the cells from `a` on by the elements of `xs`. -/
def blit (m : Nat → α) (a : Nat) (xs : List α) : Nat → α := fun i =>
  if a ≤ i then xs.getD (i - a) (m i) else m i

/-- The `n` cells from `a` on. -/
def slice (m : Nat → α) (a n : Nat) : List α := (List.range n).map fun i => m (a + i)

theorem blit_apply_of_lt (m : Nat → α) {a i : Nat} (xs : List α) (h : i < a) :
    blit m a xs i = m i := by
  simp [blit, Nat.not_le.mpr h]

theorem blit_apply_of_ge (m : Nat → α) {a i : Nat} (xs : List α) (h : a + xs.length ≤ i) :
    blit m a xs i = m i := by
  have hlen : xs.length ≤ i - a := by omega
  simp [blit, List.getElem?_eq_none hlen]

theorem blit_apply_add (m : Nat → α) (a : Nat) (xs : List α) {j : Nat} (h : j < xs.length) :
    blit m a xs (a + j) = xs[j] := by
  simp [blit, List.getElem?_eq_getElem h]

theorem blit_apply_of_not_mem (m : Nat → α) {a i : Nat} (xs : List α)
    (h : ¬(a ≤ i ∧ i < a + xs.length)) : blit m a xs i = m i := by
  by_cases ha : a ≤ i
  · exact blit_apply_of_ge m xs (by omega)
  · exact blit_apply_of_lt m xs (by omega)

@[simp] theorem blit_nil (m : Nat → α) (a : Nat) : blit m a [] = m := by
  funext i
  simp [blit]

theorem blit_append (m : Nat → α) (a : Nat) (xs ys : List α) :
    blit (blit m a xs) (a + xs.length) ys = blit m a (xs ++ ys) := by
  funext i
  by_cases h₁ : i < a
  · simp [blit, Nat.not_le.mpr h₁, show ¬a + xs.length ≤ i by omega]
  by_cases h₂ : i < a + xs.length
  · simp [blit, show ¬a + xs.length ≤ i by omega, show a ≤ i by omega,
      List.getElem?_append_left (show i - a < xs.length by omega)]
  · simp [blit, show a + xs.length ≤ i by omega, show a ≤ i by omega,
      List.getElem?_append_right (show xs.length ≤ i - a by omega),
      List.getElem?_eq_none (show xs.length ≤ i - a by omega),
      show i - (a + xs.length) = i - a - xs.length by omega]

@[simp] theorem length_slice (m : Nat → α) (a n : Nat) : (slice m a n).length = n := by
  simp [slice]

@[simp] theorem getElem_slice (m : Nat → α) (a n : Nat) {j : Nat} (h : j < (slice m a n).length) :
    (slice m a n)[j] = m (a + j) := by
  simp [slice]

@[simp] theorem slice_zero (m : Nat → α) (a : Nat) : slice m a 0 = [] := rfl

theorem slice_add (m : Nat → α) (a n k : Nat) :
    slice m a (n + k) = slice m a n ++ slice m (a + n) k := by
  simp [slice, List.range_add, Nat.add_assoc, Function.comp_def]

theorem slice_congr {m m' : Nat → α} {a n : Nat} (h : ∀ i, a ≤ i → i < a + n → m i = m' i) :
    slice m a n = slice m' a n := by
  apply List.map_congr_left
  intro i hi
  have hlt := List.mem_range.mp hi
  exact h (a + i) (by omega) (by omega)

theorem apply_eq_of_slice_eq {m m' : Nat → α} {a n i : Nat} (h : slice m a n = slice m' a n)
    (hi : i < n) : m (a + i) = m' (a + i) := by
  rw [← getElem_slice m a n (j := i) (by simpa using hi),
    ← getElem_slice m' a n (j := i) (by simpa using hi)]
  simp only [h]

theorem blit_slice_apply (m m' : Nat → α) (a b n i : Nat) :
    blit m a (slice m' b n) i = if a ≤ i ∧ i < a + n then m' (b + (i - a)) else m i := by
  by_cases h : a ≤ i ∧ i < a + n
  · have hj := blit_apply_add m a (slice m' b n) (j := i - a) (by simp; omega)
    rw [show a + (i - a) = i by omega] at hj
    simp [hj, h]
  · rw [if_neg h]
    exact blit_apply_of_not_mem m _ (by simpa using h)

theorem slice_blit_self (m : Nat → α) (a : Nat) (xs : List α) :
    slice (blit m a xs) a xs.length = xs := by
  apply List.ext_getElem (by simp)
  intro j h₁ h₂
  rw [getElem_slice, blit_apply_add m a xs h₂]

theorem slice_blit_of_disjoint (m : Nat → α) {a b n : Nat} (xs : List α)
    (h : b + n ≤ a ∨ a + xs.length ≤ b) : slice (blit m a xs) b n = slice m b n := by
  apply slice_congr
  intro i hi hi'
  apply blit_apply_of_not_mem
  omega

theorem slice_blit_middle (m : Nat → α) (a : Nat) (xs ys zs : List α) :
    slice (blit m a (xs ++ ys ++ zs)) (a + xs.length) ys.length = ys := by
  rw [← blit_append, List.length_append,
    slice_blit_of_disjoint _ zs (.inl (Nat.le_of_eq (Nat.add_assoc a _ _))), ← blit_append,
    slice_blit_self]

theorem slice_drop_take (m : Nat → α) (a : Nat) {n k j : Nat} (h : k + j ≤ n) :
    ((slice m a n).drop k).take j = slice m (a + k) j := by
  apply List.ext_getElem (by simp; omega)
  intro i _ _
  simp [Nat.add_assoc]

/-- What a run of cells from `a` on says about a cell. -/
def overlay (a : Nat) (xs : List α) (i : Nat) : Option α := if a ≤ i then xs[i - a]? else none

theorem blit_eq_overlay (m : Nat → α) (a : Nat) (xs : List α) (i : Nat) :
    blit m a xs i = (overlay a xs i).getD (m i) := by
  unfold blit overlay
  split
  · rw [List.getD_eq_getElem?_getD]
  · rfl

@[simp] theorem overlay_nil (a i : Nat) : overlay a ([] : List α) i = none := by
  simp [overlay]

theorem overlay_singleton (a : Nat) (v : α) (i : Nat) :
    overlay a [v] i = if i = a then some v else none := by
  unfold overlay
  by_cases h : i = a
  · simp [h]
  · by_cases ha : a ≤ i
    · simp [h, ha, List.getElem?_eq_none (show [v].length ≤ i - a by simp; omega)]
    · simp [h, ha]

theorem overlay_cons (a : Nat) (v : α) (xs : List α) (i : Nat) :
    overlay a (v :: xs) i = (overlay (a + 1) xs i).or (overlay a [v] i) := by
  rw [overlay_singleton]
  unfold overlay
  by_cases h : i = a
  · simp [h, show ¬a + 1 ≤ a by omega]
  · by_cases ha : a ≤ i
    · simp [h, ha, show a + 1 ≤ i by omega, show i - a = (i - (a + 1)) + 1 by omega]
    · simp [h, ha, show ¬a + 1 ≤ i by omega]

theorem overlay_slice (m : Nat → α) (a b n i : Nat) :
    overlay a (slice m b n) i = if a ≤ i ∧ i < a + n then some (m (b + (i - a))) else none := by
  unfold overlay
  by_cases ha : a ≤ i
  · by_cases hlt : i - a < n
    · rw [if_pos ha, if_pos (by omega), List.getElem?_eq_getElem (by simpa using hlt), getElem_slice]
    · rw [if_pos ha, if_neg (by omega), List.getElem?_eq_none (by simpa using hlt)]
  · rw [if_neg ha, if_neg (by omega)]

theorem slice_succ (m : Nat → α) (a n : Nat) : slice m a (n + 1) = m a :: slice m (a + 1) n := by
  rw [Nat.add_comm, slice_add]
  rfl

section Cells
variable {n : Nat}

/-- Fixed-size cells laid out one after the other. -/
def flattenCells (cells : List (Fin n → α)) : List α := cells.flatMap List.ofFn

/-- The first `count` cells of `n` elements of a flat list; `d` fills a short last cell. -/
def groupCells (n : Nat) (d : α) (count : Nat) (xs : List α) : List (Fin n → α) :=
  (List.range count).map fun i j => xs.getD (i * n + j) d

@[simp] theorem length_flattenCells (cells : List (Fin n → α)) :
    (flattenCells cells).length = cells.length * n := by
  induction cells with
  | nil => simp [flattenCells]
  | cons c rest ih =>
    simp only [flattenCells, List.flatMap_cons, List.length_append, List.length_ofFn,
      List.length_cons, Nat.add_mul, Nat.one_mul] at ih ⊢
    rw [ih, Nat.add_comm]

theorem flattenCells_getElem? (cells : List (Fin n → α)) {i : Nat} (hi : i < cells.length)
    (j : Fin n) : (flattenCells cells)[i * n + j]? = some (cells[i] j) := by
  induction cells generalizing i with
  | nil => simp at hi
  | cons c rest ih =>
    simp only [flattenCells, List.flatMap_cons] at ih ⊢
    cases i with
    | zero => rw [List.getElem?_append_left (by simp)]; simp
    | succ i =>
      have hlt : i < rest.length := by simpa using hi
      have hstart : (i + 1) * n + j - n = i * n + j := by
        rw [Nat.add_mul]
        omega
      rw [List.getElem?_append_right (by simp [Nat.add_mul]; omega), List.length_ofFn, hstart,
        ih hlt]
      rfl

theorem groupCells_flattenCells (d : α) (cells : List (Fin n → α)) :
    groupCells n d cells.length (flattenCells cells) = cells := by
  apply List.ext_getElem (by simp [groupCells])
  intro i _ hi
  simp only [groupCells, List.getElem_map, List.getElem_range]
  funext j
  simp [flattenCells_getElem? cells hi j]

/-- A flat memory seen as a memory of cells. -/
def cellsOf (n : Nat) (m : Nat → α) : Nat → Fin n → α := fun i j => m (i * n + j)

theorem flattenCells_slice (m : Nat → α) (a k : Nat) :
    flattenCells (slice (cellsOf n m) a k) = slice m (a * n) (k * n) := by
  induction k generalizing a with
  | zero => simp [flattenCells]
  | succ k ih =>
    have hcell : List.ofFn (cellsOf n m a) = slice m (a * n) n :=
      List.ext_getElem (by simp) fun i _ _ => by simp [cellsOf]
    rw [slice_succ, flattenCells, List.flatMap_cons, ← flattenCells, ih, hcell,
      show (k + 1) * n = n + k * n by rw [Nat.add_mul]; omega, slice_add, Nat.add_mul, Nat.one_mul]

theorem cellsOf_blit (m : Nat → α) (a : Nat) (cells : List (Fin n → α)) :
    cellsOf n (blit m (a * n) (flattenCells cells)) = blit (cellsOf n m) a cells := by
  funext i j
  by_cases hin : a ≤ i ∧ i < a + cells.length
  · obtain ⟨k, rfl⟩ := Nat.exists_eq_add_of_le hin.1
    have hk : k < cells.length := by omega
    rw [blit_apply_add _ _ _ hk]
    simp only [cellsOf, blit]
    rw [if_pos (by rw [Nat.add_mul]; omega), show (a + k) * n + j - a * n = k * n + j by
      rw [Nat.add_mul]; omega, List.getD_eq_getElem?_getD, flattenCells_getElem? cells hk]
    rfl
  · rw [blit_apply_of_not_mem _ _ hin]
    refine blit_apply_of_not_mem _ _ fun hflat => hin ?_
    rw [length_flattenCells, ← Nat.add_mul] at hflat
    have hj := j.isLt
    constructor
    · by_contra hlt
      have := Nat.mul_le_mul_right n (show i + 1 ≤ a by omega)
      rw [Nat.add_mul] at this
      omega
    · by_contra hge
      have := Nat.mul_le_mul_right n (show a + cells.length ≤ i by omega)
      omega

end Cells

end Winspire
