import Winspire.Lib.Blit
import Mathlib.Data.Nat.ModEq

/-!
# Cyclic buffers

A part of a memory that is used again from its start. Positions are counted on without end, so that
what has been written and not yet been read is an interval of them; cells are met again after
`size` positions.
-/

namespace Winspire

set_option autoImplicit false

theorem blit_singleton {α : Type} (m : Nat → α) (a : Nat) (x : α) :
    blit m a [x] = Function.update m a x := by
  funext b
  by_cases hb : b = a
  · rw [hb, Function.update_self]
    exact blit_apply_add m a [x] (j := 0) Nat.one_pos
  · rw [Function.update_of_ne hb]
    apply blit_apply_of_not_mem
    rw [List.length_singleton]
    omega

structure Cyclic where
  base : Nat
  size : Nat
  size_pos : 0 < size

namespace Cyclic

variable {α : Type} {c : Cyclic} {m m' : Nat → α} {i j n : Nat}

def cell (c : Cyclic) (i : Nat) : Nat := c.base + i % c.size

/-- The elements at `n` positions. -/
def read (c : Cyclic) (m : Nat → α) (i n : Nat) : List α :=
  (List.range n).map fun k => m (c.cell (i + k))

/-- Elements are written one after the other. -/
def put (c : Cyclic) (m : Nat → α) (i : Nat) : List α → Nat → α
  | [] => m
  | x :: xs => c.put (Function.update m (c.cell i) x) (i + 1) xs

def Inside (c : Cyclic) (a : Nat) : Prop := c.base ≤ a ∧ a < c.base + c.size

theorem cell_inside (c : Cyclic) (i : Nat) : c.Inside (c.cell i) := by
  have hlt := Nat.mod_lt i c.size_pos
  unfold Inside cell
  omega

theorem cell_add_size (c : Cyclic) (i : Nat) : c.cell (i + c.size) = c.cell i := by
  unfold cell
  rw [Nat.add_mod_right]

theorem cell_ne (hlt : i < j) (hnear : j < i + c.size) : c.cell i ≠ c.cell j := by
  intro heq
  have hmod : i % c.size = j % c.size := Nat.add_left_cancel heq
  have hdvd : c.size ∣ j - i := (Nat.modEq_iff_dvd' (Nat.le_of_lt hlt)).mp hmod
  have hle := Nat.le_of_dvd (by omega) hdvd
  omega

/-- The cells behind a cell follow it, up to the end of the buffer. -/
theorem cell_add (h : c.cell i + n < c.base + c.size) : c.cell (i + n) = c.cell i + n := by
  unfold cell at *
  have hlt : i % c.size + n < c.size := by omega
  rw [Nat.add_mod, Nat.mod_eq_of_lt (show n < c.size by omega), Nat.mod_eq_of_lt hlt]
  omega

theorem cell_wrap (h : c.base + c.size ≤ c.cell i + n) (hn : n ≤ c.size) :
    c.cell (i + n) + c.size = c.cell i + n := by
  have hlt := Nat.mod_lt i c.size_pos
  unfold cell at *
  rcases Nat.lt_or_ge n c.size with hless | hfull
  · have hsum : i % c.size + n % c.size = (i % c.size + n - c.size) + c.size := by
      rw [Nat.mod_eq_of_lt hless]
      omega
    rw [Nat.add_mod, hsum, Nat.add_mod_right, Nat.mod_eq_of_lt (by omega)]
    omega
  · have heq : n = c.size := Nat.le_antisymm hn hfull
    rw [heq, Nat.add_mod_right]

theorem cell_sub_base (h : c.Inside n) : c.cell (n - c.base) = n := by
  obtain ⟨hbase, hlt⟩ := h
  unfold cell
  rw [Nat.mod_eq_of_lt (by omega)]
  omega

/-- How far `b` is ahead of `a`. -/
def ahead (c : Cyclic) (a b : Nat) : Nat := (b + c.size - a) % c.size

theorem ahead_lt (c : Cyclic) (a b : Nat) : c.ahead a b < c.size := Nat.mod_lt _ c.size_pos

theorem ahead_cell (hle : i ≤ j) (hnear : j < i + c.size) :
    c.ahead (c.cell i) (c.cell j) = j - i := by
  obtain ⟨hbase, hlt⟩ := c.cell_inside i
  unfold ahead
  rcases Nat.lt_or_ge (c.cell i + (j - i)) (c.base + c.size) with hstay | hpast
  · have hcell := cell_add hstay
    rw [Nat.add_sub_cancel' hle] at hcell
    have hsum : c.cell j + c.size - c.cell i = j - i + c.size := by omega
    rw [hsum, Nat.add_mod_right, Nat.mod_eq_of_lt (by omega)]
  · have hcell := cell_wrap hpast (by omega)
    rw [Nat.add_sub_cancel' hle] at hcell
    have hsum : c.cell j + c.size - c.cell i = j - i := by omega
    rw [hsum, Nat.mod_eq_of_lt (by omega)]

theorem cell_ahead (h : c.Inside n) : c.cell (i + c.ahead (c.cell i) n) = n := by
  obtain ⟨hbase, hlt⟩ := h
  have hi := Nat.mod_lt i c.size_pos
  unfold ahead cell
  rw [Nat.add_mod, Nat.mod_mod, ← Nat.add_mod]
  have hsum : i % c.size + (n + c.size - (c.base + i % c.size)) = n - c.base + c.size := by omega
  rw [← Nat.mod_add_mod, hsum, Nat.add_mod_right, Nat.mod_eq_of_lt (by omega)]
  omega

@[simp] theorem length_read (c : Cyclic) (m : Nat → α) (i n : Nat) : (c.read m i n).length = n := by
  unfold read
  rw [List.length_map, List.length_range]

theorem read_add (c : Cyclic) (m : Nat → α) (i n k : Nat) :
    c.read m i (n + k) = c.read m i n ++ c.read m (i + n) k := by
  unfold read
  rw [List.range_add, List.map_append, List.map_map]
  congr 1
  apply List.map_congr_left
  intro j _
  exact congrArg (fun p => m (c.cell p)) (Nat.add_assoc i n j).symm

theorem read_congr (h : ∀ k, i ≤ k → k < i + n → m' (c.cell k) = m (c.cell k)) :
    c.read m' i n = c.read m i n := by
  apply List.map_congr_left
  intro k hk
  have hlt := List.mem_range.mp hk
  exact h (i + k) (Nat.le_add_right i k) (by omega)

theorem take_read (c : Cyclic) (m : Nat → α) (i n k : Nat) :
    (c.read m i n).take k = c.read m i (min k n) := by
  rcases Nat.le_total k n with hle | hge
  · rw [Nat.min_eq_left hle]
    conv_lhs => rw [← Nat.add_sub_cancel' hle, read_add]
    exact List.take_left' (length_read c m i k)
  · rw [Nat.min_eq_right hge, List.take_of_length_le]
    rw [length_read]
    exact hge

theorem put_cons (c : Cyclic) (m : Nat → α) (i : Nat) (x : α) (xs : List α) :
    c.put m i (x :: xs) = c.put (Function.update m (c.cell i) x) (i + 1) xs := rfl

theorem put_append (xs ys : List α) :
    c.put m i (xs ++ ys) = c.put (c.put m i xs) (i + xs.length) ys := by
  induction xs generalizing m i with
  | nil => rfl
  | cons x xs ih =>
    have hlen : i + (xs.length + 1) = i + 1 + xs.length := by omega
    rw [List.cons_append, put_cons, put_cons, ih, List.length_cons, hlen]

/-- Positions at least one before the ones written, and less than `size` before the last of them,
keep their elements. -/
theorem put_before {xs : List α} (hlt : j < i) (hnear : i + xs.length ≤ j + c.size) :
    c.put m i xs (c.cell j) = m (c.cell j) := by
  induction xs generalizing m i with
  | nil => rfl
  | cons x xs ih =>
    rw [List.length_cons] at hnear
    rw [put_cons, ih (Nat.lt_succ_of_lt hlt) (by omega)]
    exact Function.update_of_ne (cell_ne hlt (by omega)) _ _

theorem put_outside {xs : List α} {a : Nat} (ha : ¬c.Inside a) : c.put m i xs a = m a := by
  induction xs generalizing m i with
  | nil => rfl
  | cons x xs ih =>
    rw [put_cons, ih]
    apply Function.update_of_ne
    intro heq
    rw [heq] at ha
    exact ha (c.cell_inside i)

theorem read_put_before {xs : List α} (hlt : j + n ≤ i) (hnear : i + xs.length ≤ j + c.size) :
    c.read (c.put m i xs) j n = c.read m j n := by
  apply read_congr
  intro k hj hn
  exact put_before (by omega) (by omega)

theorem read_put {xs : List α} (h : xs.length ≤ c.size) :
    c.read (c.put m i xs) i xs.length = xs := by
  induction xs generalizing m i with
  | nil => rfl
  | cons x xs ih =>
    rw [List.length_cons] at h ⊢
    have hhead : c.read (c.put m i (x :: xs)) i 1 = [x] := by
      have hfirst : c.put m i (x :: xs) (c.cell i) = x := by
        rw [put_cons, put_before (Nat.lt_succ_self i) (by omega), Function.update_self]
      exact congrArg (fun y => [y]) hfirst
    rw [Nat.add_comm, read_add, hhead]
    exact congrArg (x :: ·) (ih (by omega))

theorem blit_eq_put {xs : List α} (h : c.cell i + xs.length ≤ c.base + c.size) :
    blit m (c.cell i) xs = c.put m i xs := by
  induction xs generalizing m i with
  | nil => exact blit_nil m _
  | cons x xs ih =>
    rw [List.length_cons] at h
    have hsplit : blit m (c.cell i) (x :: xs) =
        blit (Function.update m (c.cell i) x) (c.cell i + 1) xs := by
      rw [← blit_singleton]
      exact (blit_append m (c.cell i) [x] xs).symm
    rw [put_cons, hsplit]
    cases xs with
    | nil => exact blit_nil _ _
    | cons y ys =>
      rw [List.length_cons] at h
      have hnext : c.cell (i + 1) = c.cell i + 1 := cell_add (by omega)
      rw [← hnext]
      apply ih
      rw [hnext, List.length_cons]
      omega

theorem cell_congr {i j : Nat} (h : i % c.size = j % c.size) (k : Nat) :
    c.cell (i + k) = c.cell (j + k) := by
  unfold cell
  rw [Nat.add_mod i, h, ← Nat.add_mod]

theorem read_congr_mod {i j : Nat} (h : i % c.size = j % c.size) (m : Nat → α) (n : Nat) :
    c.read m i n = c.read m j n := by
  apply List.map_congr_left
  intro k _
  rw [cell_congr h]

theorem put_congr_mod {i j : Nat} (h : i % c.size = j % c.size) (m : Nat → α) (xs : List α) :
    c.put m i xs = c.put m j xs := by
  induction xs generalizing m i j with
  | nil => rfl
  | cons x xs ih =>
    have hcell : c.cell i = c.cell j := cell_congr h 0
    have hnext : (i + 1) % c.size = (j + 1) % c.size := by rw [Nat.add_mod, h, ← Nat.add_mod]
    rw [put_cons, put_cons, hcell, ih hnext]

end Cyclic

end Winspire
