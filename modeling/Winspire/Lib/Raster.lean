import Winspire.Lib.Blit
import Mathlib.Tactic.Ring

/-!
# Pictures in a memory

A raster is a layout of cells of one size, in rows that start at the multiples of a pitch. Stores
into it are undefined outside the memory. `Paints` says which cells of a picture have been drawn;
loops draw the union of what their steps draw.
-/

namespace Winspire

set_option autoImplicit false

theorem foldlM_range {σ : Type} {f : σ → Nat → Option σ} {P : Nat → σ → Prop} {s : σ} (n : Nat)
    (hzero : P 0 s) (hstep : ∀ k < n, ∀ t, P k t → ∃ u, f t k = some u ∧ P (k + 1) u) :
    ∃ t, (List.range n).foldlM f s = some t ∧ P n t := by
  induction n with
  | zero => exact ⟨s, rfl, hzero⟩
  | succ n ih =>
    obtain ⟨t, ht, hP⟩ := ih fun k hk => hstep k (by omega)
    obtain ⟨u, hu, hP'⟩ := hstep n (by omega) t hP
    refine ⟨u, ?_, hP'⟩
    rw [List.range_succ, List.foldlM_append, ht]
    show (do let u ← f t n; [].foldlM f u) = some u
    rw [hu]
    rfl

theorem foldl_range {σ : Type} {f : σ → Nat → σ} {P : Nat → σ → Prop} {s : σ} (n : Nat)
    (hzero : P 0 s) (hstep : ∀ k < n, ∀ t, P k t → P (k + 1) (f t k)) :
    P n ((List.range n).foldl f s) := by
  induction n with
  | zero => exact hzero
  | succ n ih =>
    rw [List.range_succ, List.foldl_append]
    exact hstep n (Nat.lt_succ_self n) _ (ih fun k hk => hstep k (Nat.lt_succ_of_lt hk))

theorem flatMap_blocks {α : Type} (g : Nat → α) (k n : Nat) :
    ((List.range n).flatMap fun q => (List.range k).map fun i => g (k * q + i)) =
      (List.range (k * n)).map g := by
  induction n with
  | zero => rfl
  | succ n ih =>
    rw [List.range_succ, List.flatMap_append, ih, List.flatMap_singleton, Nat.mul_succ,
      List.range_add, List.map_append, List.map_map]
    rfl

theorem foldlM_none {σ ι : Type} {f : σ → ι → Option σ} {l : List ι} {i : ι} (hi : i ∈ l)
    (hf : ∀ s, f s i = none) (s : σ) : l.foldlM f s = none := by
  induction l generalizing s with
  | nil => cases hi
  | cons j l ih =>
    rw [List.foldlM_cons]
    cases hi with
    | head => rw [hf s]; rfl
    | tail _ hi =>
      cases f s j with
      | none => rfl
      | some t => exact ih hi t

/-- The rows and columns have room between the starts of two rows, and in the memory. -/
structure Raster where
  width : Nat
  height : Nat
  size : Nat
  pitch : Nat
  total : Nat
  row_le : width * size ≤ pitch
  total_ge : ∀ y < height, y * pitch + width * size ≤ total

namespace Raster
variable {α : Type} (r : Raster)

def addr (x y : Nat) : Nat := y * r.pitch + x * r.size

def cell (m : Nat → α) (x y : Nat) : List α := slice m (r.addr x y) r.size

def store (m : Nat → α) (a : Nat) (xs : List α) : Option (Nat → α) :=
  if a + xs.length ≤ r.total then some (blit m a xs) else none

/-- The first `n` cells of a row, one after the other. -/
def row (v : Nat → List α) (n : Nat) : List α := (List.range n).flatMap v

theorem addr_add_le {x y : Nat} (hx : x < r.width) :
    r.addr x y + r.size ≤ y * r.pitch + r.width * r.size := by
  have hmul := Nat.mul_le_mul_right r.size (show x + 1 ≤ r.width from hx)
  rw [Nat.add_mul, Nat.one_mul] at hmul
  unfold addr
  omega

theorem row_end_le {y y' : Nat} (h : y < y') : y * r.pitch + r.width * r.size ≤ y' * r.pitch := by
  have hmul := Nat.mul_le_mul_right r.pitch (show y + 1 ≤ y' from h)
  rw [Nat.add_mul, Nat.one_mul] at hmul
  have hrow := r.row_le
  omega

theorem addr_disjoint {x y x' y' : Nat} (hx : x < r.width) (hx' : x' < r.width)
    (hne : ¬(x' = x ∧ y' = y)) :
    r.addr x' y' + r.size ≤ r.addr x y ∨ r.addr x y + r.size ≤ r.addr x' y' := by
  have hend := r.addr_add_le (y := y) hx
  have hend' := r.addr_add_le (y := y') hx'
  rcases Nat.lt_trichotomy y y' with hy | rfl | hy
  · have hrow := r.row_end_le hy
    unfold addr at *
    omega
  · rcases Nat.lt_trichotomy x x' with h | rfl | h
    · have hmul := Nat.mul_le_mul_right r.size (show x + 1 ≤ x' from h)
      rw [Nat.add_mul, Nat.one_mul] at hmul
      unfold addr
      omega
    · exact absurd ⟨rfl, rfl⟩ hne
    · have hmul := Nat.mul_le_mul_right r.size (show x' + 1 ≤ x from h)
      rw [Nat.add_mul, Nat.one_mul] at hmul
      unfold addr
      omega
  · have hrow := r.row_end_le hy
    unfold addr at *
    omega

theorem length_row {v : Nat → List α} {k : Nat} (hv : ∀ x, (v x).length = k) (n : Nat) :
    (row v n).length = n * k := by
  induction n with
  | zero => simp [row]
  | succ n ih =>
    unfold row at *
    rw [List.range_succ, List.flatMap_append, List.length_append, ih, List.flatMap_singleton, hv,
      Nat.add_mul, Nat.one_mul]

theorem row_split (v : Nat → List α) {x n : Nat} (h : x < n) :
    ∃ zs, row v n = row v x ++ v x ++ zs := by
  induction n with
  | zero => omega
  | succ n ih =>
    have hsucc : row v (n + 1) = row v n ++ v n := by
      unfold row
      rw [List.range_succ, List.flatMap_append, List.flatMap_singleton]
    by_cases hx : x = n
    · refine ⟨[], ?_⟩
      rw [hsucc, hx, List.append_nil]
    · obtain ⟨zs, hzs⟩ := ih (by omega)
      refine ⟨zs ++ v n, ?_⟩
      rw [hsucc, hzs, List.append_assoc]

/-- The cells of `R` show `v`, and the others are as they were. -/
structure Paints (v : Nat → Nat → List α) (R : Nat → Nat → Prop) (m m' : Nat → α) : Prop where
  drawn : ∀ x y, x < r.width → y < r.height → R x y → r.cell m' x y = v x y
  kept : ∀ x y, x < r.width → y < r.height → ¬R x y → r.cell m' x y = r.cell m x y

variable {r} {v : Nat → Nat → List α} {R S : Nat → Nat → Prop} {m m' m'' : Nat → α}

theorem Paints.refl (v : Nat → Nat → List α) (m : Nat → α) :
    r.Paints v (fun _ _ => False) m m where
  drawn _ _ _ _ h := h.elim
  kept _ _ _ _ _ := rfl

theorem Paints.trans (h : r.Paints v R m m') (h' : r.Paints v S m' m'') :
    r.Paints v (fun x y => R x y ∨ S x y) m m'' where
  drawn x y hx hy hin := by
    by_cases hS : S x y
    · exact h'.drawn x y hx hy hS
    · rw [h'.kept x y hx hy hS]
      exact h.drawn x y hx hy (hin.resolve_right hS)
  kept x y hx hy hout := by
    rw [not_or] at hout
    rw [h'.kept x y hx hy hout.2]
    exact h.kept x y hx hy hout.1

theorem Paints.congr (h : r.Paints v R m m')
    (hiff : ∀ x y, x < r.width → y < r.height → (S x y ↔ R x y)) : r.Paints v S m m' where
  drawn x y hx hy hS := h.drawn x y hx hy ((hiff x y hx hy).mp hS)
  kept x y hx hy hS := h.kept x y hx hy fun hR => hS ((hiff x y hx hy).mpr hR)

theorem paints_cell (m : Nat → α) {x y : Nat} (hx : x < r.width) (hy : y < r.height)
    (hlen : (v x y).length = r.size) :
    ∃ m', r.store m (r.addr x y) (v x y) = some m' ∧
      r.Paints v (fun x' y' => x' = x ∧ y' = y) m m' := by
  have hend := r.addr_add_le (y := y) hx
  have htotal := r.total_ge y hy
  refine ⟨blit m (r.addr x y) (v x y), if_pos (by omega), ?_, ?_⟩
  · rintro x' y' - - ⟨rfl, rfl⟩
    unfold cell
    rw [← hlen]
    exact slice_blit_self m _ _
  · intro x' y' hx' hy' hne
    apply slice_blit_of_disjoint
    rw [hlen]
    exact r.addr_disjoint hx hx' hne

theorem paints_blit_row (m : Nat → α) (y : Nat) (hlen : ∀ x, (v x y).length = r.size) :
    r.Paints v (fun _ y' => y' = y) m (blit m (y * r.pitch) (row (v · y) r.width)) := by
  have hrow := length_row hlen r.width
  constructor
  · rintro x y' hx - rfl
    obtain ⟨zs, hzs⟩ := row_split (v · y') hx
    have hmiddle := slice_blit_middle m (y' * r.pitch) (row (v · y') x) (v x y') zs
    rw [length_row hlen, hlen] at hmiddle
    unfold cell addr
    rw [hzs]
    exact hmiddle
  · intro x y' hx hy' hne
    have hend := r.addr_add_le (y := y') hx
    apply slice_blit_of_disjoint
    rw [hrow]
    rcases Nat.lt_or_gt_of_ne hne with h | h
    · have hle := r.row_end_le h
      omega
    · have hle := r.row_end_le h
      unfold addr
      omega

theorem paints_blit_run (m : Nat → α) {x₀ n : Nat} (y : Nat) (hn : x₀ + n ≤ r.width)
    (hlen : ∀ x, (v x y).length = r.size) :
    r.Paints v (fun x y' => y' = y ∧ x₀ ≤ x ∧ x < x₀ + n) m
      (blit m (r.addr x₀ y) (row (fun i => v (x₀ + i) y) n)) := by
  have hlen' : ∀ i, (v (x₀ + i) y).length = r.size := fun i => hlen _
  have hrow := length_row hlen' n
  have hat : ∀ i, r.addr (x₀ + i) y = r.addr x₀ y + i * r.size := by
    intro i
    unfold addr
    ring
  constructor
  · rintro x y' hx - ⟨rfl, hge, hlt⟩
    obtain ⟨i, rfl⟩ := Nat.exists_eq_add_of_le hge
    obtain ⟨zs, hzs⟩ := row_split (fun i => v (x₀ + i) y') (show i < n by omega)
    have hmiddle := slice_blit_middle m (r.addr x₀ y') (row (fun i => v (x₀ + i) y') i)
      (v (x₀ + i) y') zs
    rw [length_row hlen', hlen] at hmiddle
    unfold cell
    rw [hzs, hat]
    exact hmiddle
  · intro x y' hx hy' hout
    apply slice_blit_of_disjoint
    rw [hrow]
    by_cases hy : y' = y
    · subst hy
      have hside : x < x₀ ∨ x₀ + n ≤ x := by omega
      rcases hside with h | h
      · have hmul := Nat.mul_le_mul_right r.size (show x + 1 ≤ x₀ from h)
        rw [Nat.add_mul, Nat.one_mul] at hmul
        unfold addr
        omega
      · have hmul := Nat.mul_le_mul_right r.size h
        rw [Nat.add_mul] at hmul
        unfold addr
        omega
    · have hend := r.addr_add_le (y := y') hx
      have hmul := Nat.mul_le_mul_right r.size hn
      rw [Nat.add_mul] at hmul
      rcases Nat.lt_or_gt_of_ne hy with h | h
      · have hle := r.row_end_le h
        unfold addr at *
        omega
      · have hle := r.row_end_le h
        unfold addr at *
        omega

theorem paints_row (m : Nat → α) {y : Nat} (hy : y < r.height)
    (hlen : ∀ x, (v x y).length = r.size) :
    ∃ m', r.store m (y * r.pitch) (row (v · y) r.width) = some m' ∧
      r.Paints v (fun _ y' => y' = y) m m' := by
  have hrow := length_row hlen r.width
  have htotal := r.total_ge y hy
  exact ⟨blit m (y * r.pitch) (row (v · y) r.width), if_pos (by omega), paints_blit_row m y hlen⟩

theorem paints_loop {f : (Nat → α) → Nat → Option (Nat → α)} {Q : Nat → Nat → Nat → Prop} (n : Nat)
    (hstep : ∀ k < n, ∀ m, ∃ m', f m k = some m' ∧ r.Paints v (Q k) m m') (m : Nat → α) :
    ∃ m', (List.range n).foldlM f m = some m' ∧
      r.Paints v (fun x y => ∃ k < n, Q k x y) m m' := by
  apply foldlM_range (P := fun k t => r.Paints v (fun x y => ∃ j < k, Q j x y) m t)
  · refine (Paints.refl v m).congr fun x y _ _ => ?_
    simp
  · intro k hk t ht
    obtain ⟨u, hu, hpaints⟩ := hstep k hk t
    refine ⟨u, hu, (ht.trans hpaints).congr fun x y _ _ => ?_⟩
    constructor
    · rintro ⟨j, hj, hQ⟩
      rcases Nat.lt_succ_iff_lt_or_eq.mp hj with h | rfl
      · exact .inl ⟨j, h, hQ⟩
      · exact .inr hQ
    · rintro (⟨j, hj, hQ⟩ | hQ)
      · exact ⟨j, by omega, hQ⟩
      · exact ⟨k, by omega, hQ⟩

end Raster

end Winspire
