import Winspire.Netblk.Client
import Mathlib.Data.List.Count

/-!
# The write-back table as a map

At most one dirty entry names a sector, so the dirty entries are a partial map from sectors
to data. Clean entries stay in their slots and mean nothing.
-/

namespace Winspire.Netblk

set_option autoImplicit false

def WritebackEntry.hits (e : WritebackEntry) (x : Nat) : Bool := e.dirty && e.sector == x

/-- The data of the first dirty entry of a sector. -/
def dirtyData (tbl : List WritebackEntry) (x : Nat) : Option Sector :=
  (tbl.find? (·.hits x)).map (·.data)

def DirtyUnique (tbl : List WritebackEntry) : Prop :=
  tbl.Pairwise fun e f => e.dirty = true → f.dirty = true → e.sector ≠ f.sector

def dirtyCount (tbl : List WritebackEntry) : Nat := tbl.countP (·.dirty)

theorem hits_iff (e : WritebackEntry) (x : Nat) : e.hits x = true ↔ e.dirty = true ∧ e.sector = x := by
  simp [WritebackEntry.hits]

@[simp] theorem dirtyData_nil (x : Nat) : dirtyData [] x = none := rfl

theorem dirtyData_eq_none_iff {tbl : List WritebackEntry} {x : Nat} :
    dirtyData tbl x = none ↔ ∀ e ∈ tbl, e.hits x = false := by
  simp [dirtyData]

theorem dirtyData_append (tbl post : List WritebackEntry) (x : Nat) :
    dirtyData (tbl ++ post) x = (dirtyData tbl x).or (dirtyData post x) := by
  simp [dirtyData, Option.map_or]

theorem dirtyData_cons (e : WritebackEntry) (tbl : List WritebackEntry) (x : Nat) :
    dirtyData (e :: tbl) x = if e.hits x then some e.data else dirtyData tbl x := by
  unfold dirtyData
  rw [List.find?_cons]
  cases e.hits x <;> rfl

/-- Where `netblk_writeback_find` finds a sector, the table splits around its entry. -/
theorem findIdx_split {tbl : List WritebackEntry} {x i : Nat}
    (h : tbl.findIdx? (·.hits x) = some i) :
    ∃ pre e post, tbl = pre ++ e :: post ∧ pre.length = i ∧ e.hits x = true ∧
      dirtyData pre x = none := by
  induction tbl generalizing i with
  | nil => simp at h
  | cons a tbl ih =>
    rw [List.findIdx?_cons] at h
    cases ha : a.hits x with
    | true =>
      simp only [ha, if_true, Option.some.injEq] at h
      exact ⟨[], a, tbl, rfl, h, ha, rfl⟩
    | false =>
      rw [ha, if_neg (by simp), Option.map_eq_some_iff] at h
      obtain ⟨j, hj, rfl⟩ := h
      obtain ⟨pre, e, post, rfl, rfl, he, hpre⟩ := ih hj
      refine ⟨a :: pre, e, post, rfl, rfl, he, ?_⟩
      rw [dirtyData_cons, ha]
      exact hpre

theorem findIdx_none {tbl : List WritebackEntry} {x : Nat}
    (h : tbl.findIdx? (·.hits x) = none) : dirtyData tbl x = none :=
  dirtyData_eq_none_iff.mpr fun e he => List.findIdx?_eq_none_iff.mp h e he

theorem dirtyUnique_append {tbl post : List WritebackEntry} :
    DirtyUnique (tbl ++ post) ↔ DirtyUnique tbl ∧ DirtyUnique post ∧
      ∀ e ∈ tbl, ∀ f ∈ post, e.dirty = true → f.dirty = true → e.sector ≠ f.sector :=
  List.pairwise_append

theorem dirtyUnique_cons {e : WritebackEntry} {tbl : List WritebackEntry} :
    DirtyUnique (e :: tbl) ↔
      (∀ f ∈ tbl, e.dirty = true → f.dirty = true → e.sector ≠ f.sector) ∧ DirtyUnique tbl :=
  List.pairwise_cons

section Split
variable {pre post : List WritebackEntry} {e : WritebackEntry} {x : Nat}

theorem dirtyData_post (hu : DirtyUnique (pre ++ e :: post)) (he : e.hits x = true) :
    dirtyData post x = none := by
  apply dirtyData_eq_none_iff.mpr
  intro f hf
  obtain ⟨hdirty, hsector⟩ := (hits_iff e x).mp he
  have hne := (dirtyUnique_cons.mp (dirtyUnique_append.mp hu).2.1).1 f hf hdirty
  cases hfx : f.hits x with
  | false => rfl
  | true =>
    obtain ⟨hfd, hfs⟩ := (hits_iff f x).mp hfx
    exact absurd (hsector.trans hfs.symm) (hne hfd)

theorem dirtyData_overwrite (he : e.hits x = true) (hpre : dirtyData pre x = none) (v : Sector)
    (y : Nat) :
    dirtyData (pre ++ ⟨x, v, true⟩ :: post) y =
      if y = x then some v else dirtyData (pre ++ e :: post) y := by
  obtain ⟨_, hsector⟩ := (hits_iff e x).mp he
  rw [dirtyData_append, dirtyData_append, dirtyData_cons, dirtyData_cons]
  by_cases hy : y = x
  · subst hy
    simp [hpre, WritebackEntry.hits]
  · have hxy : ¬x = y := fun h => hy h.symm
    simp [hy, hxy, WritebackEntry.hits, hsector]

theorem dirtyData_clean (hu : DirtyUnique (pre ++ e :: post)) (he : e.hits x = true)
    (hpre : dirtyData pre x = none) (y : Nat) :
    dirtyData (pre ++ { e with dirty := false } :: post) y =
      if y = x then none else dirtyData (pre ++ e :: post) y := by
  obtain ⟨_, hsector⟩ := (hits_iff e x).mp he
  rw [dirtyData_append, dirtyData_append, dirtyData_cons, dirtyData_cons]
  by_cases hy : y = x
  · subst hy
    simp [hpre, dirtyData_post hu he, WritebackEntry.hits]
  · have hxy : ¬x = y := fun h => hy h.symm
    simp [hy, hxy, WritebackEntry.hits, hsector]

theorem dirtyData_entry (he : e.hits x = true) (hpre : dirtyData pre x = none) :
    dirtyData (pre ++ e :: post) x = some e.data := by
  simp [dirtyData_append, dirtyData_cons, hpre, he]

theorem dirtyUnique_replace {e' : WritebackEntry} (hsector : e'.sector = e.sector)
    (hdirty : e'.dirty = true → e.dirty = true) (hu : DirtyUnique (pre ++ e :: post)) :
    DirtyUnique (pre ++ e' :: post) := by
  obtain ⟨hpre, hcons, hcross⟩ := dirtyUnique_append.mp hu
  obtain ⟨hhead, hpost⟩ := dirtyUnique_cons.mp hcons
  apply dirtyUnique_append.mpr
  refine ⟨hpre, dirtyUnique_cons.mpr ⟨?_, hpost⟩, ?_⟩
  · intro f hf hd hfd
    rw [hsector]
    exact hhead f hf (hdirty hd) hfd
  · intro f hf g hg hfd hgd
    rcases List.mem_cons.mp hg with rfl | hg
    · rw [hsector]
      exact hcross f hf e List.mem_cons_self hfd (hdirty hgd)
    · exact hcross f hf g (List.mem_cons_of_mem _ hg) hfd hgd

end Split

theorem dirtyCount_clean (pre post : List WritebackEntry) {e : WritebackEntry}
    (he : e.dirty = true) :
    dirtyCount (pre ++ { e with dirty := false } :: post) + 1 = dirtyCount (pre ++ e :: post) := by
  simp [dirtyCount, List.countP_append, he]
  omega

theorem dirtyData_push {tbl : List WritebackEntry} {x : Nat} (h : dirtyData tbl x = none)
    (v : Sector) (y : Nat) :
    dirtyData (tbl ++ [⟨x, v, true⟩]) y = if y = x then some v else dirtyData tbl y := by
  rw [dirtyData_append, dirtyData_cons]
  by_cases hy : y = x
  · subst hy
    simp [h, WritebackEntry.hits]
  · have hxy : ¬x = y := fun h => hy h.symm
    simp [hy, hxy, WritebackEntry.hits]

theorem dirtyUnique_push {tbl : List WritebackEntry} {x : Nat} (hu : DirtyUnique tbl)
    (h : dirtyData tbl x = none) (v : Sector) : DirtyUnique (tbl ++ [⟨x, v, true⟩]) := by
  apply dirtyUnique_append.mpr
  refine ⟨hu, List.pairwise_singleton _ _, ?_⟩
  intro e he f hf hed _
  obtain rfl := List.mem_singleton.mp hf
  intro heq
  have hno := dirtyData_eq_none_iff.mp h e he
  rw [(hits_iff e x).mpr ⟨hed, heq⟩] at hno
  exact absurd hno (by simp)

theorem dirtyCount_pos_of_dirtyData {tbl : List WritebackEntry} {x : Nat} {v : Sector}
    (h : dirtyData tbl x = some v) : 0 < dirtyCount tbl := by
  obtain ⟨e, he, _⟩ := Option.map_eq_some_iff.mp h
  have hmem := List.mem_of_find?_eq_some he
  have hhit := List.find?_some he
  exact List.countP_pos_iff.mpr ⟨e, hmem, ((hits_iff e x).mp hhit).1⟩

theorem dirtyCount_le_length (tbl : List WritebackEntry) : dirtyCount tbl ≤ tbl.length :=
  List.countP_le_length

section Best

def bestStep (best : Nat × Bool) (e : WritebackEntry) : Nat × Bool :=
  if e.dirty ∧ e.sector < best.1 then (e.sector, true) else best

theorem best_mem (tbl : List WritebackEntry) (best : Nat × Bool)
    (h : (tbl.foldl bestStep best).2 = true) :
    tbl.foldl bestStep best = best ∨
      ∃ e ∈ tbl, e.hits (tbl.foldl bestStep best).1 = true := by
  induction tbl generalizing best with
  | nil => exact Or.inl rfl
  | cons a tbl ih =>
    simp only [List.foldl_cons] at h ⊢
    rcases ih _ h with heq | ⟨e, he, hhit⟩
    · rw [heq]
      unfold bestStep
      split
      · rename_i hd
        exact Or.inr ⟨a, List.mem_cons_self, (hits_iff _ _).mpr ⟨hd.1, rfl⟩⟩
      · exact Or.inl rfl
    · exact Or.inr ⟨e, List.mem_cons_of_mem a he, hhit⟩

theorem best_of_dirty (tbl : List WritebackEntry) (best : Nat × Bool) :
    (tbl.foldl bestStep best).1 ≤ best.1 ∧ (best.2 = true → (tbl.foldl bestStep best).2 = true) ∧
      ((tbl.foldl bestStep best).2 = false → tbl.foldl bestStep best = best ∧
        ∀ e ∈ tbl, e.dirty = true → best.1 ≤ e.sector) := by
  induction tbl generalizing best with
  | nil => simp
  | cons a tbl ih =>
    simp only [List.foldl_cons]
    obtain ⟨hle, hsome, hnone⟩ := ih (bestStep best a)
    by_cases hd : a.dirty = true ∧ a.sector < best.1
    · have hstep : bestStep best a = (a.sector, true) := if_pos hd
      rw [hstep] at hle hsome hnone ⊢
      have hfound := hsome rfl
      refine ⟨by omega, fun _ => hfound, fun hf => ?_⟩
      rw [hfound] at hf
      exact absurd hf (by simp)
    · have hstep : bestStep best a = best := if_neg hd
      rw [hstep] at hle hsome hnone ⊢
      refine ⟨hle, hsome, fun hf => ⟨(hnone hf).1, ?_⟩⟩
      intro e he hed
      rcases List.mem_cons.mp he with rfl | he
      · by_contra hlt
        exact hd ⟨hed, by omega⟩
      · exact (hnone hf).2 e he hed

end Best

theorem netblkBestDirty_eq (bn : BlockDeviceNet) :
    netblkBestDirty bn =
      if (bn.writeback.foldl bestStep (2 ^ 64 - 1, false)).2
      then some (bn.writeback.foldl bestStep (2 ^ 64 - 1, false)).1 else none := rfl

theorem netblkBestDirty_some {bn : BlockDeviceNet} {x : Nat} (h : netblkBestDirty bn = some x) :
    ∃ v, dirtyData bn.writeback x = some v := by
  rw [netblkBestDirty_eq] at h
  split at h
  · rename_i hfound
    have hx := Option.some.inj h
    rcases best_mem bn.writeback _ hfound with heq | ⟨e, he, hhit⟩
    · rw [heq] at hfound
      exact absurd hfound (by simp)
    · rw [hx] at hhit
      cases hd : dirtyData bn.writeback x with
      | some v => exact ⟨v, rfl⟩
      | none =>
        have hno := dirtyData_eq_none_iff.mp hd e he
        rw [hhit] at hno
        exact absurd hno (by simp)
  · exact absurd h (by simp)

theorem netblkBestDirty_none {bn : BlockDeviceNet} (h : netblkBestDirty bn = none)
    (hlt : ∀ e ∈ bn.writeback, e.sector < 2 ^ 64 - 1) (x : Nat) :
    dirtyData bn.writeback x = none := by
  rw [netblkBestDirty_eq] at h
  split at h
  · exact absurd h (by simp)
  · rename_i hfound
    have hall := ((best_of_dirty bn.writeback (2 ^ 64 - 1, false)).2.2 (by simpa using hfound)).2
    apply dirtyData_eq_none_iff.mpr
    intro e he
    cases hhit : e.hits x with
    | false => rfl
    | true =>
      have hge := hall e he ((hits_iff e x).mp hhit).1
      have hlt' := hlt e he
      omega

end Winspire.Netblk
