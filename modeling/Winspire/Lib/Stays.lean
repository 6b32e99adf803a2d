import Winspire.Lib.Keeps

/-!
# Programs that stay within a relation

`Stays R x`: where the program returns or faults, the states before and after are related by `R`,
a preorder.
-/

namespace Winspire.Faulting

set_option autoImplicit false

variable {σ ε α β : Type}

def Stays (R : σ → σ → Prop) (x : Prog σ ε α) : Prop :=
  ∀ s, wp x (fun _ s' => R s s') (fun s' => R s s') (fun _ => True) s

section Rules

variable {R R' : σ → σ → Prop} [IsPreorder σ R] {x y : Prog σ ε α}

omit [IsPreorder σ R] in
theorem Keeps.stays (h : Keeps R x) : Stays R x :=
  fun s => wp_mono (h s) (fun _ _ h => h) (fun _ h => h.elim) (fun _ h => h)

omit [IsPreorder σ R] in
theorem Keeps.mono (h : Keeps R x) (hr : ∀ s t, R s t → R' s t) : Keeps R' x :=
  fun s => wp_mono (h s) (fun _ _ => hr _ _) (fun _ h => h) (fun _ h => h)

omit [IsPreorder σ R] in
theorem Stays.mono (h : Stays R x) (hr : ∀ s t, R s t → R' s t) : Stays R' x :=
  fun s => wp_mono (h s) (fun _ _ => hr _ _) (fun _ => hr _ _) (fun _ h => h)

theorem stays_pure (a : α) : Stays R (pure a : Prog σ ε α) := (keeps_pure a).stays

omit [IsPreorder σ R] in
theorem stays_stop (why : ε) : Stays R (Prog.stop why : Prog σ ε α) := (keeps_stop why).stays

theorem stays_fault : Stays R (Prog.fault : Prog σ ε α) := fun s => refl_of R s

omit [IsPreorder σ R] in
theorem stays_modify {g : σ → σ} (h : ∀ s, R s (g s)) : Stays R (Prog.modify g : Prog σ ε Unit) := h

theorem stays_gets (g : σ → α) : Stays R (Prog.gets g : Prog σ ε α) := fun s => refl_of R s

theorem stays_bind {k : α → Prog σ ε β} (hx : Stays R x) (hk : ∀ a, Stays R (k a)) :
    Stays R (x >>= k) := by
  intro s
  rw [wp_bind]
  refine wp_mono (hx s) ?_ (fun _ h => h) (fun _ h => h)
  intro a t ht
  exact wp_mono (hk a t) (fun _ _ => trans_of R ht) (fun _ => trans_of R ht) (fun _ h => h)

omit [IsPreorder σ R] in
theorem stays_get {k : σ → Prog σ ε α} (hk : ∀ s, Stays R (k s)) : Stays R (Prog.get >>= k) := by
  intro s
  rw [wp_bind, wp_get]
  exact hk s s

omit [IsPreorder σ R] in
theorem stays_ite {c : Prop} [Decidable c] (hx : Stays R x) (hy : Stays R y) :
    Stays R (if c then x else y) := fun s => wp_ite (fun _ => hx s) (fun _ => hy s)

theorem stays_onlyIf {c : Prop} [Decidable c] {x : Prog σ ε Unit} (hx : Stays R x) :
    Stays R (Prog.onlyIf c x) := stays_ite hx (stays_pure ())

omit [IsPreorder σ R] in
theorem Stays.keeps_catchFault (h : Stays R x) (why : ε) : Keeps R (x.catchFault (Prog.stop why)) := by
  intro s
  apply wp_catchFault
  refine wp_mono (h s) (fun _ _ h => h) ?_ (fun _ h => h)
  intro _ _
  rw [wp_stop]
  trivial

omit [IsPreorder σ R] in
theorem Stays.ok (h : Stays R x) {s s' : σ} {a : α} (hx : x s = .ok a s') : R s s' := by
  have hs := h s
  rw [wp, hx] at hs
  exact hs

omit [IsPreorder σ R] in
theorem Stays.fault (h : Stays R x) {s s' : σ} (hx : x s = .fault s') : R s s' := by
  have hs := h s
  rw [wp, hx] at hs
  exact hs

end Rules

def NeverFaults (x : Prog σ ε α) : Prop := ∀ s s', x s ≠ .fault s'

section NeverFaults

variable {x y : Prog σ ε α}

theorem Keeps.neverFaults {R : σ → σ → Prop} (h : Keeps R x) : NeverFaults x :=
  fun _ _ => h.not_fault

theorem neverFaults_pure (a : α) : NeverFaults (pure a : Prog σ ε α) := by
  intro s s' h
  cases h

theorem neverFaults_stop (why : ε) : NeverFaults (Prog.stop why : Prog σ ε α) := by
  intro s s' h
  cases h

theorem neverFaults_modify (g : σ → σ) : NeverFaults (Prog.modify g : Prog σ ε Unit) := by
  intro s s' h
  cases h

theorem neverFaults_get : NeverFaults (Prog.get : Prog σ ε σ) := by
  intro s s' h
  cases h

theorem neverFaults_bind {k : α → Prog σ ε β} (hx : NeverFaults x) (hk : ∀ a, NeverFaults (k a)) :
    NeverFaults (x >>= k) := by
  intro s s' h
  rw [bind_run] at h
  cases hs : x s with
  | ok a t =>
    rw [hs] at h
    exact hk a t s' h
  | fault t => exact hx s t hs
  | stop why =>
    rw [hs] at h
    cases h

theorem neverFaults_ite {c : Prop} [Decidable c] (hx : NeverFaults x) (hy : NeverFaults y) :
    NeverFaults (if c then x else y) := by
  by_cases h : c
  · rw [if_pos h]
    exact hx
  · rw [if_neg h]
    exact hy

theorem neverFaults_onlyIf {c : Prop} [Decidable c] {x : Prog σ ε Unit} (hx : NeverFaults x) :
    NeverFaults (Prog.onlyIf c x) := neverFaults_ite hx (neverFaults_pure ())

theorem neverFaults_catchFault_stop (why : ε) : NeverFaults (x.catchFault (Prog.stop why)) := by
  intro s s' h
  unfold Prog.catchFault at h
  cases hs : x s with
  | ok a t =>
    rw [hs] at h
    cases h
  | fault t =>
    rw [hs] at h
    cases h
  | stop why =>
    rw [hs] at h
    cases h

theorem wp_neverFaults (hx : NeverFaults x) {post : α → σ → Prop} {flt : σ → Prop} {s : σ}
    (h : ∀ a t, x s = .ok a t → post a t) : wp x post flt (fun _ => True) s := by
  unfold wp
  cases hs : x s with
  | ok a t => exact h a t hs
  | fault t => exact absurd hs (hx s t)
  | stop why => trivial

/-- A fault comes from the first part or, where that returns, from the second. -/
theorem bind_fault_iff {k : α → Prog σ ε β} {s s' : σ} :
    (x >>= k) s = .fault s' ↔
      x s = .fault s' ∨ ∃ a t, x s = .ok a t ∧ k a t = .fault s' := by
  rw [bind_run]
  cases x s with
  | ok a t =>
    constructor
    · exact fun h => Or.inr ⟨a, t, rfl, h⟩
    · rintro (h | ⟨b, u, h, hk⟩)
      · cases h
      · cases h
        exact hk
  | fault t =>
    constructor
    · exact fun h => Or.inl (by cases h; rfl)
    · rintro (h | ⟨b, u, h, -⟩)
      · cases h
        rfl
      · cases h
  | stop why =>
    constructor
    · intro h
      cases h
    · rintro (h | ⟨b, u, h, -⟩)
      · cases h
      · cases h

theorem bind_fault_of_neverFaults {k : α → Prog σ ε β} (hk : ∀ a, NeverFaults (k a)) {s s' : σ} :
    (x >>= k) s = .fault s' ↔ x s = .fault s' := by
  rw [bind_fault_iff]
  constructor
  · intro h
    rcases h with h | ⟨a, t, -, h⟩
    · exact h
    · exact absurd h (hk a t s')
  · exact Or.inl

end NeverFaults

end Winspire.Faulting
