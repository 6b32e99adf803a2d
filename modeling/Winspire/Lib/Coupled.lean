import Winspire.Lib.Blind

/-!
# Runs from related states

Two results agree when both return the same value in states related by `R`, or both fault in states
related by `F`, or both stop for the same reason. `Couples R F x`: from states related by `R`, the
results of `x` agree. A program that is blind to a change is coupled along it.
-/

namespace Winspire.Faulting

set_option autoImplicit false

variable {σ ε α β : Type}

inductive Result.Rel (R F : σ → σ → Prop) : Result σ ε α → Result σ ε α → Prop where
  | ok (a : α) {s t : σ} (h : R s t) : Result.Rel R F (.ok a s) (.ok a t)
  | fault {s t : σ} (h : F s t) : Result.Rel R F (.fault s) (.fault t)
  | stop (why : ε) : Result.Rel R F (.stop why) (.stop why)

def Couples (R F : σ → σ → Prop) (x : Prog σ ε α) : Prop := ∀ s t, R s t → (x s).Rel R F (x t)

section Results

variable {R R' F F' : σ → σ → Prop} {r r' r'' : Result σ ε α} {s t : σ} {a : α}

theorem Result.Rel.of_eq (hR : ∀ s, R s s) (hF : ∀ s, F s s) (h : r = r') : r.Rel R F r' := by
  subst h
  cases r with
  | ok a s => exact .ok a (hR s)
  | fault s => exact .fault (hF s)
  | stop why => exact .stop why

theorem Result.Rel.mono (hR : ∀ s t, R s t → R' s t) (hF : ∀ s t, F s t → F' s t)
    (h : r.Rel R F r') : r.Rel R' F' r' := by
  cases h with
  | ok a h => exact .ok a (hR _ _ h)
  | fault h => exact .fault (hF _ _ h)
  | stop why => exact .stop why

theorem Result.Rel.symm (hR : ∀ s t, R s t → R t s) (hF : ∀ s t, F s t → F t s)
    (h : r.Rel R F r') : r'.Rel R F r := by
  cases h with
  | ok a h => exact .ok a (hR _ _ h)
  | fault h => exact .fault (hF _ _ h)
  | stop why => exact .stop why

theorem Result.Rel.trans {R'' F'' : σ → σ → Prop} (hR : ∀ s t u, R s t → R' t u → R'' s u)
    (hF : ∀ s t u, F s t → F' t u → F'' s u) (h : r.Rel R F r') (h' : r'.Rel R' F' r'') :
    r.Rel R'' F'' r'' := by
  cases h with
  | ok a h =>
    cases h' with
    | ok a h' => exact .ok a (hR _ _ _ h h')
  | fault h =>
    cases h' with
    | fault h' => exact .fault (hF _ _ _ h h')
  | stop why =>
    cases h' with
    | stop why => exact .stop why

theorem Result.Rel.map {f : σ → σ} (hR : ∀ s t, R s t → R' (f s) (f t))
    (hF : ∀ s t, F s t → F' (f s) (f t)) (h : r.Rel R F r') : (r.map f).Rel R' F' (r'.map f) := by
  cases h with
  | ok a h => exact .ok a (hR _ _ h)
  | fault h => exact .fault (hF _ _ h)
  | stop why => exact .stop why

theorem Result.Rel.ok_left (h : Result.Rel R F (.ok a s) r') : ∃ t, r' = .ok a t ∧ R s t := by
  cases h with
  | ok a h => exact ⟨_, rfl, h⟩

theorem Result.Rel.ok_right (h : r.Rel R F (.ok a t)) : ∃ s, r = .ok a s ∧ R s t := by
  cases h with
  | ok a h => exact ⟨_, rfl, h⟩

end Results

section Rules

variable {R F : σ → σ → Prop} {x y : Prog σ ε α} {s t : σ}

theorem rel_bind {k l : α → Prog σ ε β} (hx : (x s).Rel R F (y t))
    (hk : ∀ a s' t', x s = .ok a s' → y t = .ok a t' → R s' t' → (k a s').Rel R F (l a t')) :
    ((x >>= k) s).Rel R F ((y >>= l) t) := by
  rw [bind_run, bind_run]
  generalize hs : x s = r at hx
  generalize ht : y t = r' at hx
  cases hx with
  | ok a h => exact hk a _ _ hs ht h
  | fault h => exact .fault h
  | stop why => exact .stop why

theorem rel_imp {R' F' : σ → σ → Prop} (h : (x s).Rel R F (y t))
    (hR : ∀ a s' t', x s = .ok a s' → y t = .ok a t' → R s' t' → R' s' t')
    (hF : ∀ s' t', F s' t' → F' s' t') : (x s).Rel R' F' (y t) := by
  generalize hs : x s = r at h ⊢
  generalize ht : y t = r' at h ⊢
  cases h with
  | ok a h => exact .ok a (hR a _ _ hs ht h)
  | fault h => exact .fault (hF _ _ h)
  | stop why => exact .stop why

theorem couples_pure (a : α) : Couples R F (pure a : Prog σ ε α) := fun _ _ h => .ok a h

theorem couples_stop (why : ε) : Couples R F (Prog.stop why : Prog σ ε α) := fun _ _ _ => .stop why

theorem couples_modify {g : σ → σ} (h : ∀ s t, R s t → R (g s) (g t)) :
    Couples R F (Prog.modify g : Prog σ ε Unit) := fun s t hst => .ok () (h s t hst)

theorem couples_bind {k : α → Prog σ ε β} (hx : Couples R F x) (hk : ∀ a, Couples R F (k a)) :
    Couples R F (x >>= k) :=
  fun s t h => rel_bind (hx s t h) fun a s' t' _ _ h' => hk a s' t' h'

theorem couples_get {k : σ → Prog σ ε α} (hr : ∀ s t, R s t → k s = k t)
    (hk : ∀ s, Couples R F (k s)) : Couples R F (Prog.get >>= k) := by
  intro s t h
  rw [get_bind_run, get_bind_run, hr s t h]
  exact hk t s t h

theorem couples_ite {c : Prop} [Decidable c] (hx : Couples R F x) (hy : Couples R F y) :
    Couples R F (if c then x else y) := by
  by_cases h : c
  · rw [if_pos h]
    exact hx
  · rw [if_neg h]
    exact hy

/-- Along a change of the state, to be coupled is to be blind. -/
theorem Couples.blind {f : σ → σ} (h : Couples (fun s t => s = f t) (fun s t => s = f t) x) :
    Blind f x := by
  intro s
  have hs := h (f s) s rfl
  generalize x (f s) = r at hs ⊢
  generalize x s = r' at hs ⊢
  cases hs with
  | ok a h =>
    rw [h]
    rfl
  | fault h =>
    rw [h]
    rfl
  | stop why => rfl

end Rules

end Winspire.Faulting
