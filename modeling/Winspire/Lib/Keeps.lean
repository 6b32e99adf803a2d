import Mathlib.Order.Defs.Unbundled
import Winspire.Lib.Faulting

/-!
# Programs that keep part of the state

`Keeps R x`: the program does not fault, and where it returns the states before and after are
related by `R`, a preorder.
-/

namespace Winspire.Faulting

set_option autoImplicit false

variable {σ ε α β : Type}

def Keeps (R : σ → σ → Prop) (x : Prog σ ε α) : Prop :=
  ∀ s, wp x (fun _ s' => R s s') (fun _ => False) (fun _ => True) s

section Rules

variable {R : σ → σ → Prop} [IsPreorder σ R] {x y : Prog σ ε α}

theorem keeps_pure (a : α) : Keeps R (pure a : Prog σ ε α) := fun s => refl_of R s

omit [IsPreorder σ R] in
theorem keeps_stop (why : ε) : Keeps R (Prog.stop why : Prog σ ε α) := fun _ => trivial

omit [IsPreorder σ R] in
theorem keeps_modify {g : σ → σ} (h : ∀ s, R s (g s)) : Keeps R (Prog.modify g : Prog σ ε Unit) := h

theorem keeps_bind {k : α → Prog σ ε β} (hx : Keeps R x) (hk : ∀ a, Keeps R (k a)) :
    Keeps R (x >>= k) := by
  intro s
  rw [wp_bind]
  refine wp_mono (hx s) ?_ (fun _ h => h) (fun _ h => h)
  intro a t ht
  refine wp_mono (hk a t) ?_ (fun _ h => h) (fun _ h => h)
  intro _ u hu
  exact trans_of R ht hu

omit [IsPreorder σ R] in
theorem keeps_get {k : σ → Prog σ ε α} (hk : ∀ s, Keeps R (k s)) : Keeps R (Prog.get >>= k) := by
  intro s
  rw [wp_bind, wp_get]
  exact hk s s

omit [IsPreorder σ R] in
theorem keeps_ite {c : Prop} [Decidable c] (hx : Keeps R x) (hy : Keeps R y) :
    Keeps R (if c then x else y) := fun s => wp_ite (fun _ => hx s) (fun _ => hy s)

omit [IsPreorder σ R] in
theorem Keeps.ok (h : Keeps R x) {s s' : σ} {a : α} (hx : x s = .ok a s') : R s s' := by
  have hs := h s
  rw [wp, hx] at hs
  exact hs

omit [IsPreorder σ R] in
theorem Keeps.not_fault (h : Keeps R x) {s s' : σ} : x s ≠ .fault s' := by
  intro hx
  have hs := h s
  rw [wp, hx] at hs
  exact hs

end Rules

end Winspire.Faulting
