import Winspire.Lib.Faulting

/-!
# Programs that do not see a change

A program is blind to a change `f` of the state when it makes no difference whether `f` is
applied before the program or after it, however the program ends.
-/

namespace Winspire.Faulting

set_option autoImplicit false

variable {σ ε α β : Type}

def Result.map (f : σ → σ) : Result σ ε α → Result σ ε α
  | .ok a s => .ok a (f s)
  | .fault s => .fault (f s)
  | .stop why => .stop why

def Blind (f : σ → σ) (x : Prog σ ε α) : Prop := ∀ s, x (f s) = (x s).map f

section Rules

variable {f : σ → σ} {x y : Prog σ ε α}

theorem blind_pure (a : α) : Blind f (pure a : Prog σ ε α) := fun _ => rfl

theorem blind_fault : Blind f (Prog.fault : Prog σ ε α) := fun _ => rfl

theorem blind_modify {g : σ → σ} (h : ∀ s, g (f s) = f (g s)) :
    Blind f (Prog.modify g : Prog σ ε Unit) := by
  intro s
  rw [modify_run, modify_run, h]
  rfl

theorem blind_gets {g : σ → α} (h : ∀ s, g (f s) = g s) : Blind f (Prog.gets g : Prog σ ε α) := by
  intro s
  rw [gets_run, gets_run, h]
  rfl

theorem blind_bind {k : α → Prog σ ε β} (hx : Blind f x) (hk : ∀ a, Blind f (k a)) :
    Blind f (x >>= k) := by
  intro s
  rw [bind_run, bind_run, hx s]
  cases x s with
  | ok a s' => exact hk a s'
  | fault s' => rfl
  | stop why => rfl

theorem blind_get {k : σ → Prog σ ε α} (hr : ∀ s, k (f s) = k s) (hk : ∀ s, Blind f (k s)) :
    Blind f (Prog.get >>= k) := by
  intro s
  rw [get_bind_run, get_bind_run, hr s]
  exact hk s s

theorem blind_ite {c : Prop} [Decidable c] (hx : Blind f x) (hy : Blind f y) :
    Blind f (if c then x else y) := by
  by_cases h : c
  · rw [if_pos h]
    exact hx
  · rw [if_neg h]
    exact hy

theorem blind_onlyIf {c : Prop} [Decidable c] {x : Prog σ ε Unit} (hx : Blind f x) :
    Blind f (Prog.onlyIf c x) := blind_ite hx (blind_pure ())

theorem Blind.ok (hx : Blind f x) {s s' : σ} {a : α} (h : x s = .ok a s') :
    x (f s) = .ok a (f s') := by
  rw [hx s, h]
  rfl

theorem Blind.fault (hx : Blind f x) {s s' : σ} (h : x s = .fault s') :
    x (f s) = .fault (f s') := by
  rw [hx s, h]
  rfl

theorem Blind.stop (hx : Blind f x) {s : σ} {why : ε} (h : x s = .stop why) :
    x (f s) = .stop why := by
  rw [hx s, h]
  rfl

/-- A change that makes no difference before makes none after. -/
theorem Blind.kept (hx : Blind f x) {s s' : σ} {a : α} (hs : f s = s) (h : x s = .ok a s') :
    f s' = s' := by
  have hf := hx.ok h
  rw [hs, h] at hf
  injection hf with _ ht
  exact ht.symm

end Rules

end Winspire.Faulting
