import Mathlib.Logic.Basic

/-!
# Programs that can fault

A program changes a state and returns, or faults with the state as it then is, or stops for
good. `wp` speaks about all three ends.
-/

namespace Winspire.Faulting

set_option autoImplicit false

inductive Result (σ ε α : Type) : Type where
  | ok (a : α) (s : σ)
  | fault (s : σ)
  | stop (why : ε)

def Prog (σ ε α : Type) : Type := σ → Result σ ε α

variable {σ ε α β γ : Type}

namespace Prog

def pure (a : α) : Prog σ ε α := fun s => .ok a s

def bind (x : Prog σ ε α) (f : α → Prog σ ε β) : Prog σ ε β := fun s =>
  match x s with
  | .ok a s' => f a s'
  | .fault s' => .fault s'
  | .stop why => .stop why

instance : Monad (Prog σ ε) where
  pure := Prog.pure
  bind := Prog.bind

def get : Prog σ ε σ := fun s => .ok s s

def gets (f : σ → α) : Prog σ ε α := fun s => .ok (f s) s

def modify (f : σ → σ) : Prog σ ε Unit := fun s => .ok () (f s)

def fault : Prog σ ε α := fun s => .fault s

def stop (why : ε) : Prog σ ε α := fun _ => .stop why

def onlyIf (c : Prop) [Decidable c] (x : Prog σ ε Unit) : Prog σ ε Unit :=
  if c then x else pure ()

/-- Run `x`; if it faults, go on with `h` from the state it faulted in. -/
def catchFault (x : Prog σ ε α) (h : Prog σ ε α) : Prog σ ε α := fun s =>
  match x s with
  | .ok a s' => .ok a s'
  | .fault s' => h s'
  | .stop why => .stop why

end Prog

open Prog

@[simp] theorem pure_run (a : α) (s : σ) : (Pure.pure a : Prog σ ε α) s = .ok a s := rfl

@[simp] theorem get_run (s : σ) : (Prog.get : Prog σ ε σ) s = .ok s s := rfl

@[simp] theorem gets_run (f : σ → α) (s : σ) : (Prog.gets f : Prog σ ε α) s = .ok (f s) s := rfl

@[simp] theorem modify_run (f : σ → σ) (s : σ) :
    (Prog.modify f : Prog σ ε Unit) s = .ok () (f s) := rfl

@[simp] theorem fault_run (s : σ) : (Prog.fault : Prog σ ε α) s = .fault s := rfl

@[simp] theorem stop_run (why : ε) (s : σ) : (Prog.stop why : Prog σ ε α) s = .stop why := rfl

theorem bind_run (x : Prog σ ε α) (f : α → Prog σ ε β) (s : σ) :
    (x >>= f) s = match x s with
      | .ok a s' => f a s'
      | .fault s' => .fault s'
      | .stop why => .stop why := rfl

theorem bind_run_ok {x : Prog σ ε α} {f : α → Prog σ ε β} {s s' : σ} {a : α}
    (h : x s = .ok a s') : (x >>= f) s = f a s' := by
  rw [bind_run, h]

theorem bind_run_fault {x : Prog σ ε α} {f : α → Prog σ ε β} {s s' : σ}
    (h : x s = .fault s') : (x >>= f) s = .fault s' := by
  rw [bind_run, h]

theorem bind_run_stop {x : Prog σ ε α} {f : α → Prog σ ε β} {s : σ} {why : ε}
    (h : x s = .stop why) : (x >>= f) s = .stop why := by
  rw [bind_run, h]

@[simp] theorem get_bind_run (f : σ → Prog σ ε β) (s : σ) : (Prog.get >>= f) s = f s s := rfl

@[simp] theorem gets_bind_run (g : σ → α) (f : α → Prog σ ε β) (s : σ) :
    (Prog.gets g >>= f) s = f (g s) s := rfl

@[simp] theorem modify_bind_run (g : σ → σ) (f : Unit → Prog σ ε β) (s : σ) :
    (Prog.modify g >>= f) s = f () (g s) := rfl

@[simp] theorem pure_bind_run (a : α) (f : α → Prog σ ε β) (s : σ) :
    (Pure.pure a >>= f) s = f a s := rfl

@[simp] theorem bind_assoc_run (x : Prog σ ε α) (f : α → Prog σ ε β) (g : β → Prog σ ε γ) (s : σ) :
    (x >>= f >>= g) s = (x >>= fun a => f a >>= g) s := by
  rw [bind_run, bind_run, bind_run]
  cases x s with
  | ok a s' => rfl
  | fault s' => rfl
  | stop why => rfl

/-- Where the program may end: `post` when it returns, `flt` when it faults, `stp` when it
stops. -/
def wp (x : Prog σ ε α) (post : α → σ → Prop) (flt : σ → Prop) (stp : ε → Prop) (s : σ) : Prop :=
  match x s with
  | .ok a s' => post a s'
  | .fault s' => flt s'
  | .stop why => stp why

variable {x : Prog σ ε α} {post post' : α → σ → Prop} {flt flt' : σ → Prop} {stp stp' : ε → Prop}
  {s : σ}

@[simp] theorem wp_pure (a : α) :
    wp (Pure.pure a : Prog σ ε α) post flt stp s = post a s := rfl

@[simp] theorem wp_get {post : σ → σ → Prop} :
    wp (Prog.get : Prog σ ε σ) post flt stp s = post s s := rfl

@[simp] theorem wp_gets (f : σ → α) :
    wp (Prog.gets f : Prog σ ε α) post flt stp s = post (f s) s := rfl

@[simp] theorem wp_modify (f : σ → σ) {post : Unit → σ → Prop} :
    wp (Prog.modify f : Prog σ ε Unit) post flt stp s = post () (f s) := rfl

@[simp] theorem wp_fault : wp (Prog.fault : Prog σ ε α) post flt stp s = flt s := rfl

@[simp] theorem wp_stop (why : ε) :
    wp (Prog.stop why : Prog σ ε α) post flt stp s = stp why := rfl

theorem wp_bind (x : Prog σ ε α) (f : α → Prog σ ε β) {post : β → σ → Prop} :
    wp (x >>= f) post flt stp s ↔ wp x (fun a s' => wp (f a) post flt stp s') flt stp s := by
  unfold wp
  rw [bind_run]
  cases x s with
  | ok a s' => exact Iff.rfl
  | fault s' => exact Iff.rfl
  | stop why => exact Iff.rfl

theorem wp_mono (h : wp x post flt stp s) (hp : ∀ a s', post a s' → post' a s')
    (hf : ∀ s', flt s' → flt' s') (hs : ∀ why, stp why → stp' why) :
    wp x post' flt' stp' s := by
  unfold wp at h ⊢
  cases hx : x s with
  | ok a s' =>
    rw [hx] at h
    exact hp a s' h
  | fault s' =>
    rw [hx] at h
    exact hf s' h
  | stop why =>
    rw [hx] at h
    exact hs why h

theorem wp_true (x : Prog σ ε α) (s : σ) :
    wp x (fun _ _ => True) (fun _ => True) (fun _ => True) s := by
  unfold wp
  cases x s with
  | ok a s' => trivial
  | fault s' => trivial
  | stop why => trivial

theorem wp_and (h : wp x post flt stp s) (h' : wp x post' flt' stp' s) :
    wp x (fun a s' => post a s' ∧ post' a s') (fun s' => flt s' ∧ flt' s')
      (fun why => stp why ∧ stp' why) s := by
  unfold wp at h h' ⊢
  cases hx : x s with
  | ok a s' =>
    rw [hx] at h h'
    exact ⟨h, h'⟩
  | fault s' =>
    rw [hx] at h h'
    exact ⟨h, h'⟩
  | stop why =>
    rw [hx] at h h'
    exact ⟨h, h'⟩

theorem wp_bind_mono {f : α → Prog σ ε β} {post' : β → σ → Prop}
    (h : wp x post flt stp s) (hf : ∀ a s', post a s' → wp (f a) post' flt stp s') :
    wp (x >>= f) post' flt stp s := by
  rw [wp_bind]
  exact wp_mono h hf (fun _ h => h) (fun _ h => h)

theorem wp_bind_ok {f : α → Prog σ ε β} {post' : β → σ → Prop} {a : α} {s' : σ}
    (hx : x s = .ok a s') (h : wp (f a) post' flt stp s') : wp (x >>= f) post' flt stp s := by
  unfold wp at h ⊢
  rw [bind_run_ok hx]
  exact h

theorem wp_ite {c : Prop} [Decidable c] {y : Prog σ ε α} (ht : c → wp x post flt stp s)
    (he : ¬ c → wp y post flt stp s) : wp (if c then x else y) post flt stp s := by
  by_cases h : c
  · rw [if_pos h]
    exact ht h
  · rw [if_neg h]
    exact he h

theorem wp_onlyIf {c : Prop} [Decidable c] {x : Prog σ ε Unit} {post : Unit → σ → Prop}
    (ht : c → wp x post flt stp s) (he : ¬ c → post () s) :
    wp (Prog.onlyIf c x) post flt stp s := by
  unfold Prog.onlyIf
  exact wp_ite ht he

theorem wp_catchFault {h : Prog σ ε α} (hx : wp x post (fun s' => wp h post flt stp s') stp s) :
    wp (x.catchFault h) post flt stp s := by
  unfold wp Prog.catchFault at *
  cases hr : x s with
  | ok a s' =>
    rw [hr] at hx
    exact hx
  | fault s' =>
    rw [hr] at hx
    exact hx
  | stop why =>
    rw [hr] at hx
    exact hx

theorem wp_ok {a : α} {s' : σ} (h : wp x post flt stp s) (hx : x s = .ok a s') : post a s' := by
  rw [wp, hx] at h
  exact h

theorem wp_faulted {s' : σ} (h : wp x post flt stp s) (hx : x s = .fault s') : flt s' := by
  rw [wp, hx] at h
  exact h

theorem wp_stopped {why : ε} (h : wp x post flt stp s) (hx : x s = .stop why) : stp why := by
  rw [wp, hx] at h
  exact h

theorem wp_returns (h : wp x post flt stp s) (hf : ∀ s', ¬ flt s') (hs : ∀ why, ¬ stp why) :
    ∃ a s', x s = .ok a s' ∧ post a s' := by
  unfold wp at h
  cases hx : x s with
  | ok a s' =>
    rw [hx] at h
    exact ⟨a, s', rfl, h⟩
  | fault s' =>
    rw [hx] at h
    exact absurd h (hf s')
  | stop why =>
    rw [hx] at h
    exact absurd h (hs why)

end Winspire.Faulting
