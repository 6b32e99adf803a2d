import Mathlib.Logic.Relation

/-!
# Programs that talk to an environment

A program is a tree of operations, each followed by a continuation of its answer. What
the operations mean is left to an environment: a relation that says which answers an
operation may get in a state and which states may follow. Nothing is assumed about the
environment; faults, races and unspecified values are more pairs in the relation.
-/

namespace Winspire.Interaction

set_option autoImplicit false

/-- The operations of an interface, with the type of answers each one gets. -/
structure Signature where
  Op : Type
  Answer : Op → Type

inductive Prog (S : Signature) (α : Type) : Type where
  | ret (a : α) : Prog S α
  | ask (op : S.Op) (k : S.Answer op → Prog S α) : Prog S α

variable {S T : Signature} {α β γ σ τ : Type}

namespace Prog

def bind : Prog S α → (α → Prog S β) → Prog S β
  | .ret a, f => f a
  | .ask op k, f => .ask op fun r => (k r).bind f

instance : Monad (Prog S) where
  pure := Prog.ret
  bind := Prog.bind

def perform (op : S.Op) : Prog S (S.Answer op) := .ask op .ret

@[simp] theorem pure_eq (a : α) : (pure a : Prog S α) = .ret a := rfl

@[simp] theorem ret_bind (a : α) (f : α → Prog S β) : (Prog.ret a >>= f) = f a := rfl

@[simp] theorem ask_bind (op : S.Op) (k : S.Answer op → Prog S α) (f : α → Prog S β) :
    (Prog.ask op k >>= f) = .ask op fun r => k r >>= f := rfl

@[simp] theorem perform_bind (op : S.Op) (f : S.Answer op → Prog S β) :
    (perform op >>= f) = .ask op f := rfl

theorem bind_assoc (p : Prog S α) (f : α → Prog S β) (g : β → Prog S γ) :
    (p >>= f >>= g) = (p >>= fun a => f a >>= g) := by
  induction p with
  | ret a => rfl
  | ask op k ih => simp only [ask_bind, ih]

/-- Replace every operation by a program over another interface. -/
def translate (h : (op : S.Op) → Prog T (S.Answer op)) : Prog S α → Prog T α
  | .ret a => .ret a
  | .ask op k => h op >>= fun r => (k r).translate h

@[simp] theorem translate_ret (h : (op : S.Op) → Prog T (S.Answer op)) (a : α) :
    translate h (.ret a) = .ret a := rfl

@[simp] theorem translate_ask (h : (op : S.Op) → Prog T (S.Answer op)) (op : S.Op)
    (k : S.Answer op → Prog S α) :
    translate h (.ask op k) = h op >>= fun r => (k r).translate h := rfl

end Prog

/-- `E s op r s'` says that `op` may be answered by `r` in state `s`, leaving `s'`. -/
abbrev Env (S : Signature) (σ : Type) := σ → (op : S.Op) → S.Answer op → σ → Prop

inductive Runs (E : Env S σ) : Prog S α → σ → α → σ → Prop where
  | ret (a : α) (s : σ) : Runs E (.ret a) s a s
  | ask {op : S.Op} {k : S.Answer op → Prog S α} {s s' s'' : σ} {r : S.Answer op} {a : α} :
      E s op r s' → Runs E (k r) s' a s'' → Runs E (.ask op k) s a s''

/-- The weakest precondition: every answer the environment may give leads to `Q`. -/
def wp (E : Env S σ) : Prog S α → (α → σ → Prop) → σ → Prop
  | .ret a, Q, s => Q a s
  | .ask op k, Q, s => ∀ r s', E s op r s' → wp E (k r) Q s'

variable {E F : Env S σ} {p : Prog S α} {Q R : α → σ → Prop} {s s' : σ}

@[simp] theorem wp_ret (a : α) : wp E (.ret a) Q s = Q a s := rfl

@[simp] theorem wp_pure (a : α) : wp E (pure a) Q s = Q a s := rfl

@[simp] theorem wp_ask (op : S.Op) (k : S.Answer op → Prog S α) :
    wp E (.ask op k) Q s = ∀ r s', E s op r s' → wp E (k r) Q s' := rfl

theorem wp_bind (p : Prog S α) (f : α → Prog S β) (Q : β → σ → Prop) (s : σ) :
    wp E (p >>= f) Q s ↔ wp E p (fun a s' => wp E (f a) Q s') s := by
  induction p generalizing s with
  | ret a => rfl
  | ask op k ih =>
    simp only [Prog.ask_bind, wp_ask]
    exact forall_congr' fun r => forall_congr' fun s' => imp_congr_right fun _ => ih r s'

theorem wp_mono (h : wp E p Q s) (hQ : ∀ a s', Q a s' → R a s') : wp E p R s := by
  induction p generalizing s with
  | ret a => exact hQ a s h
  | ask op k ih => exact fun r s' hr => ih r (h r s' hr)

theorem wp_iff_runs : wp E p Q s ↔ ∀ a s', Runs E p s a s' → Q a s' := by
  constructor
  · intro h a s' hrun
    induction hrun with
    | ret => exact h
    | ask hr _ ih => exact ih (h _ _ hr)
  · intro h
    induction p generalizing s with
    | ret a => exact h a s (.ret a s)
    | ask op k ih => exact fun r s' hr => ih r fun a s'' hrun => h a s'' (.ask hr hrun)

theorem Runs.post {a : α} (hrun : Runs E p s a s') (h : wp E p Q s) : Q a s' :=
  wp_iff_runs.mp h a s' hrun

theorem Runs.env_mono {a : α} (hE : ∀ s op r s', E s op r s' → F s op r s')
    (hrun : Runs E p s a s') : Runs F p s a s' := by
  induction hrun with
  | ret a s => exact .ret a s
  | ask hr _ ih => exact .ask (hE _ _ _ _ hr) ih

/-- Every step is one of another environment, on other states. -/
theorem Runs.map {G : Env S τ} {g : σ → τ} {a : α} (hE : ∀ s op r s', E s op r s' → G (g s) op r (g s'))
    (hrun : Runs E p s a s') : Runs G p (g s) a (g s') := by
  induction hrun with
  | ret a s => exact .ret a (g s)
  | ask hr _ ih => exact .ask (hE _ _ _ _ hr) ih

theorem Runs.bind {f : α → Prog S β} {a : α} {b : β} {s'' : σ}
    (hp : Runs E p s a s') (hf : Runs E (f a) s' b s'') : Runs E (p >>= f) s b s'' := by
  induction hp with
  | ret => exact hf
  | ask hr _ ih => exact .ask hr (ih hf)

/-- Like `wp`, where every operation must also be allowed in the state it is performed in. -/
def safe (ok : σ → S.Op → Prop) (E : Env S σ) : Prog S α → (α → σ → Prop) → σ → Prop
  | .ret a, Q, s => Q a s
  | .ask op k, Q, s => ok s op ∧ ∀ r s', E s op r s' → safe ok E (k r) Q s'

section Safe
variable {ok : σ → S.Op → Prop}

@[simp] theorem safe_ret (a : α) : safe ok E (.ret a) Q s = Q a s := rfl

@[simp] theorem safe_ask (op : S.Op) (k : S.Answer op → Prog S α) :
    safe ok E (.ask op k) Q s = (ok s op ∧ ∀ r s', E s op r s' → safe ok E (k r) Q s') := rfl

theorem safe_bind (p : Prog S α) (f : α → Prog S β) (Q : β → σ → Prop) (s : σ) :
    safe ok E (p >>= f) Q s ↔ safe ok E p (fun a s' => safe ok E (f a) Q s') s := by
  induction p generalizing s with
  | ret a => rfl
  | ask op k ih =>
    simp only [Prog.ask_bind, safe_ask]
    exact and_congr_right fun _ =>
      forall_congr' fun r => forall_congr' fun s' => imp_congr_right fun _ => ih r s'

theorem safe_mono (h : safe ok E p Q s) (hQ : ∀ a s', Q a s' → R a s') : safe ok E p R s := by
  induction p generalizing s with
  | ret a => exact hQ a s h
  | ask op k ih => exact ⟨h.1, fun r s' hr => ih r (h.2 r s' hr)⟩

/-- The rule for a step that only some branch takes, as a do block leaves it. -/
theorem safe_ite_bind {c : Prop} [Decidable c] {p q : Prog S α} {k : α → Prog S β}
    {P : α → σ → Prop} {R : β → σ → Prop} (hp : c → safe ok E p P s) (hq : ¬c → safe ok E q P s)
    (hk : ∀ a s', P a s' → safe ok E (k a) R s') :
    safe ok E (if c then p >>= k else q >>= k) R s := by
  split
  · rename_i hc
    exact (safe_bind p k R s).mpr (safe_mono (hp hc) hk)
  · rename_i hc
    exact (safe_bind q k R s).mpr (safe_mono (hq hc) hk)

end Safe

/-- The execution in an environment that is a function. -/
def exec (f : σ → (op : S.Op) → S.Answer op × σ) : Prog S α → σ → α × σ
  | .ret a, s => (a, s)
  | .ask op k, s => exec f (k (f s op).1) (f s op).2

theorem exec_bind (f : σ → (op : S.Op) → S.Answer op × σ) (p : Prog S α) (k : α → Prog S β) (s : σ) :
    exec f (p >>= k) s = exec f (k (exec f p s).1) (exec f p s).2 := by
  induction p generalizing s with
  | ret a => rfl
  | ask op k' ih => exact ih _ _

theorem exec_runs {G : Env S τ} (g : σ → τ) {f : σ → (op : S.Op) → S.Answer op × σ}
    (hf : ∀ s op, G (g s) op (f s op).1 (g (f s op).2)) (p : Prog S α) (s : σ) :
    Runs G p (g s) (exec f p s).1 (g (exec f p s).2) := by
  induction p generalizing s with
  | ret a => exact .ret a (g s)
  | ask op k ih => exact .ask (hf s op) (ih _ _)

/-- Where the environment always has an answer, every program has an execution. -/
theorem exists_runs (hE : ∀ s op, ∃ r s', E s op r s') (p : Prog S α) (s : σ) :
    ∃ a s', Runs E p s a s' := by
  induction p generalizing s with
  | ret a => exact ⟨a, s, .ret a s⟩
  | ask op k ih =>
    obtain ⟨r, s', hr⟩ := hE s op
    obtain ⟨a, s'', hrun⟩ := ih r s'
    exact ⟨a, s'', .ask hr hrun⟩

end Winspire.Interaction
