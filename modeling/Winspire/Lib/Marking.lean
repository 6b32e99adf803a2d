import Mathlib.Logic.Basic

/-!
# Memory with marks and known cells

A memory that was changed in two ways: some cells were overwritten with values that are known,
and elsewhere bits of a given set, the marks, may have been set. Once all marks are set, the
memory is determined.
-/

namespace Winspire.Marking

set_option autoImplicit false

variable {α : Type} {n : Nat}

/-- `m'` is `m` with the cells of `O` overwritten, and elsewhere with no new bits but those of
`E`. -/
structure Overlaid (E : α → Nat → Prop) (O : α → Option (BitVec n)) (m m' : α → BitVec n) :
    Prop where
  laid : ∀ a b, O a = some b → m' a = b
  keep : ∀ a, O a = none → ∀ i, (m a).getLsbD i = true → (m' a).getLsbD i = true
  only : ∀ a, O a = none → ∀ i, (m' a).getLsbD i = true → (m a).getLsbD i = true ∨ E a i

variable {E : α → Nat → Prop} {O O' : α → Option (BitVec n)} {m m' m'' : α → BitVec n}

theorem Overlaid.refl (E : α → Nat → Prop) (m : α → BitVec n) :
    Overlaid E (fun _ => none) m m where
  laid _ _ h := nomatch h
  keep _ _ _ h := h
  only _ _ _ h := Or.inl h

theorem Overlaid.mark (h : Overlaid E O m m')
    (hkeep : ∀ a i, (m' a).getLsbD i = true → (m'' a).getLsbD i = true)
    (honly : ∀ a i, (m'' a).getLsbD i = true → (m' a).getLsbD i = true ∨ E a i)
    (hoff : ∀ a i, O a ≠ none → ¬ E a i) : Overlaid E O m m'' where
  laid a b hb := by
    rw [← h.laid a b hb]
    apply BitVec.eq_of_getLsbD_eq
    intro i _
    rw [Bool.eq_iff_iff]
    constructor
    · intro hi
      rcases honly a i hi with hi | hi
      · exact hi
      · refine absurd hi (hoff a i ?_)
        rw [hb]
        exact Option.some_ne_none b
    · exact hkeep a i
  keep a ha i hi := hkeep a i (h.keep a ha i hi)
  only a ha i hi := by
    rcases honly a i hi with hi | hi
    · exact h.only a ha i hi
    · exact Or.inr hi

theorem Overlaid.store (h : Overlaid E O m m') (hlaid : ∀ a b, O' a = some b → m'' a = b)
    (hrest : ∀ a, O' a = none → O a = none ∧ m'' a = m' a) : Overlaid E O' m m'' where
  laid := hlaid
  keep a ha i hi := by
    obtain ⟨hO, hm⟩ := hrest a ha
    rw [hm]
    exact h.keep a hO i hi
  only a ha i hi := by
    obtain ⟨hO, hm⟩ := hrest a ha
    rw [hm] at hi
    exact h.only a hO i hi

theorem Overlaid.unmarked (h : Overlaid E O m m') {a : α} (ha : ∀ i, ¬ E a i) :
    m' a = (O a).getD (m a) := by
  cases hO : O a with
  | some b => exact h.laid a b hO
  | none =>
    apply BitVec.eq_of_getLsbD_eq
    intro i _
    rw [Bool.eq_iff_iff]
    constructor
    · intro hi
      rcases h.only a hO i hi with hi | hi
      · exact hi
      · exact absurd hi (ha i)
    · exact h.keep a hO i

theorem Overlaid.unique (h : Overlaid E O m m') (h' : Overlaid E O m m'')
    (hfull : ∀ a i, E a i → (m' a).getLsbD i = true)
    (hfull' : ∀ a i, E a i → (m'' a).getLsbD i = true) : m' = m'' := by
  funext a
  cases hO : O a with
  | some b => rw [h.laid a b hO, h'.laid a b hO]
  | none =>
    apply BitVec.eq_of_getLsbD_eq
    intro i _
    rw [Bool.eq_iff_iff]
    constructor
    · intro hi
      rcases h.only a hO i hi with hi | hi
      · exact h'.keep a hO i hi
      · exact hfull' a i hi
    · intro hi
      rcases h'.only a hO i hi with hi | hi
      · exact h.keep a hO i hi
      · exact hfull a i hi

theorem Overlaid.eq_self (h : Overlaid E (fun _ => none) m m')
    (hfull : ∀ a i, E a i → (m a).getLsbD i = true) : m' = m := by
  refine h.unique (Overlaid.refl E m) ?_ hfull
  intro a i hi
  exact h.keep a rfl i (hfull a i hi)

end Winspire.Marking
