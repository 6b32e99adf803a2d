import Mathlib.Logic.Basic

/-!
# Views that are redrawn in parts

A view shows cells, and knows from marks which of them may be out of date. Changes set marks, and
a redraw brings the marked cells up to date. What is not marked is right at any time, so that after
a redraw everything is.
-/

namespace Winspire

set_option autoImplicit false

/-- What the cells should show, what they show, and the marks. -/
structure View (σ ι β : Type) where
  want : σ → ι → β
  shown : σ → ι → β
  marked : σ → ι → Prop

namespace View
variable {σ ι β : Type} (v : View σ ι β) {s t u : σ}

/-- Cells that are not marked are up to date. -/
def Fresh (s : σ) : Prop := ∀ i, ¬v.marked s i → v.shown s i = v.want s i

def Complete (s : σ) : Prop := ∀ i, v.shown s i = v.want s i

/-- A change of what is wanted sets marks, and takes none away. -/
structure Edits (s t : σ) : Prop where
  marks : ∀ i, v.marked s i → v.marked t i
  shown : ∀ i, v.shown t i = v.shown s i
  want : ∀ i, ¬v.marked t i → v.want t i = v.want s i

/-- A redraw draws the marked cells, and perhaps others. -/
structure Redraws (s t : σ) : Prop where
  want : ∀ i, v.want t i = v.want s i
  shown : ∀ i, v.shown t i = v.want s i ∨ ¬v.marked s i ∧ v.shown t i = v.shown s i

variable {v}

theorem Complete.fresh (h : v.Complete s) : v.Fresh s := fun i _ => h i

theorem Edits.fresh (h : v.Edits s t) (hs : v.Fresh s) : v.Fresh t := by
  intro i hi
  rw [h.shown, h.want i hi]
  exact hs i fun hm => hi (h.marks i hm)

theorem Redraws.complete (h : v.Redraws s t) (hs : v.Fresh s) : v.Complete t := by
  intro i
  rw [h.want]
  rcases h.shown i with hdrawn | ⟨hm, hkept⟩
  · exact hdrawn
  · rw [hkept]
    exact hs i hm

theorem complete_of_all (hwant : ∀ i, v.want t i = v.want s i)
    (hall : ∀ i, v.shown t i = v.want s i) : v.Complete t := by
  intro i
  rw [hwant]
  exact hall i

end View

end Winspire
