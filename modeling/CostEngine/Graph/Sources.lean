import Mathlib.Logic.Relation
import Mathlib.Order.WellFounded

/-! # Relations that grow at their sources

A graph that gets new edges only out of vertices nobody points to stays well founded, and
what can be reached over edges that are there for good stays what it is. -/

namespace CostEngine.Graph

open Relation (TransGen)

variable {α : Type} {R R' : α → α → Prop}

/-- Every edge `R' y x` leads from `x` to `y`. It is old, or nothing points to `x`. -/
theorem wellFounded_of_sources (h : WellFounded R)
    (hnew : ∀ {x y}, R' y x → R y x ∨ ∀ z, ¬ R' x z) : WellFounded R' := by
  have hpointed : ∀ x, (∃ z, R' x z) → Acc R' x := by
    intro x
    induction x using h.induction with
    | _ x ih =>
        rintro ⟨z, hz⟩
        refine ⟨x, fun y hy => ?_⟩
        rcases hnew hy with hold | hsource
        · exact ih y hold ⟨x, hy⟩
        · exact absurd hz (hsource z)
  exact ⟨fun x => ⟨x, fun y hy => hpointed y ⟨x, hy⟩⟩⟩

/-- Two relations with the same edges out of the vertices in `P`, which these edges do not
leave, reach the same vertices from there. -/
theorem transGen_congr {P : α → Prop} (hP : ∀ {x y}, P x → R x y → P y)
    (hsame : ∀ {x y}, P x → (R' x y ↔ R x y)) {x y : α} (hx : P x) :
    TransGen R' x y ↔ TransGen R x y := by
  constructor
  · intro h
    suffices hboth : TransGen R x y ∧ P y from hboth.1
    induction h with
    | single h =>
        have hR := (hsame hx).mp h
        exact ⟨.single hR, hP hx hR⟩
    | tail _ h ih =>
        have hR := (hsame ih.2).mp h
        exact ⟨ih.1.tail hR, hP ih.2 hR⟩
  · intro h
    suffices hboth : TransGen R' x y ∧ P y from hboth.1
    induction h with
    | single h => exact ⟨.single ((hsame hx).mpr h), hP hx h⟩
    | tail _ h ih => exact ⟨ih.1.tail ((hsame ih.2).mpr h), hP ih.2 h⟩

end CostEngine.Graph
