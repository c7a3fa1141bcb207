import Mathlib.Data.Finset.Card
import Mathlib.Logic.Relation

/-! # Levels of an acyclic graph

A graph is acyclic as soon as its vertices are on levels that rise along every edge, and when
only finitely many vertices have edges, there are such levels. -/

namespace CostEngine.Graph

open Relation (TransGen)

variable {α : Type} {R : α → α → Prop}

/-- No vertex reaches itself. -/
def Acyclic (R : α → α → Prop) : Prop := ∀ x, ¬ TransGen R x x

theorem acyclic_of_level (level : α → ℕ) (h : ∀ x y, R x y → level x < level y) : Acyclic R := by
  have hlt : ∀ x y, TransGen R x y → level x < level y := by
    intro x y hxy
    induction hxy with
    | single he => exact h _ _ he
    | tail _ he ih => exact ih.trans (h _ _ he)
  exact fun x hx => lt_irrefl _ (hlt x x hx)

/-- The level of a vertex counts the vertices that reach it. -/
theorem acyclic_iff_exists_level (sources : Finset α) (hsources : ∀ x y, R x y → x ∈ sources) :
    Acyclic R ↔ ∃ level : α → ℕ, ∀ x y, R x y → level x < level y := by
  classical
  constructor
  · intro hacyclic
    refine ⟨fun y => (sources.filter fun x => TransGen R x y).card, fun x y he => ?_⟩
    refine Finset.card_lt_card ((Finset.ssubset_iff_of_subset fun z hz => ?_).mpr ⟨x, ?_, ?_⟩)
    · rw [Finset.mem_filter] at hz ⊢
      exact ⟨hz.1, hz.2.tail he⟩
    · exact Finset.mem_filter.mpr ⟨hsources x y he, .single he⟩
    · exact fun hx => hacyclic x (Finset.mem_filter.mp hx).2
  · rintro ⟨level, h⟩
    exact acyclic_of_level level h

end CostEngine.Graph
