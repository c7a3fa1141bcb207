import Mathlib.Data.List.Basic

/-!
# Deleting rows under RESTRICT

The rows of all tables are one list, and `refers child parent` says that a foreign key of
`child` is the key of `parent`. A deletion fails as long as a row that stays refers to one
that goes.

A set of rows that contains everything that refers into it can be deleted class by class, if
the classes are ranked so that a row has a smaller rank than the rows it refers to
(`deleteAll_ranked`). Such a set is what is reached from its roots (`reaches_iff`).
-/

namespace Relational

variable {ρ : Type} (refers : ρ → ρ → Bool)

/-! ## Deletions -/

/-- A row that stays refers to one that is to be deleted. -/
def restricts (rows : List ρ) (p : ρ → Bool) : Bool :=
  rows.any fun parent => p parent && rows.any fun child => !p child && refers child parent

def deleteWhere (rows : List ρ) (p : ρ → Bool) : Option (List ρ) :=
  if restricts refers rows p then none else some (rows.filter fun r => !p r)

/-- One deletion after another. -/
def deleteAll : List ρ → List (ρ → Bool) → Option (List ρ)
  | rows, [] => some rows
  | rows, p :: ps => (deleteWhere refers rows p).bind fun rows => deleteAll rows ps

/-- What refers to a row of the set is in the set. -/
def ClosedUnder (rows : List ρ) (owned : ρ → Bool) : Prop :=
  ∀ child ∈ rows, ∀ parent ∈ rows, owned parent = true → refers child parent = true →
    owned child = true

/-! ## What is reached from the roots -/

/-- A row is reached from the roots against the direction of the references. -/
inductive Reaches (rows : List ρ) (root : ρ → Prop) : ρ → Prop
  | root {r : ρ} : r ∈ rows → root r → Reaches rows root r
  | child {child parent : ρ} : child ∈ rows → Reaches rows root parent →
      refers child parent = true → Reaches rows root child

variable {refers} {rows : List ρ} {p owned : ρ → Bool} {root : ρ → Prop} {rank : ρ → Nat} {r : ρ}

theorem Reaches.mem (h : Reaches refers rows root r) : r ∈ rows := by
  cases h with
  | root hr _ => exact hr
  | child hr _ _ => exact hr

/-- A closed set in which every row is a root or refers to a row of the set is what the roots
reach. The induction goes up the ranks. -/
theorem reaches_iff (hclosed : ClosedUnder refers rows owned)
    (hroot : ∀ r ∈ rows, root r → owned r = true)
    (hparent : ∀ r ∈ rows, owned r = true →
      root r ∨ ∃ parent ∈ rows, owned parent = true ∧ refers r parent = true)
    (hrank : ∀ child parent, refers child parent = true → rank child < rank parent)
    {n : Nat} (hn : ∀ r, rank r ≤ n) (hr : r ∈ rows) :
    Reaches refers rows root r ↔ owned r = true := by
  constructor
  · intro h
    induction h with
    | root hr hroot' => exact hroot _ hr hroot'
    | child hr hreaches hrefers ih => exact hclosed _ hr _ hreaches.mem (ih hreaches.mem) hrefers
  · induction hk : n - rank r using Nat.strongRecOn generalizing r with
    | _ k ih =>
        intro howned
        rcases hparent r hr howned with hroot' | ⟨parent, hmem, howned', hrefers⟩
        · exact .root hr hroot'
        · have hlt := hrank r parent hrefers
          have hle := hn parent
          exact .child hr (ih (n - rank parent) (by omega) hmem rfl howned') hrefers

/-! ## Deleting a closed set -/

theorem restricts_eq_false : restricts refers rows p = false ↔
    ∀ parent ∈ rows, p parent = true → ∀ child ∈ rows, refers child parent = true →
      p child = true := by
  simp only [restricts, List.any_eq_false, Bool.and_eq_true, Bool.not_eq_true', not_and,
    List.any_eq_true, not_exists]
  refine forall₂_congr fun parent _ => forall_congr' fun _ => forall₂_congr fun child _ => ?_
  rw [Bool.not_eq_true]
  cases p child <;> cases refers child parent <;> decide

/-- The rows of a closed set of smaller rank are gone: those of the next rank can go. -/
theorem deleteWhere_ranked (hclosed : ClosedUnder refers rows owned)
    (hrank : ∀ child parent, refers child parent = true → rank child < rank parent) (k : Nat) :
    deleteWhere refers (rows.filter fun r => !(owned r && decide (rank r < k)))
        (fun r => owned r && decide (rank r = k))
      = some (rows.filter fun r => !(owned r && decide (rank r < k + 1))) := by
  have hfree : restricts refers (rows.filter fun r => !(owned r && decide (rank r < k)))
      (fun r => owned r && decide (rank r = k)) = false := by
    refine restricts_eq_false.mpr fun parent hparent hp child hchild hrefers => ?_
    obtain ⟨hparent, -⟩ := List.mem_filter.mp hparent
    obtain ⟨hchild, hstays⟩ := List.mem_filter.mp hchild
    obtain ⟨howned, hk⟩ := (Bool.and_eq_true _ _).mp hp
    have howned' := hclosed child hchild parent hparent howned hrefers
    have hlt := hrank child parent hrefers
    rw [of_decide_eq_true hk] at hlt
    simp [howned', hlt] at hstays
  rw [deleteWhere, if_neg (by rw [hfree]; exact Bool.false_ne_true), List.filter_filter]
  congr 2
  funext r
  cases owned r with
  | false => rfl
  | true =>
      simp only [Bool.true_and, Nat.lt_succ_iff_lt_or_eq, Bool.decide_or, Bool.not_or]
      exact Bool.and_comm _ _

theorem deleteAll_append {ps qs : List (ρ → Bool)} :
    deleteAll refers rows (ps ++ qs)
      = (deleteAll refers rows ps).bind fun rows => deleteAll refers rows qs := by
  induction ps generalizing rows with
  | nil => rfl
  | cons p ps ih =>
      simp only [List.cons_append, deleteAll]
      cases deleteWhere refers rows p with
      | none => rfl
      | some rows' => exact ih

theorem deleteAll_ranked (hclosed : ClosedUnder refers rows owned)
    (hrank : ∀ child parent, refers child parent = true → rank child < rank parent) (n : Nat) :
    deleteAll refers rows ((List.range n).map fun k r => owned r && decide (rank r = k))
      = some (rows.filter fun r => !(owned r && decide (rank r < n))) := by
  induction n with
  | zero => simp [deleteAll]
  | succ n ih =>
      rw [List.range_succ, List.map_append, deleteAll_append, ih, Option.bind_some,
        List.map_singleton, deleteAll, deleteWhere_ranked hclosed hrank n]
      rfl

end Relational
