import Mathlib.Data.Finset.Card
import Mathlib.Data.Fintype.Card
import Mathlib.Data.Set.Finite.Basic
import Mathlib.Logic.Relation
import Mathlib.Order.WellFounded

/-! # Depth-first search for cycles

A graph is given by the successors of its known nodes. The search marks the nodes it is in the
middle of as visiting, and those it is done with as visited; it stops at an unknown node and at
a node that it is in the middle of. -/

namespace CostEngine.Graph

variable {κ : Type} [DecidableEq κ]

/-! ## The search -/

inductive SearchError where
  | unknown | cyclic
  deriving DecidableEq

structure Marks (κ : Type) where
  visiting : List κ
  visited : List κ

/-- Visits the nodes of a list in turn. `none` is out of fuel. -/
def visitAll (visit : Marks κ → κ → Option (Except SearchError (Marks κ))) :
    List κ → Marks κ → Option (Except SearchError (Marks κ))
  | [], marks => some (.ok marks)
  | x :: xs, marks =>
      match visit marks x with
      | none => none
      | some (.error e) => some (.error e)
      | some (.ok marks) => visitAll visit xs marks

def visit (next : κ → Option (List κ)) : Nat → Marks κ → κ →
    Option (Except SearchError (Marks κ))
  | 0, _, _ => none
  | fuel + 1, marks, x =>
      match next x with
      | none => some (.error .unknown)
      | some successors =>
          if x ∈ marks.visiting then some (.error .cyclic)
          else if x ∈ marks.visited then some (.ok marks)
          else
            match visitAll (visit next fuel) successors
                { marks with visiting := x :: marks.visiting } with
            | some (.ok marks) =>
                some (.ok ⟨marks.visiting.erase x, x :: marks.visited⟩)
            | r => r

/-! ### More fuel -/

omit [DecidableEq κ] in
theorem visitAll_mono {visit visit' : Marks κ → κ → Option (Except SearchError (Marks κ))}
    (hvisit : ∀ marks x r, visit marks x = some r → visit' marks x = some r) (xs : List κ) :
    ∀ marks r, visitAll visit xs marks = some r → visitAll visit' xs marks = some r := by
  induction xs with
  | nil => exact fun _ _ h => h
  | cons x xs ih =>
      intro marks r h
      unfold visitAll at h ⊢
      split at h
      · cases h
      · rename_i e he
        rw [hvisit _ _ _ he]
        exact h
      · rename_i marks₁ hok
        rw [hvisit _ _ _ hok]
        exact ih marks₁ r h

theorem visit_succ (next : κ → Option (List κ)) (fuel : Nat) : ∀ marks x r,
    visit next fuel marks x = some r → visit next (fuel + 1) marks x = some r := by
  induction fuel with
  | zero => nofun
  | succ fuel ih =>
      intro marks x r h
      rw [visit] at h ⊢
      split at h
      · exact h
      · split at h
        · rename_i hvisiting
          rw [if_pos hvisiting]
          exact h
        · rename_i hvisiting
          rw [if_neg hvisiting]
          split at h
          · rename_i hvisited
            rw [if_pos hvisited]
            exact h
          · rename_i hvisited
            rw [if_neg hvisited]
            split at h
            · rename_i marks' hok
              rw [visitAll_mono ih _ _ _ hok]
              exact h
            · rename_i r' hr'
              rw [visitAll_mono ih _ _ _ h]
              split
              · rename_i marks' hok
                exact absurd (h.trans hok) (hr' marks')
              · rfl

theorem visit_le {next : κ → Option (List κ)} {fuel fuel' : Nat} (hle : fuel ≤ fuel') {marks : Marks κ}
    {x : κ} {r : Except SearchError (Marks κ)} (h : visit next fuel marks x = some r) :
    visit next fuel' marks x = some r := by
  induction hle with
  | refl => exact h
  | step _ ih => exact visit_succ next _ _ _ _ ih

/-! ## Nodes without a cycle behind them -/

variable (next : κ → Option (List κ))

def Edge (x y : κ) : Prop := ∃ successors, next x = some successors ∧ y ∈ successors

/-- The node is known, and so is everything behind it, without a way back. -/
inductive Sound : κ → Prop
  | intro (x : κ) (successors : List κ) (known : next x = some successors)
      (behind : ∀ y ∈ successors, Sound y) : Sound x

variable {next} {x y : κ}

omit [DecidableEq κ] in
theorem Sound.behind (h : Sound next x) (hy : Edge next x y) : Sound next y := by
  obtain ⟨x, successors, hknown, hbehind⟩ := h
  obtain ⟨successors', hknown', hmem⟩ := hy
  obtain rfl := Option.some.inj (hknown.symm.trans hknown')
  exact hbehind y hmem

omit [DecidableEq κ] in
theorem Sound.irrefl (h : Sound next x) : ¬ Relation.TransGen (Edge next) x x := by
  induction h with
  | intro x successors hknown hbehind ih =>
      intro hcycle
      obtain ⟨y, ⟨successors', hknown', hmem⟩, hback⟩ := Relation.TransGen.head'_iff.mp hcycle
      obtain rfl := Option.some.inj (hknown.symm.trans hknown')
      exact ih y hmem (Relation.TransGen.tail' hback ⟨successors, hknown, hmem⟩)

/-- In a finite graph, it is enough that there is no cycle and every successor is known. -/
theorem sound_of_acyclic {nodes : List κ} (hnodes : ∀ x ∈ nodes, ∃ successors, next x = some successors)
    (hclosed : ∀ x ∈ nodes, ∀ y, Edge next x y → y ∈ nodes)
    (hacyclic : ∀ x, ¬ Relation.TransGen (Edge next) x x) : ∀ x ∈ nodes, Sound next x := by
  let R : {x // x ∈ nodes} → {x // x ∈ nodes} → Prop :=
    fun y x => Relation.TransGen (Edge next) x.1 y.1
  have : IsTrans _ R := ⟨fun _ _ _ h h' => h'.trans h⟩
  have : Std.Irrefl R := ⟨fun x => hacyclic x.1⟩
  have hwf : WellFounded R := Finite.wellFounded_of_trans_of_irrefl R
  intro x hx
  refine hwf.induction (C := fun x => Sound next x.1) ⟨x, hx⟩ fun ⟨x, hx⟩ ih => ?_
  obtain ⟨successors, hknown⟩ := hnodes x hx
  refine .intro x successors hknown fun y hy => ?_
  have hedge : Edge next x y := ⟨successors, hknown, hy⟩
  exact ih ⟨y, hclosed x hx y hedge⟩ (.single hedge)

/-! ## What the search finds -/

/-- The known nodes that the search is not in the middle of. -/
def rest (nodes : List κ) (marks : Marks κ) : Nat := (nodes.toFinset \ marks.visiting.toFinset).card

theorem rest_cons {nodes : List κ} {marks : Marks κ} (hx : x ∈ nodes) (hnew : x ∉ marks.visiting) :
    rest nodes { marks with visiting := x :: marks.visiting } < rest nodes marks := by
  refine Finset.card_lt_card ⟨fun y hy => ?_, fun hsub => ?_⟩
  · simp only [List.toFinset_cons, Finset.mem_sdiff, Finset.mem_insert, not_or] at hy
    exact Finset.mem_sdiff.mpr ⟨hy.1, hy.2.2⟩
  · have hmem := hsub (Finset.mem_sdiff.mpr ⟨List.mem_toFinset.mpr hx, by simpa using hnew⟩)
    simp at hmem

/-- A search from sound marks: it comes to the same marks with the nodes visited, all of them
sound, or it stops because one of the nodes is not. -/
def Finds (next : κ → Option (List κ)) (xs : List κ) (marks : Marks κ) :
    Option (Except SearchError (Marks κ)) → Prop
  | none => False
  | some (.error _) => ∃ x ∈ xs, ¬ Sound next x
  | some (.ok marks') => marks'.visiting = marks.visiting ∧ (∀ x ∈ xs, x ∈ marks'.visited)
      ∧ (∀ x ∈ marks.visited, x ∈ marks'.visited) ∧ ∀ x ∈ marks'.visited, Sound next x

omit [DecidableEq κ] in
theorem visitAll_finds {visit : Marks κ → κ → Option (Except SearchError (Marks κ))}
    {visiting : List κ} (xs : List κ) (hvisit : ∀ marks, marks.visiting = visiting →
      (∀ y ∈ marks.visited, Sound next y) → ∀ x ∈ xs, Finds next [x] marks (visit marks x)) :
    ∀ marks, marks.visiting = visiting → (∀ y ∈ marks.visited, Sound next y) →
      Finds next xs marks (visitAll visit xs marks) := by
  induction xs with
  | nil =>
      intro marks hvisiting hsound
      exact ⟨rfl, nofun, fun _ hx => hx, hsound⟩
  | cons x xs ih =>
      intro marks hvisiting hsound
      have hx := hvisit marks hvisiting hsound x List.mem_cons_self
      unfold visitAll
      split
      · rename_i hnone
        rw [hnone] at hx
        exact hx
      · rename_i e herror
        rw [herror] at hx
        obtain ⟨y, hy, hbad⟩ := hx
        exact ⟨y, List.mem_cons.mpr (.inl (List.mem_singleton.mp hy)), hbad⟩
      · rename_i marks₁ hok
        rw [hok] at hx
        obtain ⟨hvisiting₁, hvisited₁, hkept₁, hsound₁⟩ := hx
        have hrest := ih (fun m hm hs y hy => hvisit m hm hs y (List.mem_cons_of_mem _ hy)) marks₁
          (hvisiting₁.trans hvisiting) hsound₁
        cases hr : visitAll visit xs marks₁ with
        | none =>
            rw [hr] at hrest
            exact hrest
        | some r =>
            rw [hr] at hrest
            cases r with
            | error e =>
                obtain ⟨y, hy, hbad⟩ := hrest
                exact ⟨y, List.mem_cons_of_mem _ hy, hbad⟩
            | ok marks₂ =>
                obtain ⟨hvisiting₂, hvisited₂, hkept₂, hsound₂⟩ := hrest
                refine ⟨hvisiting₂.trans hvisiting₁, fun y hy => ?_,
                  fun y hy => hkept₂ y (hkept₁ y hy), hsound₂⟩
                rcases List.mem_cons.mp hy with rfl | hy
                · exact hkept₂ y (hvisited₁ y (List.mem_singleton_self y))
                · exact hvisited₂ y hy

/-- With fuel for the nodes that are left, a visit finds out whether its node is sound. The nodes
in the middle of which it is lead to it. -/
theorem visit_finds {nodes : List κ} (hnodes : ∀ x successors, next x = some successors → x ∈ nodes)
    (fuel : Nat) : ∀ (marks : Marks κ) (x : κ), rest nodes marks < fuel →
      (∀ y ∈ marks.visiting, Relation.TransGen (Edge next) y x) →
      (∀ y ∈ marks.visited, Sound next y) → Finds next [x] marks (visit next fuel marks x) := by
  induction fuel with
  | zero =>
      intro marks x hfuel
      exact absurd hfuel (Nat.not_lt_zero _)
  | succ fuel ih =>
      intro marks x hfuel hpath hsound
      unfold visit
      split
      · rename_i hunknown
        refine ⟨x, List.mem_singleton_self x, ?_⟩
        rintro ⟨_, successors, hknown, -⟩
        rw [hunknown] at hknown
        cases hknown
      rename_i successors hknown
      split
      · rename_i hvisiting
        exact ⟨x, List.mem_singleton_self x, fun hx => hx.irrefl (hpath x hvisiting)⟩
      rename_i hnew
      split
      · rename_i hvisited
        exact ⟨rfl, fun y hy => List.mem_singleton.mp hy ▸ hvisited, fun _ hy => hy, hsound⟩
      have hlt := rest_cons (hnodes x successors hknown) hnew
      have hedge : ∀ y ∈ successors, Edge next x y := fun y hy => ⟨successors, hknown, hy⟩
      have hall := visitAll_finds successors (fun m hm hs y hy => by
          refine ih m y ?_ (fun z hz => ?_) hs
          · have hrest : rest nodes m = rest nodes { marks with visiting := x :: marks.visiting } := by
              unfold rest
              rw [hm]
            omega
          · rcases List.mem_cons.mp (hm ▸ hz) with rfl | hz
            · exact .single (hedge y hy)
            · exact (hpath z hz).tail (hedge y hy))
        { marks with visiting := x :: marks.visiting } rfl hsound
      split
      · rename_i marks' hok
        rw [hok] at hall
        obtain ⟨hvisiting, hvisited, hkept, hsound'⟩ := hall
        refine ⟨?_, fun y hy => ?_, fun y hy => List.mem_cons_of_mem _ (hkept y hy), fun y hy => ?_⟩
        · show marks'.visiting.erase x = marks.visiting
          rw [hvisiting, List.erase_cons_head]
        · rw [List.mem_singleton.mp hy]
          exact List.mem_cons_self
        · rcases List.mem_cons.mp hy with rfl | hy
          · exact .intro y successors hknown fun z hz => hsound' z (hvisited z hz)
          · exact hsound' y hy
      · rename_i r hr
        cases hr' : visitAll (visit next fuel) successors
            { marks with visiting := x :: marks.visiting } with
        | none =>
            rw [hr'] at hall
            exact hall
        | some r' =>
            rw [hr'] at hall
            cases r' with
            | ok marks' => exact absurd hr' (hr marks')
            | error e =>
                obtain ⟨y, hy, hbad⟩ := hall
                exact ⟨x, List.mem_singleton_self x, fun hx => hbad (hx.behind (hedge y hy))⟩

/-- The search of a whole graph, from no marks. -/
theorem search_finds {nodes : List κ} (hnodes : ∀ x successors, next x = some successors → x ∈ nodes)
    {fuel : Nat} (hfuel : nodes.length < fuel) (xs : List κ) :
    Finds next xs ⟨[], []⟩ (visitAll (visit next fuel) xs ⟨[], []⟩) := by
  refine visitAll_finds xs (fun marks hvisiting hsound x _ => ?_) _ rfl nofun
  refine visit_finds hnodes fuel marks x ?_ (by rw [hvisiting]; nofun) hsound
  refine Nat.lt_of_le_of_lt ?_ hfuel
  exact (Finset.card_le_card Finset.sdiff_subset).trans (List.toFinset_card_le nodes)

end CostEngine.Graph
