import Mathlib.Data.List.Pairwise

/-!
# Renaming a value of a column under unique constraints

A `UniqueColumn` is a column of a table together with the unique constraints it belongs
to: two rows are rivals if they agree in all other columns of one of these constraints,
so that they violate it when they agree in the column too.

`rename` replaces a value of the column by another. The statement that does it,
`updateRename`, checks the constraints at every row it writes, against the rows as they
are at that moment. It fails exactly when the renamed table breaks a constraint
(`updateRename_eq`), and this can be seen beforehand from the pairs of an old and a new
row (`consistent_rename_iff`).
-/

namespace Relational

/-! ## Columns with a constraint -/

structure UniqueColumn (ρ ν : Type) where
  get : ρ → ν
  set : ν → ρ → ρ
  rival : ρ → ρ → Bool
  get_set : ∀ v r, get (set v r) = v
  rival_set : ∀ v a b, rival (set v a) b = rival a b
  rival_comm : ∀ a b, rival a b = rival b a

namespace UniqueColumn

variable {ρ ν : Type} [DecidableEq ν] (c : UniqueColumn ρ ν)

/-- Two rows that violate a constraint. -/
def conflicts (a b : ρ) : Bool := c.get a = c.get b && c.rival a b

/-- The constraints hold. -/
def Consistent (rows : List ρ) : Prop := rows.Pairwise fun a b => c.conflicts a b = false

variable (old new : ν)

/-! ## Renaming -/

def renameRow (r : ρ) : ρ := if c.get r = old then c.set new r else r

def rename (rows : List ρ) : List ρ := rows.map (c.renameRow old new)

/-- Some row with the old value is a rival of one with the new value. -/
def collides (rows : List ρ) : Bool :=
  rows.any fun a => rows.any fun b => c.get a = old && c.get b = new && c.rival a b

/-- `UPDATE … SET c = new WHERE c = old`, with the rows it has passed. -/
def updateRename : List ρ → List ρ → Option (List ρ)
  | done, [] => some done
  | done, r :: rest =>
      if c.get r = old then
        if (done ++ rest).any (c.conflicts (c.set new r)) then none
        else updateRename (done ++ [c.set new r]) rest
      else updateRename (done ++ [r]) rest

variable {c} {old new} {a b r : ρ} {rows : List ρ}

/-! ### Conflicts -/

theorem conflicts_comm (a b : ρ) : c.conflicts a b = c.conflicts b a := by
  unfold conflicts
  rw [c.rival_comm a b]
  congr 1
  exact decide_eq_decide.mpr eq_comm

theorem consistent_iff :
    c.Consistent rows ↔ rows.Pairwise fun a b => ¬ (c.get a = c.get b ∧ c.rival a b = true) := by
  refine List.Pairwise.iff fun a b => ?_
  rw [← Bool.not_eq_true, conflicts, Bool.and_eq_true, decide_eq_true_eq]

theorem collides_iff : c.collides old new rows = true ↔
    ∃ a ∈ rows, ∃ b ∈ rows, c.get a = old ∧ c.get b = new ∧ c.rival a b = true := by
  simp only [collides, List.any_eq_true, Bool.and_eq_true, decide_eq_true_eq, and_assoc]

theorem get_renameRow :
    c.get (c.renameRow old new r) = if c.get r = old then new else c.get r := by
  unfold renameRow
  split
  · exact c.get_set new r
  · rfl

theorem rival_renameRow (a b : ρ) :
    c.rival (c.renameRow old new a) (c.renameRow old new b) = c.rival a b := by
  have hleft : ∀ a b, c.rival (c.renameRow old new a) b = c.rival a b := by
    intro a b
    unfold renameRow
    split
    · exact c.rival_set new a b
    · rfl
  rw [hleft, c.rival_comm, hleft, c.rival_comm]

/-! ### Rows that were renamed -/

/-- Nothing of the old value is left. -/
theorem get_ne_of_mem_rename (hne : old ≠ new) (h : r ∈ c.rename old new rows) :
    c.get r ≠ old := by
  obtain ⟨r, -, rfl⟩ := List.mem_map.mp h
  rw [get_renameRow]
  split
  · exact hne.symm
  · assumption

/-- Renaming makes two rows conflict only when one had the old and one the new value. -/
theorem conflicts_renameRow (h : c.conflicts a b = false)
    (hrenamed : c.conflicts (c.renameRow old new a) (c.renameRow old new b) = true) :
    c.rival a b = true
      ∧ (c.get a = old ∧ c.get b = new ∨ c.get b = old ∧ c.get a = new) := by
  unfold conflicts at h hrenamed
  rw [rival_renameRow, get_renameRow, get_renameRow, Bool.and_eq_true, decide_eq_true_eq]
    at hrenamed
  obtain ⟨hget, hrival⟩ := hrenamed
  rw [hrival, Bool.and_true, decide_eq_false_iff_not] at h
  refine ⟨hrival, ?_⟩
  by_cases ha : c.get a = old <;> by_cases hb : c.get b = old
  · exact absurd (ha.trans hb.symm) h
  · rw [if_pos ha, if_neg hb] at hget
    exact .inl ⟨ha, hget.symm⟩
  · rw [if_neg ha, if_pos hb] at hget
    exact .inr ⟨hb, hget⟩
  · rw [if_neg ha, if_neg hb] at hget
    exact absurd hget h

theorem consistent_rename_iff (hne : old ≠ new) (h : c.Consistent rows) :
    c.Consistent (c.rename old new rows) ↔ c.collides old new rows = false := by
  constructor
  · intro hrenamed
    by_contra hcollides
    obtain ⟨a, ha, b, hb, ha', hb', hrival⟩ :=
      collides_iff.mp ((Bool.not_eq_false _).mp hcollides)
    have hdiffer : a ≠ b := by
      rintro rfl
      exact hne (ha'.symm.trans hb')
    have hsymm : Std.Symm fun a b =>
        c.conflicts (c.renameRow old new a) (c.renameRow old new b) = false :=
      ⟨fun a b hab => (conflicts_comm _ _).trans hab⟩
    have hnot := (List.pairwise_map.mp hrenamed).forall ha hb hdiffer
    unfold conflicts at hnot
    rw [rival_renameRow, get_renameRow, get_renameRow, hrival, if_pos ha',
      if_neg fun hb => hne (hb.symm.trans hb'), hb'] at hnot
    simp at hnot
  · intro hcollides
    refine List.pairwise_map.mpr (h.imp_of_mem fun {a b} ha hb hab => ?_)
    by_contra hconflict
    have hnone : ∀ {a b}, a ∈ rows → b ∈ rows → c.rival a b = true → c.get a = old →
        c.get b ≠ new := fun ha hb hrival hold hnew => Bool.false_ne_true
      (hcollides.symm.trans (collides_iff.mpr ⟨_, ha, _, hb, hold, hnew, hrival⟩))
    obtain ⟨hrival, ⟨hold, hnew⟩ | ⟨hold, hnew⟩⟩ :=
      conflicts_renameRow hab ((Bool.not_eq_false _).mp hconflict)
    · exact hnone ha hb hrival hold hnew
    · exact hnone hb ha (c.rival_comm b a ▸ hrival) hold hnew

/-! ## The update, row by row -/

/-- No row that is written conflicts with one that is already written, nor with one that is not
reached yet: the latter keeps its value, or does not have the new one. -/
theorem updateRename_append (hne : old ≠ new) (rest : List ρ) : ∀ done,
    c.Consistent (c.rename old new (done ++ rest)) →
    c.updateRename old new (c.rename old new done) rest = some (c.rename old new (done ++ rest)) := by
  induction rest with
  | nil =>
      intro done _
      rw [updateRename, List.append_nil]
  | cons r rest ih =>
      intro done h
      have hnext : c.rename old new done ++ [c.renameRow old new r]
          = c.rename old new (done ++ [r]) := by
        simp [rename]
      have hrest := ih (done ++ [r])
      rw [List.append_assoc, List.singleton_append] at hrest
      specialize hrest h
      rw [← hnext] at hrest
      have hrow : c.renameRow old new r = if c.get r = old then c.set new r else r := rfl
      rw [updateRename]
      split
      · rename_i hold
        rw [if_pos hold] at hrow
        rw [hrow] at hrest
        rw [if_neg, hrest]
        intro hany
        obtain ⟨x, hx, hconflict⟩ := List.any_eq_true.mp hany
        unfold rename Consistent at h
        rw [List.map_append, List.map_cons, List.pairwise_append, List.pairwise_cons, hrow] at h
        obtain ⟨-, ⟨hlater, -⟩, hearlier⟩ := h
        rcases List.mem_append.mp hx with hx | hx
        · refine Bool.false_ne_true (Eq.trans ?_ hconflict)
          rw [conflicts_comm]
          exact (hearlier x hx _ List.mem_cons_self).symm
        · have hget : c.get x = new := by
            unfold conflicts at hconflict
            rw [Bool.and_eq_true, decide_eq_true_eq, c.get_set] at hconflict
            exact hconflict.1.symm
          have hsame : c.renameRow old new x = x :=
            if_neg fun hx' => hne (hx'.symm.trans hget)
          have hnot := hlater _ (List.mem_map_of_mem hx)
          rw [hsame, hconflict] at hnot
          cases hnot
      · rename_i hother
        rw [if_neg hother] at hrow
        rw [hrow] at hrest
        exact hrest

theorem updateRename_eq (hne : old ≠ new) (h : c.Consistent (c.rename old new rows)) :
    c.updateRename old new [] rows = some (c.rename old new rows) :=
  updateRename_append hne rows [] h

end UniqueColumn

end Relational
