import Mathlib.Data.List.Basic
import Mathlib.Order.Basic

/-! # Timelines

The milestones of a life in the order they are meant to be passed, each with the time that was
noted for it. A milestone is noted with a clock reading of the writer, which may be older than
the moment of the writing. -/

namespace CostEngine.Versioned

variable {T : Type} [Preorder T] [Add T]
variable {now c c' d : T} {l l' : List (Option T)}

/-- No time in the list is later than `c`. -/
def AtMost (c : T) (l : List (Option T)) : Prop := ∀ x ∈ l, ∀ t ∈ x, t ≤ c

/-- A time is at most `d` later than the times of the milestones after it. -/
def InOrderUpTo (d : T) (l : List (Option T)) : Prop :=
  l.Pairwise fun x y => ∀ s ∈ x, ∀ t ∈ y, s ≤ t + d

/-- Milestones are noted with the time `now`, each when nothing is noted of it or of a later
one. -/
inductive Fills (now : T) (l : List (Option T)) : List (Option T) → Prop
  | refl : Fills now l l
  | set {l' : List (Option T)} (n : ℕ) : Fills now l l' → (∀ x ∈ l'.drop n, x = none) →
      Fills now l (l'.set n (some now))

/-! ## The clock -/

omit [Add T] in
theorem AtMost.mono (h : AtMost c l) (hc : c ≤ c') : AtMost c' l :=
  fun x hx t ht => (h x hx t ht).trans hc

omit [Add T] in
theorem AtMost.fills (h : AtMost c l) (hf : Fills now l l') (hnow : now ≤ c) : AtMost c l' := by
  induction hf with
  | refl => exact h
  | set n _ _ ih =>
      intro x hx t ht
      rcases List.mem_or_eq_of_mem_set hx with hx | rfl
      · exact ih x hx t ht
      · cases ht
        exact hnow

/-! ## The order -/

/-- What is noted now comes after all that was noted, up to how old the reading is. -/
theorem InOrderUpTo.set (h : InOrderUpTo d l) (hclock : AtMost c l) (hlag : c ≤ now + d) {n : ℕ}
    (hempty : ∀ x ∈ l.drop n, x = none) : InOrderUpTo d (l.set n (some now)) := by
  rw [List.set_eq_take_append_cons_drop]
  split
  swap
  · exact h
  have hrest : ∀ x ∈ l.drop (n + 1), x = none := fun x hx =>
    hempty x (List.drop_subset_drop_left l (Nat.le_succ n) hx)
  refine List.pairwise_append.mpr ⟨h.sublist (List.take_sublist _ _),
    List.pairwise_cons.mpr ⟨?_, h.sublist (List.drop_sublist _ _)⟩, ?_⟩
  · intro y hy s _ t ht
    rw [hrest y hy] at ht
    cases ht
  · intro x hx y hy s hs t ht
    rcases List.mem_cons.mp hy with rfl | hy
    · cases ht
      exact (hclock x (List.mem_of_mem_take hx) s hs).trans hlag
    · rw [hrest y hy] at ht
      cases ht

/-- **A timeline that is filled with readings at most `d` old is in order up to `d`.** -/
theorem InOrderUpTo.fills (h : InOrderUpTo d l) (hclock : AtMost c l) (hf : Fills now l l')
    (hnow : now ≤ c) (hlag : c ≤ now + d) : InOrderUpTo d l' := by
  induction hf with
  | refl => exact h
  | set n hf hempty ih => exact ih.set (hclock.fills hf hnow) hlag hempty

end CostEngine.Versioned
