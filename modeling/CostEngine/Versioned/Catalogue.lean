import Mathlib.Data.List.Infix
import Mathlib.Logic.Function.Basic
import Mathlib.Logic.Relation

/-! # Series of versions

A catalogue keeps a series of versions for each key. In a series one version at a time is in
progress, it is built from the newest published versions of other series, and once it has
ended it stays what it is. -/

namespace CostEngine.Versioned

open Relation (ReflTransGen)

variable {K : Type}

/-- The number of the version taken of each series. -/
abbrev Inputs (K : Type) := K → Option ℕ

/-- A version in progress. -/
inductive Current (K : Type) where
  | draft
  | building (inputs : Inputs K)
  | validating (inputs : Inputs K)

inductive Ended (K : Type) where
  | published (inputs : Inputs K)
  | rejected (inputs : Inputs K)
  | abandoned (inputs : Option (Inputs K))

structure Series (K : Type) where
  ended : List (Ended K)
  current : Option (Current K)

abbrev Catalogue (K : Type) := K → Series K

/-! ## Versions by number -/

def Current.inputs : Current K → Option (Inputs K)
  | .draft => none
  | .building inputs => some inputs
  | .validating inputs => some inputs

def Ended.inputs : Ended K → Option (Inputs K)
  | .published inputs => some inputs
  | .rejected inputs => some inputs
  | .abandoned inputs => inputs

namespace Series

variable (s : Series K)

/-- What each version was built from, if it was built. -/
def builds : List (Option (Inputs K)) :=
  s.ended.map (·.inputs) ++ s.current.toList.map (·.inputs)

/-- Versions count from 1. -/
def Published : ℕ → Prop
  | 0 => False
  | n + 1 => ∃ inputs, s.ended[n]? = some (.published inputs)

/-- The newest published version. -/
def Latest (n : ℕ) : Prop := s.Published n ∧ ∀ m, s.Published m → m ≤ n

def BuiltFrom : ℕ → Inputs K → Prop
  | 0, _ => False
  | n + 1, inputs => s.builds[n]? = some (some inputs)

variable {s} {s' : Series K} {n : ℕ} {inputs : Inputs K}

theorem Published.mono (h : s.Published n) (hs : s.ended <+: s'.ended) : s'.Published n := by
  cases n with
  | zero => exact h
  | succ n =>
      obtain ⟨inputs, hn⟩ := h
      obtain ⟨hlt, he⟩ := List.getElem?_eq_some_iff.mp hn
      exact ⟨inputs, (List.prefix_iff_getElem?.mp hs n hlt).trans (congrArg some he)⟩

theorem builtFrom_congr (h : s'.builds = s.builds) : s'.BuiltFrom n inputs ↔ s.BuiltFrom n inputs := by
  cases n with
  | zero => exact Iff.rfl
  | succ n => show s'.builds[n]? = _ ↔ s.builds[n]? = _; rw [h]

end Series

/-! ## Moves -/

inductive Move (K : Type) where
  | draft (k : K)
  | build (k : K) (inputs : Inputs K)
  | submit (k : K)
  | publish (k : K)
  | reject (k : K)
  | abandon (k : K)

def Move.key : Move K → K
  | .draft k | .build k _ | .submit k | .publish k | .reject k | .abandon k => k

/-- The series that a move leaves at its key. -/
inductive Makes (c : Catalogue K) : Move K → Series K → Prop
  | draft (k : K) : (c k).current = none → Makes c (.draft k) ⟨(c k).ended, some .draft⟩
  | build (k : K) (inputs : Inputs K) : (c k).current = some .draft →
      (∀ u n, inputs u = some n → (c u).Latest n) →
      Makes c (.build k inputs) ⟨(c k).ended, some (.building inputs)⟩
  | submit (k : K) (inputs : Inputs K) : (c k).current = some (.building inputs) →
      Makes c (.submit k) ⟨(c k).ended, some (.validating inputs)⟩
  | publish (k : K) (inputs : Inputs K) : (c k).current = some (.validating inputs) →
      Makes c (.publish k) ⟨(c k).ended ++ [.published inputs], none⟩
  | reject (k : K) (inputs : Inputs K) : (c k).current = some (.validating inputs) →
      Makes c (.reject k) ⟨(c k).ended ++ [.rejected inputs], none⟩
  | discard (k : K) : (c k).current = some .draft →
      Makes c (.abandon k) ⟨(c k).ended ++ [.abandoned none], none⟩
  | cancel (k : K) (inputs : Inputs K) : (c k).current = some (.building inputs) →
      Makes c (.abandon k) ⟨(c k).ended ++ [.abandoned (some inputs)], none⟩

variable [DecidableEq K] {c c' : Catalogue K} {m : Move K} {s : Series K}

def Step (c : Catalogue K) (m : Move K) (c' : Catalogue K) : Prop :=
  ∃ s, Makes c m s ∧ c' = Function.update c m.key s

/-- No series has a version yet. -/
def Catalogue.empty : Catalogue K := fun _ => ⟨[], none⟩

/-- What moves lead to. -/
def Catalogue.Reached (c : Catalogue K) : Prop :=
  ReflTransGen (fun c c' => ∃ m, Step c m c') .empty c

/-! ## What a move leaves alone -/

omit [DecidableEq K] in
theorem Makes.ended (h : Makes c m s) : (c m.key).ended <+: s.ended := by
  cases h with
  | draft k h => exact List.prefix_rfl
  | build k inputs h hlatest => exact List.prefix_rfl
  | submit k inputs h => exact List.prefix_rfl
  | _ => exact List.prefix_append _ _

omit [DecidableEq K] in
/-- A version that a move has built is the last, and from the newest. -/
theorem Makes.builtFrom (h : Makes c m s) {n : ℕ} {inputs : Inputs K}
    (hb : s.BuiltFrom n inputs) : (c m.key).BuiltFrom n inputs
      ∨ (∀ u b, inputs u = some b → (c u).Latest b)
        ∧ ∀ i earlier, (c m.key).BuiltFrom i earlier → i < n := by
  have hsame (hbuilds : s.builds = (c m.key).builds) : (c m.key).BuiltFrom n inputs
      ∨ (∀ u b, inputs u = some b → (c u).Latest b)
        ∧ ∀ i earlier, (c m.key).BuiltFrom i earlier → i < n :=
    .inl ((Series.builtFrom_congr hbuilds).mp hb)
  cases h with
  | draft k h =>
      -- The new version is not built.
      refine .inl ?_
      cases n with
      | zero => exact hb
      | succ n =>
          have hb : ((c k).ended.map (·.inputs) ++ [none])[n]? = some (some inputs) := hb
          rw [List.getElem?_append] at hb
          split at hb
          · rename_i hlt
            show ((c k).ended.map (·.inputs) ++ _)[n]? = _
            rw [List.getElem?_append, if_pos hlt, hb]
          · rw [List.getElem?_singleton] at hb
            split at hb <;> cases hb
  | build k new h hlatest =>
      cases n with
      | zero => exact hb.elim
      | succ n =>
          have hold : (c k).builds = (c k).ended.map (·.inputs) ++ [none] := by
            rw [Series.builds, h]
            rfl
          have hb : ((c k).ended.map (·.inputs) ++ [some new])[n]? = some (some inputs) := hb
          rw [List.getElem?_append] at hb
          split at hb
          · rename_i hlt
            refine .inl ?_
            show (c k).builds[n]? = _
            rw [hold, List.getElem?_append, if_pos hlt, hb]
          · rename_i hge
            rw [List.getElem?_singleton] at hb
            split at hb
            swap
            · cases hb
            rename_i hzero
            obtain rfl := Option.some.inj (Option.some.inj hb)
            refine .inr ⟨hlatest, fun i earlier hi => ?_⟩
            cases i with
            | zero => omega
            | succ i =>
                have hi : (c k).builds[i]? = some (some earlier) := hi
                rw [hold, List.getElem?_append] at hi
                split at hi
                · omega
                · rw [List.getElem?_singleton] at hi
                  split at hi <;> cases hi
  | submit k inputs h => exact hsame (by simp [Series.builds, Move.key, h, Current.inputs])
  | publish k inputs h =>
      exact hsame (by simp [Series.builds, Move.key, h, Current.inputs, Ended.inputs])
  | reject k inputs h =>
      exact hsame (by simp [Series.builds, Move.key, h, Current.inputs, Ended.inputs])
  | discard k h => exact hsame (by simp [Series.builds, Move.key, h, Current.inputs, Ended.inputs])
  | cancel k inputs h =>
      exact hsame (by simp [Series.builds, Move.key, h, Current.inputs, Ended.inputs])

theorem Step.ended (h : Step c m c') (k : K) : (c k).ended <+: (c' k).ended := by
  obtain ⟨s, hs, rfl⟩ := h
  by_cases hk : k = m.key
  · subst hk
    rw [Function.update_self]
    exact hs.ended
  · rw [Function.update_of_ne hk]

/-! ## Inputs never go back -/

/-- Every version is built from published versions, and from no older ones than the versions
before it in its series. -/
structure Sound (c : Catalogue K) : Prop where
  published : ∀ k n inputs, (c k).BuiltFrom n inputs → ∀ u a, inputs u = some a →
    (c u).Published a
  ordered : ∀ k n n' inputs inputs', n ≤ n' → (c k).BuiltFrom n inputs →
    (c k).BuiltFrom n' inputs' → ∀ u a b, inputs u = some a → inputs' u = some b → a ≤ b

omit [DecidableEq K] in
theorem empty_sound : Sound (.empty : Catalogue K) := by
  have hnone : ∀ k n inputs, ¬ ((.empty : Catalogue K) k).BuiltFrom n inputs := by
    intro k n inputs h
    cases n with
    | zero => exact h
    | succ n => cases h
  exact ⟨fun k n inputs h => absurd h (hnone _ _ _),
    fun k n n' inputs inputs' _ h => absurd h (hnone _ _ _)⟩

theorem Sound.step (h : Sound c) (hs : Step c m c') : Sound c' := by
  have hended := hs.ended
  obtain ⟨s, hmakes, rfl⟩ := hs
  -- A version of the new catalogue is an old one, or has just been built.
  have hbuilt : ∀ k n inputs, (Function.update c m.key s k).BuiltFrom n inputs →
      (c k).BuiltFrom n inputs ∨ (∀ u b, inputs u = some b → (c u).Latest b)
        ∧ ∀ i earlier, (c k).BuiltFrom i earlier → i < n := by
    intro k n inputs hb
    by_cases hk : k = m.key
    · subst hk
      rw [Function.update_self] at hb
      exact hmakes.builtFrom hb
    · rw [Function.update_of_ne hk] at hb
      exact .inl hb
  have hpublished : ∀ k n inputs, (Function.update c m.key s k).BuiltFrom n inputs →
      ∀ u a, inputs u = some a → (c u).Published a := by
    intro k n inputs hb u a ha
    rcases hbuilt k n inputs hb with hold | ⟨hlatest, -⟩
    · exact h.published k n inputs hold u a ha
    · exact (hlatest u a ha).1
  refine ⟨fun k n inputs hb u a ha => (hpublished k n inputs hb u a ha).mono (hended u), ?_⟩
  intro k n n' inputs inputs' hle hb hb' u a b ha hbu
  rcases hbuilt k n' inputs' hb' with hold' | ⟨hlatest, -⟩
  · rcases hbuilt k n inputs hb with hold | ⟨-, hlast⟩
    · exact h.ordered k n n' inputs inputs' hle hold hold' u a b ha hbu
    · exact absurd (hlast n' inputs' hold') (by omega)
  · exact (hlatest u b hbu).2 a (hpublished k n inputs hb u a ha)

theorem Catalogue.Reached.sound (h : c.Reached) : Sound c := by
  induction h with
  | refl => exact empty_sound
  | tail _ hs ih =>
      obtain ⟨m, hm⟩ := hs
      exact ih.step hm

end CostEngine.Versioned
