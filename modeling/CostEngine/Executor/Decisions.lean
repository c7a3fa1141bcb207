import CostEngine.Executor.Fate

/-! # What a call does to the decisions

A dispatch decides one identity or none, and records a simulation for it only when it does. -/

namespace CostEngine

open Relational (Table)

namespace FakeExecutor

variable {F F' : FakeExecutor} {key : String} {command : DispatchCalculationCommand}
variable {simulation : Option FakeRunSimulation} {o : FakeSimulatedDispatch}

theorem fate_of_eq (h₁ : F'.externalExecutions = F.externalExecutions)
    (h₂ : F'.rejectedIdentities = F.rejectedIdentities) : F'.fate key = F.fate key := by
  unfold fate
  rw [h₁, h₂]

/-! ## Writing a decision -/

/-- The decisions with one for the key, of the dispatch number `object`. -/
def decisionsWith (F : FakeExecutor) (key : String) (object : Nat) :
    Option FakeRunSimulation → String → Option FakeSimulationDecision
  | none => F.simulationDecisions
  | some simulation => Function.update F.simulationDecisions key (some ⟨simulation, object⟩)

theorem simulationDecisions_bind : (F.bind key simulation).simulationDecisions
    = F.decisionsWith key F.dispatchHistory.length simulation := by
  cases simulation <;> rfl

theorem decisionsWith_eq (h : F'.simulationDecisions = F.simulationDecisions) {object : Nat} :
    F'.decisionsWith key object simulation = F.decisionsWith key object simulation := by
  cases simulation with
  | none => exact h
  | some simulation => exact congrArg (Function.update · key _) h

theorem dispatchHistory_bind : (F.bind key simulation).dispatchHistory = F.dispatchHistory := by
  cases simulation <;> rfl

theorem fate_bind {key' : String} : (F.bind key simulation).fate key' = F.fate key' := by
  cases simulation <;> rfl

/-! ## Rejecting and creating -/

theorem fate_tombstone (simulation : Option FakeRunSimulation) (key' : String)
    (h : F.fate key = .unseen) :
    (F.tombstone key simulation).fate key' = if key' = key then .rejected else F.fate key' := by
  obtain ⟨hnone, hfresh⟩ := fate_eq_unseen.mp h
  refine fate_bind.trans ?_
  split
  · rename_i hkey
    exact fate_eq_rejected.mpr
      ⟨hkey ▸ hnone, List.mem_append_right _ (List.mem_singleton.mpr hkey)⟩
  · rename_i hkey
    unfold fate
    dsimp only
    simp only [List.mem_append, List.mem_singleton, hkey, or_false]

theorem fate_create (simulation : Option FakeRunSimulation) (key' : String)
    (h : F.fate (executionKey command.identity) = .unseen) :
    (F.create command simulation).fate key'
      = if key' = executionKey command.identity then .created else F.fate key' := by
  obtain ⟨hnone, hfresh⟩ := fate_eq_unseen.mp h
  have hget : (F.externalExecutions.insert (execution command simulation)).get? key'
      = if executionKey command.identity = key' then some (execution command simulation)
        else F.externalExecutions.get? key' := Relational.Table.get?_insert hnone
  refine fate_bind.trans ?_
  split
  · rename_i hkey
    exact fate_of_some (hget.trans (if_pos hkey.symm))
  · rename_i hkey
    unfold fate
    dsimp only
    rw [hget, if_neg (Ne.symm hkey)]

/-! ## A dispatch -/

/-- What a dispatch decides: nothing, or its own identity, which was undecided. -/
theorem Decides.decided (h : F.Decides command simulation o F') :
    F'.dispatchHistory.length = F.dispatchHistory.length + 1
    ∧ ((o.applied = false ∧ (∀ key, F'.fate key = F.fate key)
          ∧ F'.simulationDecisions = F.simulationDecisions)
        ∨ (F.fate (executionKey command.identity) = .unseen
          ∧ F'.fate (executionKey command.identity) ≠ .unseen
          ∧ (∀ key, key ≠ executionKey command.identity → F'.fate key = F.fate key)
          ∧ o.applied = simulation.isSome
          ∧ o.decision = F'.simulationDecisions (executionKey command.identity)
          ∧ F'.simulationDecisions = F.decisionsWith (executionKey command.identity)
              (F.dispatchHistory.length + 1) simulation)) := by
  have hnoted : (F.noted command).dispatchHistory.length = F.dispatchHistory.length + 1 :=
    List.length_append
  -- Taking a behavior changes the queue only.
  have htaken : ∀ {behavior F₁}, (F.noted command).takeBehavior simulation = (behavior, F₁) →
      F₁.dispatchHistory.length = F.dispatchHistory.length + 1
        ∧ (∀ key, F₁.fate key = F.fate key) ∧ F₁.simulationDecisions = F.simulationDecisions := by
    intro behavior F₁ htake
    obtain ⟨rfl, -⟩ := takeBehavior_eq htake
    exact ⟨hnoted, fun _ => rfl, rfl⟩
  cases h with
  | «exists» hf | rejected hf => exact ⟨hnoted, .inl ⟨rfl, fun _ => rfl, rfl⟩⟩
  | rejects F₁ hf htake hpending =>
      obtain ⟨hlength, hfate, hdecisions⟩ := htaken htake
      have hnew := fun key' => fate_tombstone simulation key'
        ((hfate (executionKey command.identity)).trans hf)
      refine ⟨(congrArg List.length dispatchHistory_bind).trans hlength,
        .inr ⟨hf, ?_, fun key hkey => ?_, rfl, rfl, ?_⟩⟩
      · rw [hnew, if_pos rfl]
        decide
      · rw [hnew, if_neg hkey, hfate]
      · refine simulationDecisions_bind.trans (Eq.trans ?_ (decisionsWith_eq hdecisions))
        rw [← hlength]
        rfl
  | unbound behavior F₁ message hf htake hb =>
      obtain ⟨hlength, hfate, hdecisions⟩ := htaken htake
      cases simulation with
      | none => exact ⟨hlength, .inl ⟨rfl, hfate, hdecisions⟩⟩
      | some simulation => exact ⟨hlength, .inl ⟨rfl, hfate, hdecisions⟩⟩
  | creates behavior F₁ result hf htake hb =>
      obtain ⟨hlength, hfate, hdecisions⟩ := htaken htake
      have hnew := fun key' => fate_create simulation key'
        ((hfate (executionKey command.identity)).trans hf)
      refine ⟨(congrArg List.length dispatchHistory_bind).trans hlength,
        .inr ⟨hf, ?_, fun key hkey => ?_, rfl, rfl, ?_⟩⟩
      · rw [hnew, if_pos rfl]
        decide
      · rw [hnew, if_neg hkey, hfate]
      · refine simulationDecisions_bind.trans (Eq.trans ?_ (decisionsWith_eq hdecisions))
        rw [← hlength]
        rfl

/-! ## The other calls -/

/-- The state of a run has no part in what became of its identity. -/
theorem fate_withState {e : FakeExternalExecution} {state : FakeExecutionState} :
    (F.withState e state).fate key = F.fate key := by
  have hget : (F.withState e state).externalExecutions.get? key
      = if executionKey e.identity = key then
          (F.externalExecutions.get? key).map fun _ => { e with state }
        else F.externalExecutions.get? key := Table.get?_put
  unfold fate
  rw [hget]
  by_cases hk : executionKey e.identity = key
  · rw [if_pos hk]
    cases F.externalExecutions.get? key <;> rfl
  · rw [if_neg hk]
    rfl

/-- The other calls decide nothing. -/
theorem call_decided {c : FakeCall} (hc : c.dispatched = none) :
    (F.call c).dispatchHistory = F.dispatchHistory ∧ (∀ key, (F.call c).fate key = F.fate key)
      ∧ (F.call c).simulationDecisions = F.simulationDecisions := by
  cases c with
  | dispatch command => cases hc
  | dispatchWithSimulation command simulation => cases hc
  | finish n =>
      show (F.finish n).dispatchHistory = _ ∧ (∀ key, (F.finish n).fate key = _)
        ∧ (F.finish n).simulationDecisions = _
      unfold FakeExecutor.finish
      split
      · exact ⟨rfl, fun _ => rfl, rfl⟩
      · split <;> exact ⟨rfl, fun _ => rfl, rfl⟩
  | setExecutionState identity state =>
      show (F.setExecutionState identity state).2.dispatchHistory = _
        ∧ (∀ key, (F.setExecutionState identity state).2.fate key = _)
        ∧ (F.setExecutionState identity state).2.simulationDecisions = _
      unfold setExecutionState
      split
      · exact ⟨rfl, fun _ => rfl, rfl⟩
      · exact ⟨rfl, fun _ => fate_withState, rfl⟩
  | setExecutionStateByDagRunId airflowDagRunId state =>
      show (F.setExecutionStateByDagRunId airflowDagRunId state).2.dispatchHistory = _
        ∧ (∀ key, (F.setExecutionStateByDagRunId airflowDagRunId state).2.fate key = _)
        ∧ (F.setExecutionStateByDagRunId airflowDagRunId state).2.simulationDecisions = _
      unfold setExecutionStateByDagRunId
      split
      · exact ⟨rfl, fun _ => fate_withState, rfl⟩
      · exact ⟨rfl, fun _ => rfl, rfl⟩
  | getExecutionStatus identity =>
      obtain ⟨history, hsame⟩ := F.getExecutionStatus_eq identity
      show (F.getExecutionStatus identity).2.dispatchHistory = _
        ∧ (∀ key, (F.getExecutionStatus identity).2.fate key = _)
        ∧ (F.getExecutionStatus identity).2.simulationDecisions = _
      rw [hsame]
      exact ⟨rfl, fun _ => rfl, rfl⟩
  | _ => exact ⟨rfl, fun _ => rfl, rfl⟩

/-- Nor does calling some closures. -/
theorem finish_decided (releases : List Nat) :
    (releases.foldl finish F).dispatchHistory = F.dispatchHistory
      ∧ (∀ key, (releases.foldl finish F).fate key = F.fate key)
      ∧ (releases.foldl finish F).simulationDecisions = F.simulationDecisions := by
  induction releases generalizing F with
  | nil => exact ⟨rfl, fun _ => rfl, rfl⟩
  | cons n releases ih =>
      obtain ⟨h₁, h₂, h₃⟩ := ih (F := F.finish n)
      obtain ⟨hhistory, hfate, hdecisions⟩ := call_decided (F := F) (c := .finish n) rfl
      exact ⟨h₁.trans hhistory, fun key => (h₂ key).trans (hfate key), h₃.trans hdecisions⟩

end FakeExecutor

end CostEngine
