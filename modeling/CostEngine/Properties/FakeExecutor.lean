import CostEngine.Executor.Fate

/-! # `FakeExecutor` honours ADR-0008

Every identity is decided once, whatever calls are made afterwards. -/

namespace CostEngine

open Relational (Table)
open Relation (ReflTransGen)

variable {F F' : FakeExecutor} {i : ExecutionIdentity}

namespace FakeExecutor

/-- The runs of an identity. -/
def runs (F : FakeExecutor) (i : ExecutionIdentity) : List FakeExternalExecution :=
  F.externalExecutions.select fun e => e.identity = i

/-- Calls made one after the other, on identities without a separator. -/
def Run : FakeExecutor → FakeExecutor → Prop :=
  ReflTransGen fun F F' => ∃ c : FakeCall, c.NulFree ∧ F' = F.call c

/-- The executor is one that its calls have brought about. -/
def Reached (F : FakeExecutor) : Prop := ∃ options, (new options).Run F

theorem Run.coherent (h : F.Run F') (hF : F.Coherent) : F'.Coherent ∧ F.Keeps F' := by
  induction h with
  | refl => exact ⟨hF, .refl⟩
  | tail _ hc ih =>
      obtain ⟨c, hnul, rfl⟩ := hc
      obtain ⟨hF₁, hkeeps₁⟩ := ih
      obtain ⟨hF₂, hkeeps₂⟩ := hF₁.call hnul
      exact ⟨hF₂, hkeeps₁.trans hkeeps₂ hF₁.exclusive⟩

theorem Reached.coherent (h : F.Reached) : F.Coherent := by
  obtain ⟨options, hr⟩ := h
  exact (Run.coherent hr (new_coherent options)).1

/-! ## Runs by identity and by key -/

theorem Coherent.identity_of_key (h : F.Coherent) (hi : i.NulFree) {e : FakeExternalExecution}
    (he : F.externalExecutions.get? (executionKey i) = some e) : e.identity = i := by
  have hmem := Table.get?_mem he
  have hkey := (Table.get?_eq_some.mp he).2
  exact executionKey_inj (h.nulFree e hmem) hi hkey

theorem Coherent.runs_eq (h : F.Coherent) (hi : i.NulFree) :
    F.runs i = (F.externalExecutions.get? (executionKey i)).toList := by
  have hrow : ∀ e, e ∈ F.runs i ↔ F.externalExecutions.get? (executionKey i) = some e := by
    intro e
    rw [runs, Table.mem_select, decide_eq_true_eq]
    constructor
    · rintro ⟨he, rfl⟩
      exact Table.get?_of_mem he
    · exact fun he => ⟨Table.get?_mem he, h.identity_of_key hi he⟩
  cases hget : F.externalExecutions.get? (executionKey i) with
  | none =>
      refine List.eq_nil_iff_forall_not_mem.mpr fun e he => ?_
      exact Table.no_row hget ((hrow e).mp he)
  | some e =>
      have hnodup : (F.runs i).Nodup :=
        (List.Nodup.of_map _ F.externalExecutions.nodup).filter _
      refine List.perm_singleton.mp ((List.perm_ext_iff_of_nodup hnodup ?_).mpr fun e' => ?_)
      · exact List.nodup_singleton e
      · rw [hrow, hget, List.mem_singleton, Option.some.injEq, eq_comm]

theorem Coherent.runs_ne_nil (h : F.Coherent) (hi : i.NulFree) :
    F.runs i ≠ [] ↔ F.fate (executionKey i) = .created := by
  rw [fate_eq_created, h.runs_eq hi]
  cases F.externalExecutions.get? (executionKey i) <;> simp

/-! ## One dispatch -/

theorem Decides.result_rejected {command : DispatchCalculationCommand}
    {simulation : Option FakeRunSimulation} {o : FakeSimulatedDispatch} {message : String}
    (h : F.Decides command simulation o F') (hr : o.result = .rejected message) :
    executionKey command.identity ∈ F'.rejectedIdentities := by
  cases h with
  | «exists» hf => cases hr
  | rejected hf => exact (fate_eq_rejected.mp hf).2
  | rejects F₁ hf htake hpending =>
      obtain ⟨decisions, hbind, -⟩ := bind_eq
        { F₁ with rejectedIdentities := F₁.rejectedIdentities ++ [executionKey command.identity] }
        (executionKey command.identity) simulation
      unfold FakeExecutor.tombstone
      rw [hbind]
      exact List.mem_append_right _ (List.mem_singleton_self _)
  | unbound behavior F₁ m hf htake hb => cases simulation <;> cases hr
  | creates behavior F₁ result hf htake hb =>
      rcases hb with ⟨-, rfl⟩ | ⟨-, m, rfl⟩ <;> cases hr

theorem Decides.of_created {command : DispatchCalculationCommand}
    {simulation : Option FakeRunSimulation} {o : FakeSimulatedDispatch}
    (h : F.Decides command simulation o F')
    (hf : F.fate (executionKey command.identity) = .created) : o.result = .alreadyExists := by
  cases h with
  | «exists» _ => rfl
  | rejected hf' => exact absurd (hf.symm.trans hf') (by decide)
  | rejects _ hf' | unbound _ _ _ hf' | creates _ _ _ hf' =>
      exact absurd (hf.symm.trans hf') (by decide)

theorem Decides.of_rejected {command : DispatchCalculationCommand}
    {simulation : Option FakeRunSimulation} {o : FakeSimulatedDispatch}
    (h : F.Decides command simulation o F')
    (hf : F.fate (executionKey command.identity) = .rejected) :
    ∃ message, o.result = .rejected message := by
  cases h with
  | «exists» hf' => exact absurd (hf.symm.trans hf') (by decide)
  | rejected _ => exact ⟨_, rfl⟩
  | rejects _ hf' | unbound _ _ _ hf' | creates _ _ _ hf' =>
      exact absurd (hf.symm.trans hf') (by decide)

end FakeExecutor

/-! ## The queue -/

/-- What a dispatch of an undecided identity may do with a behavior: its answer, and whether
there is a run afterwards. A rejection may be deferred. -/
inductive FakeDispatchBehavior.Does : FakeDispatchBehavior → DispatchResult → Prop → Prop
  | accept {created : Prop} : created → Does .accept .accepted created
  | acceptThenUnknown {created : Prop} (message : String) : created →
      Does .acceptThenUnknown (.unknown message) created
  | reject {created : Prop} (message : String) : ¬ created →
      Does .reject (.rejected message) created
  | deferred {created : Prop} (message : String) : ¬ created →
      Does .reject (.unknown message) created
  | unknownWithoutCreation {created : Prop} (message : String) : ¬ created →
      Does .unknownWithoutCreation (.unknown message) created

namespace FakeExecutor

/-- Of a decided identity, or with an explicit simulation, a dispatch takes nothing. -/
theorem Decides.queue_kept {command : DispatchCalculationCommand}
    {simulation : Option FakeRunSimulation} {o : FakeSimulatedDispatch}
    (h : F.Decides command simulation o F')
    (hd : simulation.isSome = true ∨ F.fate (executionKey command.identity) ≠ .unseen) :
    F'.scriptedBehaviors = F.scriptedBehaviors := by
  have htaken : ∀ {behavior F₁}, F.fate (executionKey command.identity) = .unseen →
      (F.noted command).takeBehavior simulation = (behavior, F₁) →
      F₁.scriptedBehaviors = F.scriptedBehaviors := by
    intro behavior F₁ hf htake
    obtain ⟨rfl, -⟩ := takeBehavior_eq htake
    exact if_pos (hd.resolve_right (not_not.mpr hf))
  cases h with
  | «exists» _ => rfl
  | rejected _ => rfl
  | rejects F₁ hf htake _ | creates _ F₁ _ hf htake _ =>
      rw [← htaken hf htake]
      cases simulation <;> rfl
  | unbound _ F₁ _ hf htake _ =>
      rw [← htaken hf htake]
      cases simulation <;> rfl

/-- Every other dispatch takes the head of the queue, or the default, and does what it says. -/
theorem Decides.queue_taken {command : DispatchCalculationCommand} {o : FakeSimulatedDispatch}
    (h : F.Decides command none o F') (hf : F.fate (executionKey command.identity) = .unseen) :
    F'.scriptedBehaviors = F.scriptedBehaviors.tail
      ∧ (F.scriptedBehaviors.headD F.defaultBehavior).Does o.result
        (F'.fate (executionKey command.identity) = .created) := by
  have hnone := (fate_eq_unseen.mp hf).1
  have htaken : ∀ {behavior F₁}, (F.noted command).takeBehavior none = (behavior, F₁) →
      F₁.scriptedBehaviors = F.scriptedBehaviors.tail
        ∧ F.scriptedBehaviors.headD F.defaultBehavior = behavior
        ∧ F₁.externalExecutions = F.externalExecutions := by
    intro behavior F₁ htake
    obtain ⟨rfl, hb⟩ := takeBehavior_eq htake
    exact ⟨rfl, hb.symm, rfl⟩
  have hnot : ∀ {F' : FakeExecutor}, F'.externalExecutions = F.externalExecutions →
      F'.fate (executionKey command.identity) ≠ .created := by
    intro F' he
    rw [Ne, fate_eq_created, he, not_not]
    exact hnone
  cases h with
  | «exists» hf' | rejected hf' => exact absurd (hf.symm.trans hf') (by decide)
  | rejects F₁ _ htake _ =>
      obtain ⟨hqueue, hb, he⟩ := htaken htake
      rw [hb]
      exact ⟨hqueue, .reject _ (hnot he)⟩
  | unbound behavior F₁ message _ htake hb' =>
      obtain ⟨hqueue, hb, he⟩ := htaken htake
      rw [hb]
      rcases hb' with rfl | rfl
      · exact ⟨hqueue, .unknownWithoutCreation _ (hnot he)⟩
      · exact ⟨hqueue, .deferred _ (hnot he)⟩
  | creates behavior F₁ result _ htake hb' =>
      obtain ⟨hqueue, hb, he⟩ := htaken htake
      rw [hb]
      have hcreated : (F₁.create command none).fate (executionKey command.identity)
          = .created := by
        have hget : (F.externalExecutions.insert (execution command none)).get?
            (executionKey command.identity)
              = if executionKey command.identity = executionKey command.identity then
                  some (execution command none)
                else F.externalExecutions.get? (executionKey command.identity) :=
          Table.get?_insert hnone
        refine fate_of_some (e := execution command none) ?_
        show (F₁.externalExecutions.insert (execution command none)).get? _ = _
        rw [he]
        exact hget.trans (if_pos rfl)
      rcases hb' with ⟨rfl, rfl⟩ | ⟨rfl, message, rfl⟩
      · exact ⟨hqueue, .accept hcreated⟩
      · exact ⟨hqueue, .acceptThenUnknown _ hcreated⟩

end FakeExecutor

/-! ## The state of a run -/

/-- The call is a control of the state of the identity's run. -/
def FakeCall.Controls : FakeCall → ExecutionIdentity → Prop
  | .setExecutionState identity _, i => identity = i
  | .setExecutionStateByDagRunId airflowDagRunId _, i => airflowDagRunId = i.airflowDagRunId
  | _, _ => False

namespace FakeExecutor

theorem Decides.run_kept {command : DispatchCalculationCommand}
    {simulation : Option FakeRunSimulation} {o : FakeSimulatedDispatch}
    (h : F.Decides command simulation o F') {key : String} {e : FakeExternalExecution}
    (he : F.externalExecutions.get? key = some e) :
    F'.externalExecutions.get? key = some e := by
  have htaken : ∀ {behavior F₁}, (F.noted command).takeBehavior simulation = (behavior, F₁) →
      F₁.externalExecutions = F.externalExecutions := by
    intro behavior F₁ htake
    obtain ⟨rfl, -⟩ := takeBehavior_eq htake
    rfl
  cases h with
  | «exists» _ | rejected _ => exact he
  | rejects F₁ _ htake _ =>
      rw [← htaken htake] at he
      cases simulation <;> exact he
  | unbound _ F₁ _ _ htake _ =>
      rw [← htaken htake] at he
      cases simulation <;> exact he
  | creates _ F₁ _ _ htake _ =>
      rw [← htaken htake] at he
      cases simulation <;> exact Table.get?_insert_of_some he

/-- Only a control of its own identity changes a run. -/
theorem Coherent.run_kept (h : F.Coherent) (hi : i.NulFree) {c : FakeCall} (hc : c.NulFree)
    (hcontrols : ¬ c.Controls i) {e : FakeExternalExecution}
    (he : F.externalExecutions.get? (executionKey i) = some e) :
    (F.call c).externalExecutions.get? (executionKey i) = some e := by
  have hstate : ∀ {e' : FakeExternalExecution} {state : FakeExecutionState},
      e'.identity.NulFree → e'.identity ≠ i →
      (F.withState e' state).externalExecutions.get? (executionKey i) = some e := by
    intro e' state hnul hne
    refine Table.get?_put.trans ?_
    show (if executionKey e'.identity = executionKey i then _ else _) = _
    rw [if_neg fun hkey => hne (executionKey_inj hnul hi hkey)]
    exact he
  cases c with
  | dispatch command => exact (F.decides command none).run_kept he
  | dispatchWithSimulation command simulation =>
      exact (F.decides command (some simulation)).run_kept he
  | finish n =>
      show (F.finish n).externalExecutions.get? _ = _
      unfold FakeExecutor.finish
      split
      · exact he
      · split <;> exact he
  | setExecutionState identity state =>
      show (F.setExecutionState identity state).2.externalExecutions.get? _ = _
      unfold setExecutionState
      split
      · exact he
      · rename_i e' he'
        have hid := h.identity_of_key hc he'
        exact hstate (hid ▸ hc) fun hei => hcontrols (hid.symm.trans hei)
  | setExecutionStateByDagRunId airflowDagRunId state =>
      show (F.setExecutionStateByDagRunId airflowDagRunId state).2.externalExecutions.get? _ = _
      unfold setExecutionStateByDagRunId
      split
      · rename_i e' hselect
        have hmem : e' ∈ F.externalExecutions.select fun execution =>
            execution.airflowDagRunId = airflowDagRunId := by
          rw [hselect]
          exact List.mem_singleton_self e'
        obtain ⟨hrow, hrun⟩ := Table.mem_select.mp hmem
        refine hstate (h.nulFree e' hrow) fun hei => hcontrols ?_
        rw [decide_eq_true_eq] at hrun
        exact hrun.symm.trans (congrArg (·.airflowDagRunId) hei)
      · exact he
  | getExecutionStatus identity =>
      obtain ⟨history, hsame⟩ := F.getExecutionStatus_eq identity
      show (F.getExecutionStatus identity).2.externalExecutions.get? _ = _
      rw [hsame]
      exact he
  | _ => exact he

/-! ## The property -/

/-- **The executor honours ADR-0008**, over all histories of calls: an identity is rejected
or has one run, for good, and the queue is used for undecided identities only. -/
theorem fake_executor_honours (h : F.Reached) (hi : i.NulFree) :
    ((F.runs i).length ≤ 1 ∧ (executionKey i ∈ F.rejectedIdentities → F.runs i = []))
    ∧ (∀ command simulation message, command.identity = i →
        (F.decideDispatch command simulation).1.result = .rejected message →
        ∀ F', (F.decideDispatch command simulation).2.Run F' →
          F'.runs i = []
          ∧ (∀ command' simulation', command'.identity = i → ∃ message',
              (F'.decideDispatch command' simulation').1.result = .rejected message')
          ∧ ((F'.getExecutionStatus i).1 = .notFound
              ∨ ∃ message', (F'.getExecutionStatus i).1 = .unavailable message'))
    ∧ (∀ e ∈ F.runs i, ∀ F', F.Run F' →
        (∀ command simulation, command.identity = i →
          (F'.decideDispatch command simulation).1.result = .alreadyExists)
        ∧ (∃ state, F'.runs i = [{ e with state }])
        ∧ F'.simulationDecisions (executionKey i) = F.simulationDecisions (executionKey i))
    ∧ (∀ c : FakeCall, c.NulFree → ¬ c.Controls i → F.runs i ≠ [] →
        (F.call c).runs i = F.runs i)
    ∧ (∀ command simulation,
        simulation.isSome = true ∨ F.fate (executionKey command.identity) ≠ .unseen →
        (F.decideDispatch command simulation).2.scriptedBehaviors = F.scriptedBehaviors)
    ∧ ∀ command, F.fate (executionKey command.identity) = .unseen →
        (F.decideDispatch command none).2.scriptedBehaviors = F.scriptedBehaviors.tail
        ∧ (F.scriptedBehaviors.headD F.defaultBehavior).Does (F.decideDispatch command none).1.result
          ((F.decideDispatch command none).2.fate (executionKey command.identity) = .created) := by
  have hF := h.coherent
  refine ⟨⟨?_, fun hrejected => ?_⟩, fun command simulation message hci hr F' hrun => ?_,
    fun e he F' hrun => ?_, fun c hc hcontrols hne => ?_,
    fun command simulation hd => (F.decides command simulation).queue_kept hd,
    fun command hf => (F.decides command none).queue_taken hf⟩
  · rw [hF.runs_eq hi]
    cases F.externalExecutions.get? (executionKey i) <;> simp
  · rw [hF.runs_eq hi, hF.exclusive _ hrejected]
    rfl
  · subst hci
    have hrejected := (F.decides command simulation).result_rejected hr
    obtain ⟨hF', hkeeps⟩ := hrun.coherent (hF.decideDispatch hi).1
    have hrejected' := hkeeps.rejected _ hrejected
    have hnone := hF'.exclusive _ hrejected'
    have hfate := fate_eq_rejected.mpr ⟨hnone, hrejected'⟩
    refine ⟨by rw [hF'.runs_eq hi, hnone]; rfl, fun command' simulation' hci => ?_, ?_⟩
    · exact (F'.decides command' simulation').of_rejected (hci ▸ hfate)
    · unfold getExecutionStatus
      dsimp only
      rw [hnone]
      cases F'.statusLookupUnavailableMessage with
      | none => exact .inl rfl
      | some message' => exact .inr ⟨message', rfl⟩
  · obtain ⟨hF', hkeeps⟩ := hrun.coherent hF
    have hget : F.externalExecutions.get? (executionKey i) = some e := by
      rw [hF.runs_eq hi, Option.mem_toList] at he
      exact he
    obtain ⟨state, hget'⟩ := hkeeps.runs _ e hget
    refine ⟨fun command simulation hci => ?_, ⟨state, by rw [hF'.runs_eq hi, hget']; rfl⟩,
      hkeeps.decisions _ (by rw [fate_of_some hget]; decide)⟩
    exact (F'.decides command simulation).of_created (hci ▸ fate_of_some hget')
  · obtain ⟨e, he⟩ := Option.ne_none_iff_exists'.mp (fate_eq_created.mp ((hF.runs_ne_nil hi).mp hne))
    rw [(hF.call hc).1.runs_eq hi, hF.runs_eq hi, he, hF.run_kept hi hc hcontrols he]

/-- A command of a first attempt. -/
def sampleCommand : DispatchCalculationCommand where
  executionAttemptId := "a"
  attemptNumber := 1
  jobId := "j"
  datasetVersionId := "v"
  datasetBuildSnapshotId := "b"
  calculationTypeId := "type"
  calculationTypeCode := "MARGIN"
  resolvedDependencyDefinitionVersionId := "definition"
  airflowDagId := "dag"
  airflowDagRunId := "run"
  upstreamDatasetVersions := []

theorem fake_executor_honours_rejected :
    ((new { scriptedBehaviors := [.reject] }).decideDispatch sampleCommand none).1.result
        = .rejected "Fake executor rejected dispatch"
      ∧ ∀ F', ((new { scriptedBehaviors := [.reject] }).decideDispatch sampleCommand none).2.Run F' →
          F'.runs sampleCommand.identity = [] := by
  have hnul : sampleCommand.identity.NulFree := ⟨by decide, by decide⟩
  have hresult : ((new { scriptedBehaviors := [.reject] }).decideDispatch sampleCommand none).1.result
      = .rejected "Fake executor rejected dispatch" := by decide +kernel
  exact ⟨hresult, fun F' hr => ((fake_executor_honours ⟨_, .refl⟩ hnul).2.1 sampleCommand none _ rfl
    hresult F' hr).1⟩

end FakeExecutor

end CostEngine
