import CostEngine.Demo.SimulatedSteps
import CostEngine.Demo.SimulatedSystem
import CostEngine.System.Scripts
import CostEngine.System.Writers
import Mathlib.Data.List.GetD

/-! # No ambiguous outcome is recorded of a rejected attempt

An attempt of the session is `DISPATCH_FAILED` only if its identity has been rejected by the
fake, and then nobody has an ambiguous result of it in hand any more. -/

namespace CostEngine

open Relation (ReflTransGen)
open FakeExecutor (Answer)

namespace SimulatedSystem

variable {owned : ExecutionIdentity → Prop} {D D' : SimulatedSystem owned}

/-! ## The invariant -/

structure Sound (D : SimulatedSystem owned) : Prop where
  core : Reachable False D.core
  runs : D.runs.Reached
  /-- What the legacy Run has in hand tells the fate, as what the explicit Runs have does. -/
  legacy : ∀ i result, D.legacy = some (i, result) →
    Answer (D.runs.adapters.fake.fate (executionKey i)) result
  rejected : ∀ id a, D.core.shared.db.executionAttempts.get? id = some a → owned a.identity →
    a.status = .dispatchFailed →
    D.runs.adapters.fake.fate (executionKey a.identity) = .rejected

theorem Begins.sound (h : D.Begins) : D.Sound where
  core := h.core
  runs := by
    obtain ⟨options, hruns⟩ := h.runs
    exact ⟨options, hruns ▸ .refl⟩
  legacy i result hlegacy := by
    rw [h.legacy] at hlegacy
    cases hlegacy
  rejected id a ha howned _ := absurd howned (h.attempts id a ha)

/-- Whoever records an outcome of the session has it in hand, so it tells the fate. -/
theorem Sound.answer (h : D.Sound) {c : DispatchCalculationCommand} {outcome : DispatchResult}
    (howned : owned c.identity) (hrecording : Recording D.core c outcome) :
    Answer (D.runs.adapters.fake.fate (executionKey c.identity)) outcome := by
  rcases D.passes c outcome howned hrecording with ⟨u, hu, hidentity, rfl⟩ | hlegacy
  · rw [← hidentity]
    exact (h.runs.sound.backed u (List.mem_append_right _ hu)).answer
  · exact h.legacy _ _ hlegacy

/-- Decided identities stay decided, and the legacy result with them. -/
theorem Sound.of_runs (h : D.Sound) (hruns : D.runs.Step D'.runs) (hcore : D'.core = D.core)
    (hlegacy : ∀ i result, D'.legacy = some (i, result) →
      Answer (D'.runs.adapters.fake.fate (executionKey i)) result) : D'.Sound where
  core := hcore ▸ h.core
  runs := by
    obtain ⟨options, hrun⟩ := h.runs
    exact ⟨options, .tail hrun hruns⟩
  legacy := hlegacy
  rejected id a ha howned hstatus := by
    rw [hcore] at ha
    have hfate := h.rejected id a ha howned hstatus
    rcases hruns.fate h.runs.sound (executionKey a.identity) with hsame | hunseen
    · exact hsame.trans hfate
    · rw [hfate] at hunseen
      cases hunseen

theorem Sound.core_step (h : D.Sound) (hstep : (machine False).Step D.core D'.core)
    (hruns : D'.runs = D.runs) (hlegacy : D'.legacy = D.legacy) : D'.Sound where
  core := h.core.step hstep
  runs := hruns ▸ h.runs
  legacy := by rw [hruns, hlegacy]; exact h.legacy
  rejected id a ha howned hstatus := by
    rw [hruns]
    rcases h.core.rejects hstep ha hstatus with hold | ⟨i, c, message, r, ws, hcommits, hidentity⟩
    · exact h.rejected id a hold howned hstatus
    · -- the Run that records the rejection has it from the fake
      obtain ⟨req, log, k, active, hi, -⟩ := hcommits
      rw [hidentity] at howned ⊢
      exact SimulatedRuns.fate_of_rejected
        (h.answer howned ⟨i, req, log, k, active, hi⟩) ⟨message, rfl⟩

theorem Step.sound (hstep : D.Step D') (h : D.Sound) : D'.Sound := by
  cases hstep with
  | core _ hcore hruns hlegacy => exact h.core_step hcore hruns hlegacy
  | runs _ _ hruns hcore hlegacy =>
      refine h.of_runs hruns hcore fun i result hsome => ?_
      rw [hlegacy] at hsome
      cases hsome
  | control c _ hc hfinish hnul hruns hcore hlegacy =>
      refine h.of_runs (hruns ▸ .control c hc hfinish hnul) hcore fun i result hsome => ?_
      have hfate := (FakeExecutor.call_decided (F := D.runs.adapters.fake) hc).2.1 (executionKey i)
      rw [hruns]
      exact hfate.symm ▸ h.legacy i result (hlegacy ▸ hsome)
  | legacy command _ _ hidle hnul hruns hcore hlegacy =>
      have hstep : D.runs.Step D'.runs := by
        rw [hruns]
        simpa using SimulatedRuns.Step.legacy command false hidle hnul
      refine h.of_runs hstep hcore fun i result hsome => ?_
      rw [hlegacy] at hsome
      cases hsome
      rw [hruns]
      exact (h.runs.sound.coherent.decided hnul none).2.1
  | legacyEnds _ hruns hcore hlegacy =>
      refine ⟨hcore ▸ h.core, hruns ▸ h.runs, fun i result hsome => ?_, ?_⟩
      · rw [hlegacy] at hsome
        cases hsome
      · rw [hruns, hcore]
        exact h.rejected

theorem Reached.sound (h : D.Reached) : D.Sound := by
  obtain ⟨D₀, hbegins, hrun⟩ := h
  induction hrun with
  | refl => exact hbegins.sound
  | tail _ hstep ih => exact hstep.sound ih

/-! ## What the deferral protects -/

structure Protects (D : SimulatedSystem owned) : Prop where
  /-- `recordDispatchOutcome` never receives `UNKNOWN` for an attempt that is
  `DISPATCH_FAILED`. -/
  received : ∀ c message, owned c.identity → Recording D.core c (.unknown message) →
    ∀ id a, D.core.shared.db.executionAttempts.get? id = some a → a.identity = c.identity →
      a.status ≠ .dispatchFailed
  /-- A dispatch of an explicit Run is counted if its answer is `UNKNOWN` and there is no run. -/
  opened : ∀ command simulation,
    (D.runs.adapters.fake.dispatchWithSimulation command simulation).1.finish ≠ none ↔
      (∃ message, (D.runs.adapters.fake.dispatchWithSimulation command simulation).1.result
        = .unknown message) ∧
      (D.runs.adapters.fake.dispatchWithSimulation command simulation).2.externalExecutions.get?
        (executionKey command.identity) = none
  /-- The count of a key is that of the answers not yet finished, and absent if there are none. -/
  counted : ∀ key, D.runs.adapters.fake.pendingUnboundOutcomes key
    = if D.runs.outstanding key = 0 then none else some (D.runs.outstanding key : Int)
  /-- `finish` finishes all answers of its Run, whether they were recorded or not. -/
  finished : ∀ A ∈ D.runs.adapters.requests, (A.finish D.runs.adapters.fake).1.releases = []
    ∧ ∀ n ∈ A.releases, (A.finish D.runs.adapters.fake).2.awaits n = false
  /-- An open identity without such an answer can be rejected, whatever came before. -/
  rejects : ∀ command,
    D.runs.adapters.fake.fate (executionKey command.identity) = .unseen →
    D.runs.outstanding (executionKey command.identity) = 0 →
    (D.runs.adapters.fake.dispatchWithSimulation command .reject).1.result
      = .rejected "Fake executor rejected dispatch"

/-- **The deferral protects the core**, in every run of the session's Runs beside all other
requests. -/
theorem recorded_outcomes_protected (h : D.Reached) : D.Protects where
  received c message howned hrecording id a ha hidentity hstatus := by
    have hanswer := h.sound.answer howned hrecording
    rw [← hidentity] at howned hanswer
    rw [h.sound.rejected id a ha howned hstatus] at hanswer
    cases hanswer
  opened command simulation := by
    obtain ⟨hanswer, hcloses⟩ := (D.runs.adapters.fake.decides command (some simulation)).answered
      h.sound.runs.sound.coherent
    exact hcloses.finish_ne_none (Option.some_ne_none _) hanswer
  counted key := by
    rw [h.sound.runs.sound.outstanding]
    exact h.sound.runs.sound.coherent.pending key
  finished A _ := by
    refine ⟨rfl, fun n hn => ?_⟩
    refine (FakeExecutor.releases_awaits (F := D.runs.adapters.fake) A.releases n).trans ?_
    simp [hn]
  rejects command hunseen hzero := by
    rw [h.sound.runs.sound.outstanding] at hzero
    rw [SimulatedRuns.reject_result h.sound.runs.sound.coherent hunseen, if_pos hzero]

/-! ## Two Runs of an attempt -/

/-- Nothing is being recorded. -/
abbrev Silent (st : System) : Prop := ∀ c outcome, ¬ Recording st c outcome

def silent (st : System) (runs : SimulatedRuns) (h : Silent st) : SimulatedSystem owned where
  core := st
  runs := runs
  legacy := none
  exclusive hlegacy := absurd rfl hlegacy
  passes c outcome _ hrecording := absurd hrecording (h c outcome)

theorem silent_core {st₀ st : System} {runs : SimulatedRuns} {h₀ : Silent st₀}
    (h : (silent st₀ runs h₀ : SimulatedSystem owned).Reached)
    (hrun : (machine False).RunWhere (fun st _ => Silent st) st₀ st) (hsilent : Silent st) :
    (silent st runs hsilent : SimulatedSystem owned).Reached := by
  induction hrun with
  | refl => exact h
  | step _ hstep hquiet ih =>
      obtain ⟨D₀, hbegins, hreached⟩ := ih hquiet
      exact ⟨D₀, hbegins, hreached.tail (.core _ hstep rfl rfl)⟩

theorem silent_runs {st : System} {runs runs' : SimulatedRuns} {hsilent : Silent st}
    (h : (silent st runs hsilent : SimulatedSystem owned).Reached) (hrun : runs.Run runs') :
    (silent st runs' hsilent : SimulatedSystem owned).Reached := by
  induction hrun with
  | refl => exact h
  | tail _ hstep ih =>
      obtain ⟨D₀, hbegins, hreached⟩ := ih
      exact ⟨D₀, hbegins, hreached.tail (.runs _ rfl hstep rfl rfl)⟩

/-- What the threads are recording. -/
def recordings (S : SystemStage) : List (DispatchCalculationCommand × DispatchResult) :=
  S.threads.filterMap fun
    | .inTxn _ _ (.recordDispatchOutcome c outcome) _ _ => some (c, outcome)
    | _ => none

theorem recording_iff {S : SystemStage} {c : DispatchCalculationCommand} {outcome : DispatchResult} :
    Recording S.state c outcome ↔ (c, outcome) ∈ recordings S := by
  simp only [recordings, List.mem_filterMap]
  constructor
  · rintro ⟨i, req, log, k, a, hi⟩
    have hi : S.thread i = _ := hi
    have hlt := Concurrency.Stage.lt_of_thread (by rw [hi]; exact fun h => by cases h)
    rw [Concurrency.Stage.thread, List.getD_eq_getElem _ _ hlt] at hi
    exact ⟨_, List.getElem_mem hlt, by rw [hi]⟩
  · rintro ⟨th, hth, hrecords⟩
    obtain ⟨i, hlt, rfl⟩ := List.mem_iff_getElem.mp hth
    split at hrecords
    · rename_i req log c' outcome' k a hi
      cases hrecords
      refine ⟨i, req, log, k, a, Eq.trans ?_ hi⟩
      exact List.getD_eq_getElem _ _ hlt
    · cases hrecords

theorem silent_of_recordings {S : SystemStage} (h : recordings S = []) : Silent S.state := by
  intro c outcome hrecording
  have hmem := recording_iff.mp hrecording
  rw [h] at hmem
  cases hmem

/-- The attempt of `SystemStage.sample`. -/
def sampleDispatch : DispatchCalculationCommand where
  executionAttemptId := "a1"
  attemptNumber := 1
  jobId := "v2"
  datasetVersionId := "v1"
  datasetBuildSnapshotId := "a0"
  calculationTypeId := "type"
  calculationTypeCode := "MARGIN"
  resolvedDependencyDefinitionVersionId := "definition"
  airflowDagId := "margin_dag"
  airflowDagRunId := "cost-engine-a1"
  upstreamDatasetVersions := []

def sampleUnknown : DispatchResult :=
  .unknown "Fake executor returned an ambiguous result without creating a run"

/-- Both Runs have dispatched, and the result of the first one has arrived. -/
theorem raced_runs : ∃ runs : SimulatedRuns, (SimulatedRuns.new {}).Run runs
    ∧ (∃ u ∈ runs.unrecorded, u.identity = sampleDispatch.identity ∧ u.result = sampleUnknown)
    ∧ runs.outstanding (executionKey sampleDispatch.identity) = 2 := by
  let A : RequestScopedFakeExecutor := .new .unknownWithoutCreation
  let B : RequestScopedFakeExecutor := .new .reject
  let R₂ : SimulatedRuns := { SimulatedRuns.new {} with
    adapters := { (SimulatedRuns.new {}).adapters with requests := [A] ++ [B] } }
  let R₃ : SimulatedRuns := { R₂ with adapters := R₂.adapters.dispatched 0 A sampleDispatch }
  let R₄ : SimulatedRuns := { R₃ with adapters := R₃.adapters.dispatched 1 B sampleDispatch }
  let p : PendingObservation :=
    ⟨0, sampleDispatch.identity, (A.dispatch R₂.adapters.fake sampleDispatch).1⟩
  let q : PendingObservation :=
    ⟨1, sampleDispatch.identity, (B.dispatch R₃.adapters.fake sampleDispatch).1⟩
  let R₅ : SimulatedRuns := { R₄ with
    adapters := { R₄.adapters with
      requests := R₄.adapters.requests.set 0 (A.observe p.identity p.observation)
      pending := [] ++ [q] }
    unrecorded := [⟨0, p.identity, p.observation.result⟩] }
  have hnul : sampleDispatch.identity.NulFree := ⟨by decide, by decide⟩
  have hdispatched : (SimulatedRuns.new {}).Run R₄ :=
    .tail (.tail (.tail (.single (.request .unknownWithoutCreation)) (.request .reject))
      (.dispatch 0 A sampleDispatch rfl hnul)) (.dispatch 1 B sampleDispatch rfl hnul)
  have hobserved : R₄.Step R₅ := .observe [] p [q] A rfl rfl
  refine ⟨R₅, hdispatched.tail hobserved, ⟨_, List.mem_singleton_self _, rfl, ?_⟩, ?_⟩
  · decide +kernel
  · decide +kernel

/-- The first Run is recording its ambiguous answer, and the rejection of the other is deferred. -/
theorem recorded_outcomes_protected_raced : ∃ D : SimulatedSystem fun _ => True, D.Reached
    ∧ Recording D.core sampleDispatch sampleUnknown
    ∧ D.runs.outstanding (executionKey sampleDispatch.identity) = 2 ∧ D.Protects := by
  obtain ⟨runs, hruns, hinHand, houtstanding⟩ := raced_runs
  obtain ⟨S, hS, hp⟩ := (Option.any_eq_true (fun S => decide (recordings S = [])
      && (Concurrency.nextStatement (machine False) S 1 (drawing "a")).any fun S' =>
        decide (recordings S' = [(sampleDispatch, sampleUnknown)])) _).mp
    (show (Concurrency.playWhile (machine False) (fun S => decide (recordings S = []))
      (Script.dispatched False ++ Script.answers False 1 sampleUnknown .notFound)
      SystemStage.sample).any _ = true by decide +kernel)
  obtain ⟨hquiet, hnext⟩ := Bool.and_eq_true_iff.mp hp
  obtain ⟨S', hS', hrecords⟩ := (Option.any_eq_true _ _).mp hnext
  have hsilent : Silent S.state := silent_of_recordings (of_decide_eq_true hquiet)
  have hrecords : recordings S' = [(sampleDispatch, sampleUnknown)] := of_decide_eq_true hrecords
  have hstart : Silent SystemStage.sample.state := silent_of_recordings rfl
  have hbegins : Begins (silent SystemStage.sample.state (.new {}) hstart :
      SimulatedSystem fun _ => True) := by
    refine ⟨⟨_, SystemStage.sample_initial, .refl _⟩, fun id a ha => ?_, ⟨{}, rfl⟩, rfl⟩
    cases ha
  have hreached := silent_runs (silent_core ⟨_, hbegins, .refl⟩
    (Concurrency.playWhile_run (fun S _ h => silent_of_recordings (of_decide_eq_true h)) hS) hsilent)
    hruns
  let D : SimulatedSystem fun _ => True :=
    { core := S'.state, runs := runs, legacy := none, exclusive := fun h => absurd rfl h
      passes := fun c outcome _ hrecording => by
        have hmem := recording_iff.mp hrecording
        rw [hrecords, List.mem_singleton] at hmem
        cases hmem
        exact .inl hinHand }
  have hD : D.Reached := by
    obtain ⟨D₀, hbegins, hrun⟩ := hreached
    exact ⟨D₀, hbegins, hrun.tail (.core D (Concurrency.nextStatement_step hS') rfl rfl)⟩
  exact ⟨D, hD, recording_iff.mpr (by rw [hrecords]; exact List.mem_singleton_self _), houtstanding,
    recorded_outcomes_protected hD⟩

end SimulatedSystem

end CostEngine
