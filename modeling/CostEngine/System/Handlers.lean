import CostEngine.System.Specification

/-! # The handlers are good

Every request handler begins its transactions with what their specifications ask for,
sends only commands of dispatched attempts, and ends as `Request.Post` says. What a call has
done is in its log. -/

namespace CostEngine

open Concurrency (Call Discipline Outcome Ends)
open Relational (Table)

variable {honours : Prop} {g : Moment} {α : Type}

/-! ## How a call ends -/

/-! ### A Run -/

/-- The errors of preparing a first attempt for a version that was not frozen before. -/
inductive NotPrepared : ServiceError → Prop
  | calculationJobNotFound (jobId : Uuid) : NotPrepared (.calculationJobNotFound jobId)
  | dependencyDefinitionNotReady (codes : List String) :
      NotPrepared (.dependencyDefinitionNotReady codes)
  | dependencyNotReady (domains : List String) : NotPrepared (.dependencyNotReady domains)

def preparationKeys : List String :=
  ["execution_attempts_pkey", "dataset_build_snapshots_pkey",
    "dataset_build_snapshot_dependencies_pkey"]

/-- How a Run that dispatches nothing may end, when it has done what `log` says. -/
inductive RoutingEnds (log : List ServiceEvent) :
    Except ServiceError CalculationJobRunResult → Prop
  | accepted (r) : r.IsAccepted → RoutingEnds log (.ok r)
  | jobNotRunnable (id) : RoutingEnds log (.error (.jobNotRunnable id))
  | uuidTaken (constraint) : constraint ∈ preparationKeys →
      RoutingEnds log (.error (.uniqueViolation constraint))
  | notPrepared (e) : NotPrepared e →
      (∀ d, .ended (.beginDispatch d) (.error .attemptRoutingRace) ∉ log) →
      RoutingEnds log (.error e)
  | notBuilding (d status) :
      .ended (.beginDispatch d) (.error (.calculationStateInvariant (d.notBuilding status))) ∈ log →
      RoutingEnds log (.error (.calculationStateInvariant (d.notBuilding status)))

/-- What a Run makes of the recorded outcome. -/
def RecordOutcomeResult.response (jobId : Uuid) :
    RecordOutcomeResult → Except ServiceError CalculationJobRunResult
  | .rejected => .error (.executorDispatchFailed jobId)
  | .result r => .ok r

/-- How a Run that has done what `log` says may end. -/
inductive RunEnds (jobId : Uuid) (log : List ServiceEvent) :
    Except ServiceError CalculationJobRunResult → Prop
  | routed (r) : (∀ c, .sent c ∉ log) → RoutingEnds log r → RunEnds jobId log r
  | recorded (before c outcome recorded) : .sent c ∈ before →
      log = before ++ [.ended (.recordDispatchOutcome c outcome) (.ok recorded)] →
      RunEnds jobId log (recorded.response jobId)
  | raised (before c outcome message) : .sent c ∈ before →
      log = before ++ [.ended (.recordDispatchOutcome c outcome)
        (.error (.calculationStateInvariant message))] →
      RunEnds jobId log (.error (.calculationStateInvariant message))

/-! ### A reconciliation -/

/-- The final or running status in the executor's answer to a lookup. -/
def reconcilable? : Except (Option String) ExecutorExecutionStatus →
    Option ReconciliationExecutorStatus
  | .ok .running => some .running
  | .ok .succeeded => some .succeeded
  | .ok (.failed _) => some .failed
  | .ok .notFound | .ok (.unavailable _) | .error _ => none

/-- A reconciliation applies the status it looked up, if it found one, and nothing else. -/
structure ReconcileEnds (log : List ServiceEvent) (r : Except ServiceError α) : Prop where
  applied : ∀ t r', .ended t r' ∈ log → ∃ context x answer, t = .applyReconciliation context x
    ∧ .answered (.getExecutionStatus ⟨context.airflowDagId, context.airflowDagRunId⟩) answer ∈ log
    ∧ reconcilable? answer = some x
  unavailable : ∀ i answer, .answered (.getExecutionStatus i) answer ∈ log →
    reconcilable? answer = none →
    r = .error .executorStatusUnavailable ∧ ∀ t r', .ended t r' ∉ log
  observed : ∀ i answer x, .answered (.getExecutionStatus i) answer ∈ log →
    reconcilable? answer = some x → ∃ context r',
      i = ⟨context.airflowDagId, context.airflowDagRunId⟩
        ∧ .ended (.applyReconciliation context x) r' ∈ log

/-! ### The requests -/

/-- The `catch` of `createDatasetVersionService`. -/
def catchActiveVersion (r : Except ServiceError CreateDatasetVersionResult) :
    Except ServiceError CreateDatasetVersionResult :=
  match r with
  | .ok result => .ok result
  | .error e =>
      if e = .uniqueViolation "uq_dataset_versions_active_series" then
        .error .activeDatasetVersionExists
      else .error e

def Request.Post : Request → List ServiceEvent → Except ServiceError Response → Prop
  | .createDatasetVersion input, log, r => ∃ r',
      log = [.ended (.createDatasetVersion input) r'] ∧ r = (catchActiveVersion r').map .created
  | .prepareCalculationJobRun jobId, log, r => ∃ r',
      log = [.ended (.prepareCalculationJobRun jobId) r'] ∧ r = r'.map .prepared
  | .runCalculationJob jobId, log, r => ∃ r', RunEnds jobId log r' ∧ r = r'.map .ran
  | .reconcileCalculationJob _, log, r => ReconcileEnds log r
  | .reconcileExecutionAttempt _, log, r => ReconcileEnds log r
  | .reconcileExecutionByIdentity _, log, r => ReconcileEnds log r
  | .submitDatasetValidation id, log, r => ∃ r',
      log = [.ended (.submitDatasetValidation id) r'] ∧ r = r'.map .lifecycle
  | .decideValidatedDataset id decision, log, r =>
      log = [] ∧ r = .error (.datasetVersionNotFound id) ∨ ∃ seriesId r',
        log = [.ended (.decideValidatedDataset id seriesId decision) r']
          ∧ r = r'.map .lifecycle
  | .abandonDatasetVersion id, log, r =>
      log = [] ∧ r = .error (.datasetVersionNotFound id) ∨ ∃ seriesId r',
        log = [.ended (.abandonDatasetVersion id seriesId) r'] ∧ r = r'.map .lifecycle

/-! ## Steps of a handler -/

abbrev Good (honours : Prop) (Post : List ServiceEvent → Except ServiceError α → Moment → Prop)
    (log : List ServiceEvent) (c : Service α) (g : Moment) : Prop :=
  Call.Good (discipline honours) (Transaction.Spec honours) Sent Post log c g

section Steps

variable {Post : List ServiceEvent → Except ServiceError α → Moment → Prop}
variable {log : List ServiceEvent}

theorem later_nil {g g' : Moment} (hle : Moment.Grows g g') (hinv : Invariant honours g') :
    (discipline honours).Later [] g g' := ⟨hle, hinv, by simp⟩

theorem after_ok {t : Transaction} {o : Ended t.Result} {r : t.Result} (hr : o.result = .ok r)
    (g : Moment) : (machine honours).after o g = (machine honours).commit g o.writes := by
  unfold Concurrency.Machine.after
  rw [hr]

theorem after_error {t : Transaction} {o : Ended t.Result} {e : ServiceError}
    (he : o.result = .error e) (g : Moment) : (machine honours).after o g = g := by
  unfold Concurrency.Machine.after
  rw [he]

/-! ### A transaction, and a read -/

/-- A transaction whose arguments say what they should may be begun, and what comes after
it may rely on its specification. -/
theorem good_txn {t : Transaction} {k : Except ServiceError t.Result → Service α}
    (hpre : ∀ g₀, Moment.Grows g g₀ → Invariant honours g₀ → t.Pre honours g₀)
    (hok : ∀ env g₁ o r, Moment.Grows g g₁ → Invariant honours g₁ → t.Spec honours env o g₁ →
      o.result = .ok r → Moment.Grows g ((machine honours).commit g₁ o.writes) →
      Invariant honours ((machine honours).commit g₁ o.writes) →
      Good honours Post (log ++ [.ended t (.ok r)]) (k (.ok r))
        ((machine honours).commit g₁ o.writes))
    (herr : ∀ env g₀ g₁ o e, Moment.Grows g g₀ →
      (discipline honours).Exec g₁ g₀ [] [] (t.body env) o → Moment.Grows g g₁ →
      Invariant honours g₁ → t.Spec honours env o g₁ → o.result = .error e →
      Good honours Post (log ++ [.ended t (.error e)]) (k (.error e)) g₁) :
    Good honours Post log (.txn t k) g := by
  intro g₀ g₁ env o h₀ _ h₁ hx
  -- The specification is about the moment of the commit, which may be later than the begin.
  have hspec := Transaction.wp_body (hpre g₀ h₀.le h₀.inv) h₀.inv h₁ o hx
  have hle : Moment.Grows g g₁ := Moment.Grows.trans h₀.le h₁.le
  have hends := Commit.ends h₁.inv hspec
  refine ⟨hends, ?_⟩
  cases hr : o.result with
  | ok r =>
      rw [after_ok hr]
      exact hok env g₁ o r hle h₁.inv hspec hr (Moment.Grows.trans hle (hends.le r hr))
        (hends.inv r hr)
  | error e =>
      rw [after_error hr]
      exact herr env g₀ g₁ o e h₀.le hx hle h₁.inv hspec hr

/-- A plain read sees some later moment. -/
theorem good_select {β : Type} {f : Store → β} {k : β → Service α}
    (h : ∀ g', Moment.Grows g g' → Invariant honours g' →
      Good honours Post log (k (f g'.db)) g') :
    Good honours Post log (Call.select f >>= k) g := fun g' hg' => h g' hg'.le hg'.inv

end Steps

/-! ## The routing read -/

namespace Store

variable {s : Store} {jobId : Uuid} {state : CalculationJobRunRoutingState}

theorem of_runRoutingState? (h : s.runRoutingState? jobId = some state) :
    ∃ j v, s.calculationJobs.get? jobId = some j
      ∧ s.datasetVersions.get? j.outputDatasetVersionId = some v
      ∧ state = {
          jobId := j.id
          jobStatus := j.status
          datasetVersionId := j.outputDatasetVersionId
          datasetStatus := v.status
          resolvedDependencyDefinitionVersionId := j.resolvedDependencyDefinitionVersionId
          snapshotIds := s.snapshotIds v.id
          activeAttempt := s.activeAttempt? j.id } := by
  simp only [runRoutingState?, Option.bind_eq_bind, Option.bind_eq_some_iff, Option.pure_def,
    Option.some.injEq] at h
  obtain ⟨j, hj, v, hv, rfl⟩ := h
  exact ⟨j, v, hj, hv, rfl⟩

/-- An active attempt that the routing read finds is durable. -/
theorem Consistent.durable_of_routing (h : s.Consistent)
    (hs : s.runRoutingState? jobId = some state) {x : ActiveExecutionAttempt}
    (hx : state.activeAttempt = some x) :
    ∃ d, durableAttemptFromRoutingState state = .ok d ∧ s.Durable d ∧ d.jobId = jobId := by
  obtain ⟨j, v, hj, hv, rfl⟩ := of_runRoutingState? hs
  -- Its job is that of the row read, and its version is frozen.
  obtain rfl : j.id = jobId := Table.get?_key hj
  obtain ⟨a, ha, hactive, rfl⟩ := of_activeAttempt? hx
  obtain ⟨v', hv', -, hbuilding, b, hb, hres⟩ := h.building_of_active hj ha hactive
  obtain rfl := Option.some.inj (hv.symm.trans hv')
  have hvid : v.id = j.outputDatasetVersionId := Table.get?_key hv
  obtain ⟨d, hd, -⟩ := hres j (hvid ▸ mem_jobsOf_of_get? hj)
  obtain ⟨hget, hjob⟩ := mem_attemptsOf.mp ha
  -- So the check of the routing state passes.
  have hfrozen : requireFrozenRoutingState {
      jobId := j.id
      jobStatus := j.status
      datasetVersionId := j.outputDatasetVersionId
      datasetStatus := v.status
      resolvedDependencyDefinitionVersionId := j.resolvedDependencyDefinitionVersionId
      snapshotIds := s.snapshotIds v.id
      activeAttempt := s.activeAttempt? j.id } = .ok b.id := by
    unfold requireFrozenRoutingState
    dsimp only
    rw [snapshotIds_eq hb]
    dsimp only
    rw [if_neg (by simp [hbuilding, hd])]
  unfold durableAttemptFromRoutingState
  rw [hx, hfrozen]
  exact ⟨_, rfl, ⟨⟨j, hj, rfl⟩, ⟨b, hvid ▸ hb, rfl⟩, ⟨a, hget, hjob⟩⟩, rfl⟩

/-- What the read says of the job agrees with its active attempt. -/
theorem Consistent.routing_status (h : s.Consistent)
    (hs : s.runRoutingState? jobId = some state) :
    state.jobStatus = .running ↔ state.activeAttempt.map (·.status) = some .accepted := by
  obtain ⟨j, v, hj, -, rfl⟩ := of_runRoutingState? hs
  have hid : j.id = jobId := Table.get?_key hj
  have hh := h.history _ j hj
  show j.status = .running ↔ (s.activeAttempt? j.id).map (·.status) = some .accepted
  rw [hid, hh.running_iff]
  constructor
  · rintro ⟨a, ha, hs⟩
    rw [h.activeAttempt?_eq hj ha (by rw [hs]; rfl)]
    exact congrArg some hs
  · intro hx
    obtain ⟨x, hx, hs⟩ := Option.map_eq_some_iff.mp hx
    -- An active attempt is the only one that the read can have found.
    obtain ⟨a, ha, -, rfl⟩ := of_activeAttempt? hx
    exact ⟨a, ha, hs⟩

theorem OutOfDraft.grows {s' : Store} (h : s.OutOfDraft jobId) (hg : s.Grows s') :
    s'.OutOfDraft jobId := by
  obtain ⟨j, v, hj, hv, hd⟩ := h
  obtain ⟨j', hj', hs⟩ := hg.job hj
  obtain ⟨v', hv', hvs⟩ := hg.version hv
  exact ⟨j', v', hj', (job_columns hs).2.1 ▸ hv', version_not_draft hvs hd⟩

theorem Consistent.outOfDraft (h : s.Consistent) {d : DurableRunAttempt} (hd : s.Durable d) :
    s.OutOfDraft d.jobId := by
  obtain ⟨j, hj, -⟩ := hd.job
  obtain ⟨a, ha, haj⟩ := hd.attempt
  obtain ⟨v, hv, -, hdraft, -⟩ := h.frozen_of_attempt hj (haj ▸ mem_attemptsOf_of_get? ha)
  exact ⟨j, v, hj, hv, hdraft⟩

end Store

/-! ## A Run -/

/-! ### The errors of the routing -/

/-- The errors of a Run before it has something to dispatch. If the version was frozen
before, there are fewer. -/
inductive RoutingError (frozen : Prop) : ServiceError → Prop
  | jobNotRunnable (id) : RoutingError frozen (.jobNotRunnable id)
  | attemptRoutingRace : RoutingError frozen .attemptRoutingRace
  | uuidTaken (constraint) : constraint ∈ preparationKeys →
      RoutingError frozen (.uniqueViolation constraint)
  | notPrepared (e) : NotPrepared e → ¬ frozen → RoutingError frozen e

theorem RoutingError.of_conflict {frozen : Prop} {e : ServiceError}
    (h : PrepareConflict e) : RoutingError frozen e := by
  cases h with
  | jobNotRunnable id => exact .jobNotRunnable id
  | attemptRoutingRace => exact .attemptRoutingRace
  | uuidTaken => exact .uuidTaken _ (by simp [preparationKeys])

theorem RoutingError.of_failure {frozen : Prop} {e : ServiceError}
    (h : PrepareFailure e) (hfrozen : frozen → PrepareConflict e) : RoutingError frozen e := by
  by_cases hf : frozen
  · exact .of_conflict (hfrozen hf)
  cases h with
  | calculationJobNotFound id => exact .notPrepared _ (.calculationJobNotFound id) hf
  | jobNotRunnable id => exact .jobNotRunnable id
  | definitionNotReady codes => exact .notPrepared _ (.dependencyDefinitionNotReady codes) hf
  | dependencyNotReady domains => exact .notPrepared _ (.dependencyNotReady domains) hf
  | uuidTaken constraint hc => exact .uuidTaken constraint hc

/-- What the routing phase adds to the log: at most a transaction that prepares an attempt. -/
def RoutingLog (extra : List ServiceEvent) : Prop :=
  ∀ event ∈ extra, ∃ t r, event = .ended t r ∧ ∀ d, t ≠ .beginDispatch d

theorem RoutingLog.nil : RoutingLog [] := by simp [RoutingLog]

theorem RoutingLog.singleton {t : Transaction} {r : Except ServiceError t.Result}
    (h : ∀ d, t ≠ .beginDispatch d) : RoutingLog [.ended t r] := by
  intro event hevent
  exact ⟨t, r, List.mem_singleton.mp hevent, h⟩

/-! ### `obtainDurableRunAttempt` -/

theorem good_obtainDurableRunAttempt {jobId : Uuid} {log : List ServiceEvent}
    {Post : List ServiceEvent → Except ServiceError DurableRunAttempt → Moment → Prop}
    (hok : ∀ g' extra d, Moment.Grows g g' → Invariant honours g' → RoutingLog extra →
      g'.db.Durable d → d.jobId = jobId → Post (log ++ extra) (.ok d) g')
    (herr : ∀ g' extra e, Moment.Grows g g' → Invariant honours g' → RoutingLog extra →
      RoutingError (g.db.OutOfDraft jobId) e → Post (log ++ extra) (.error e) g') :
    Good honours Post log (obtainDurableRunAttempt jobId) g := by
  refine good_select fun g₁ hle₁ hinv₁ => ?_
  -- The branches that raise without a transaction.
  have hstop : ∀ e, RoutingError (g.db.OutOfDraft jobId) e →
      Good honours Post log (.ret (.error e)) g₁ := by
    intro e he
    have := herr g₁ [] e hle₁ hinv₁ .nil he
    rwa [List.append_nil] at this
  cases hs : g₁.db.runRoutingState? jobId with
  | none =>
      -- A job that is not there now was not there before, since rows are not deleted.
      refine hstop _ (.notPrepared _ (.calculationJobNotFound jobId) ?_)
      rintro ⟨j, v, hj, hv, -⟩
      obtain ⟨j', hj', hjs⟩ := hle₁.db.job hj
      obtain ⟨v', hv', -⟩ := hle₁.db.version hv
      rw [← (job_columns hjs).2.1] at hv'
      simp [Store.runRoutingState?, hj', hv'] at hs
  | some state =>
  have hstatus := hinv₁.consistent.routing_status hs
  -- An attempt that the read found.
  have hfound : state.activeAttempt.isSome →
      Good honours Post log (Service.ofExcept (durableAttemptFromRoutingState state)) g₁ := by
    intro hx
    obtain ⟨x, hx⟩ := Option.isSome_iff_exists.mp hx
    obtain ⟨d, hd, hdurable, hid⟩ := hinv₁.consistent.durable_of_routing hs hx
    rw [hd]
    have := hok g₁ [] d hle₁ hinv₁ .nil hdurable hid
    rwa [List.append_nil] at this
  dsimp only
  cases hj : state.jobStatus with
  | succeeded => exact hstop _ (.jobNotRunnable jobId)
  | running =>
      -- A `RUNNING` job has an `ACCEPTED` attempt, so this invariant check never fires.
      have hx := hstatus.mp hj
      dsimp only
      rw [if_neg (not_not.mpr hx)]
      refine hfound ?_
      cases hsome : state.activeAttempt with
      | none => rw [hsome] at hx; cases hx
      | some x => rfl
  | pending =>
      -- The same of a `PENDING` job, whose active attempt is not `ACCEPTED`.
      have hx : ¬ state.activeAttempt.map (·.status) = some .accepted := by
        rw [← hstatus, hj]; decide
      dsimp only
      by_cases hsome : state.activeAttempt.isSome
      · rw [if_pos hsome, if_neg hx]
        exact hfound hsome
      rw [if_neg hsome]
      -- No attempt yet: the transaction of a first Run.
      refine good_txn (fun _ _ _ => trivial) ?_ ?_
      · intro env g₂ o p hle₂ hinv₂ hspec hr hle₃ hinv₃
        obtain ⟨fl, hprepare⟩ := hspec.ensures
        obtain ⟨hdurable, hid⟩ := hprepare.durable p hr
        exact hok _ [_] _ (hle₁.trans hle₃) hinv₃ (.singleton (by simp)) hdurable hid
      · intro env g₀ g₂ o e hle₀ hx hle₂ hinv₂ hspec he
        have hprepare : PrepareSpec honours jobId env g₀ g₂ o := wp_prepareCalculationJobRun o hx
        refine herr _ [_] _ (hle₁.trans hle₂) hinv₂ (.singleton (by simp))
          (.of_failure (hprepare.error e he) fun hfrozen => hprepare.conflict e he ?_)
        -- A version that left `DRAFT` before the call is still out of it at the begin.
        exact hfrozen.grows (hle₁.trans hle₀).db
  | failed =>
      -- A `FAILED` job may have the attempt of its retry already.
      have hx : ¬ state.activeAttempt.map (·.status) = some .accepted := by
        rw [← hstatus, hj]; decide
      dsimp only
      by_cases hbuilding : state.datasetStatus = .building
      swap
      · rw [if_pos hbuilding]
        exact hstop _ (.jobNotRunnable jobId)
      rw [if_neg (not_not.mpr hbuilding)]
      by_cases hsome : state.activeAttempt.isSome
      · rw [if_pos hsome, if_neg hx]
        exact hfound hsome
      rw [if_neg hsome]
      -- No attempt: the retry is prepared for the job that the read found.
      obtain ⟨j, v, hjrow, -, hstate⟩ := Store.of_runRoutingState? hs
      obtain rfl : j.id = jobId := Table.get?_key hjrow
      have hid : state.jobId = j.id := by rw [hstate]
      have hrouted : g₁.db.Routed state := ⟨j, hid ▸ hjrow, by rw [hstate]⟩
      refine good_txn (fun g₂ hle₂ _ => hrouted.grows hle₂.db) ?_ ?_
      · intro env g₂ o d hle₂ hinv₂ hspec hr hle₃ hinv₃
        obtain ⟨hdurable, hdid⟩ := RetrySpec.durable hspec.ensures d hr
        exact hok _ [_] _ (hle₁.trans hle₃) hinv₃ (.singleton (by simp)) hdurable
          (hdid.trans hid)
      · intro env g₀ g₂ o e _ _ hle₂ hinv₂ hspec he
        exact herr _ [_] _ (hle₁.trans hle₂) hinv₂ (.singleton (by simp))
          (.of_conflict (RetrySpec.error hspec.ensures e he))

/-! ### The dispatch -/

/-- Sending a command that the invariant allows keeps the invariant. -/
theorem Invariant.send {c : DispatchCalculationCommand} (h : Invariant honours g)
    (hc : g.db.Dispatched c) :
    Invariant honours { g with world := { g.world with sent := g.world.sent ++ [c] } } where
  consistent := h.consistent
  sent c' hc' := by
    rcases List.mem_append.mp hc' with hc' | hc'
    · exact h.sent c' hc'
    · rwa [List.mem_singleton.mp hc']
  seen i hi := by
    obtain ⟨c', hc', he⟩ := h.seen i hi
    exact ⟨c', List.mem_append_left _ hc', he⟩
  agrees := h.agrees

theorem Moment.Grows.send (g : Moment) (c : DispatchCalculationCommand) :
    Moment.Grows g { g with world := { g.world with sent := g.world.sent ++ [c] } } :=
  ⟨.refl, ⟨Nat.le_refl _, fun _ => .refl, fun _ h => List.mem_append_left _ h⟩⟩

/-- The outcome that a Run makes of an answer. -/
def dispatchOutcomeOf : Except (Option String) DispatchResult → DispatchResult
  | .ok result => result
  | .error message => unknownDispatchResult message

theorem World.tells_of_allows {w : World} {c : DispatchCalculationCommand}
    {answer : Except (Option String) DispatchResult} (h : w.Allows (.dispatch c) answer) :
    w.Tells c.identity (dispatchOutcomeOf answer) := by
  cases answer with
  | ok result => cases result <;> exact h
  | error message => cases message <;> trivial

theorem good_executorDispatch {c : DispatchCalculationCommand} {log : List ServiceEvent}
    {Post : List ServiceEvent → Except ServiceError α → Moment → Prop}
    {f : Except (Option String) DispatchResult → Service α} (hc : g.db.Dispatched c)
    (hinv : Invariant honours g)
    (h : ∀ g' answer, Moment.Grows g g' → Invariant honours g' → g'.db.Dispatched c →
      (honours → g'.world.Tells c.identity (dispatchOutcomeOf answer)) →
      Good honours Post (log ++ [.sent c, .answered (.dispatch c) answer]) (f answer) g') :
    Good honours Post log (executorDispatch c >>= f) g := by
  intro g₁ h₁
  have hc₁ : g₁.db.Dispatched c := hc.grows hinv.consistent.references h₁.le.db
  have hsend := Moment.Grows.send g₁ c
  refine ⟨hc₁, later_nil hsend (h₁.inv.send hc₁), ?_⟩
  intro g₂ answer h₂ hanswer
  have hc₂ : g₂.db.Dispatched c := hc₁.grows h₁.inv.consistent.references h₂.le.db
  have := h g₂ answer (Moment.Grows.trans h₁.le (Moment.Grows.trans hsend h₂.le)) h₂.inv hc₂
    fun hh => World.tells_of_allows (hanswer hh)
  rwa [List.append_cons] at this

/-! ### The rounds of a Run -/

/-- A Run that has dispatched nothing yet. After a race the version is out of draft. -/
structure Undispatched (jobId : Uuid) (log : List ServiceEvent) (g : Moment) : Prop where
  unsent : ∀ c, .sent c ∉ log
  raced : ∀ d, .ended (.beginDispatch d) (.error .attemptRoutingRace) ∈ log →
    g.db.OutOfDraft jobId

namespace Undispatched

variable {jobId : Uuid} {log : List ServiceEvent} (h : Undispatched jobId log g)
include h

theorem grows {g' : Moment} (hle : Moment.Grows g g') : Undispatched jobId log g' :=
  ⟨h.unsent, fun d hd => (h.raced d hd).grows hle.db⟩

/-- The routing phase itself begins no dispatch. -/
theorem routed {extra : List ServiceEvent} (hextra : RoutingLog extra) :
    Undispatched jobId (log ++ extra) g where
  unsent c hc := by
    rcases List.mem_append.mp hc with hc | hc
    · exact h.unsent c hc
    · obtain ⟨t, r, ht, -⟩ := hextra _ hc
      cases ht
  raced d hd := by
    rcases List.mem_append.mp hd with hd | hd
    · exact h.raced d hd
    · obtain ⟨t, r, ht, hne⟩ := hextra _ hd
      cases ht
      exact absurd rfl (hne d)

/-- A transaction ends in a version out of draft. -/
theorem ended (t : Transaction) (r : Except ServiceError t.Result)
    (hout : g.db.OutOfDraft jobId) : Undispatched jobId (log ++ [.ended t r]) g where
  unsent c hc := by
    rcases List.mem_append.mp hc with hc | hc
    · exact h.unsent c hc
    · cases List.mem_singleton.mp hc
  raced _ _ := hout

end Undispatched

/-- The end of one round of the loop. -/
inductive AttemptEnds (jobId : Uuid) (log : List ServiceEvent) (g : Moment) :
    Except ServiceError CalculationJobRunResult → Prop
  | ends (r) : RunEnds jobId log r →
      (∀ e, r = .error e → e ≠ .attemptRoutingRace ∧ ∀ id, e ≠ .jobNotRunnable id) →
      AttemptEnds jobId log g r
  | retried (e) : e = .attemptRoutingRace ∨ (∃ id, e = .jobNotRunnable id) →
      Undispatched jobId log g → AttemptEnds jobId log g (.error e)

theorem good_runRoutingAttempt {jobId : Uuid} {log : List ServiceEvent}
    (hlog : Undispatched jobId log g) :
    Good honours (fun log r g => AttemptEnds jobId log g r) log (runRoutingAttempt jobId) g := by
  refine Call.Good.bind (good_obtainDurableRunAttempt ?_ ?_)
  · -- The routing gave an attempt. Its dispatch begins at a later moment.
    intro g₁ extra d hle₁ hinv₁ hextra hdurable hid
    dsimp only
    have hlog₁ : Undispatched jobId (log ++ extra) g₁ := (hlog.grows hle₁).routed hextra
    refine good_txn (fun g₂ hle₂ _ => hdurable.grows hle₂.db) ?_ ?_
    · intro env g₂ o r hle₂ hinv₂ hspec hr hle₃ hinv₃
      obtain ⟨g₀, rest, -, hends⟩ := BeginDispatchSpec.ends hspec.ensures
      rw [hr] at hends
      cases hends with
      | alreadyAccepted r hbuilding hactive hsame haccepted =>
          -- Another Run has had it accepted.
          refine .ends _ (.routed _ ?_ (.accepted r haccepted)) (by simp)
          intro c hc
          rcases List.mem_append.mp hc with hc | hc
          · exact hlog₁.unsent c hc
          · cases List.mem_singleton.mp hc
      | dispatch c hbuilding hactive hc hattempt hjob =>
          -- The command is sent, and the answer arrives at a later moment still.
          refine good_executorDispatch hc hinv₃ fun g₄ answer hle₄ hinv₄ hc₄ htells => ?_
          refine good_txn (fun g₅ hle₅ _ => ⟨hc₄.grows hinv₄.consistent.references hle₅.db,
            fun hh => (htells hh).grows hle₅.world⟩) ?_ ?_
          · intro env₅ g₅ o₅ recorded _ _ _ hrecorded _ _
            cases recorded with
            | rejected =>
                -- The rejection is recorded, and the Run raises it.
                exact .ends _ (.recorded _ c _ .rejected (by simp) rfl) (by rintro e ⟨⟩; simp)
            | result r =>
                exact .ends _ (.recorded _ c _ (.result r) (by simp) rfl) (by rintro e ⟨⟩)
          · intro env₅ g₀ g₅ o₅ e _ _ _ _ hspec₅ he
            -- The outcome could not be recorded.
            obtain ⟨message, rfl⟩ := RecordOutcomeSpec.error hspec₅.ensures e he
            exact .ends _ (.raised _ c _ message (by simp) rfl) (by rintro e ⟨⟩; simp)
    · intro env g₀ g₂ o e _ _ hle₂ hinv₂ hspec he
      -- The dispatch did not begin. The version has left `DRAFT`, as it has an attempt.
      have hout : g₂.db.OutOfDraft jobId := hid ▸ hinv₂.consistent.outOfDraft hspec.pre
      have hlog₂ : Undispatched jobId _ g₂ := (hlog₁.grows hle₂).ended (.beginDispatch d) (.error e) hout
      obtain ⟨g₀, rest, -, hends⟩ := BeginDispatchSpec.ends hspec.ensures
      rw [he] at hends
      cases hends with
      | race hbuilding hactive => exact .retried _ (.inl rfl) hlog₂
      | notBuilding status hbuilding =>
          exact .ends _ (.routed _ hlog₂.unsent (.notBuilding d status (by simp)))
            (by rintro e ⟨⟩; simp)
  · intro g₁ extra e hle₁ hinv₁ hextra he
    -- The routing raised, and nothing was dispatched.
    have hlog₁ : Undispatched jobId (log ++ extra) g₁ := (hlog.grows hle₁).routed hextra
    cases he with
    | jobNotRunnable id => exact .retried _ (.inr ⟨id, rfl⟩) hlog₁
    | attemptRoutingRace => exact .retried _ (.inl rfl) hlog₁
    | uuidTaken constraint hc =>
        exact .ends _ (.routed _ hlog₁.unsent (.uuidTaken _ hc)) (by rintro e ⟨⟩; simp)
    | notPrepared e he hnot =>
        -- A first Run that is refused is not the round after a race, since a raced version is
        -- frozen.
        have hraced := (hlog.routed hextra).raced
        refine .ends _ (.routed _ hlog₁.unsent (.notPrepared _ he fun d hd =>
          hnot (hraced d hd))) ?_
        rintro e' ⟨⟩
        cases he <;> simp

theorem good_runRouting {jobId : Uuid} (remaining : Nat) {log : List ServiceEvent}
    (hlog : Undispatched jobId log g) :
    Good honours (fun log r _ => RunEnds jobId log r) log (runRouting jobId remaining) g := by
  induction remaining generalizing g log with
  | zero => exact .routed _ hlog.unsent (.jobNotRunnable jobId)
  | succ remaining ih =>
      refine Call.Good.tryCatch (Call.Good.weaken (good_runRoutingAttempt hlog) ?_)
      intro log₁ r g₁ hends
      cases hends with
      | ends r hr hne =>
          -- What ends a Run is none of the two errors that the loop catches.
          cases r with
          | ok r => exact hr
          | error e =>
              obtain ⟨hrace, hrunnable⟩ := hne e rfl
              dsimp only
              split
              · exact absurd rfl hrace
              · rename_i id
                exact absurd rfl (hrunnable id)
              · exact hr
      | retried e he hlog₁ =>
          -- After a race the loop goes on; after `JOB_NOT_RUNNABLE` only if a round is left.
          rcases he with rfl | ⟨id, rfl⟩
          · exact ih hlog₁
          · dsimp only
            split
            · exact ih hlog₁
            · exact .routed _ hlog₁.unsent (.jobNotRunnable id)

/-! ## A reconciliation -/

/-! ### The context -/

theorem Store.of_reconciliationAttemptContext? {s : Store} {id : Uuid}
    {context : ReconciliationAttemptContext}
    (h : s.reconciliationAttemptContext? id = some context) :
    ∃ a, s.executionAttempts.get? id = some a ∧ context.attemptStatus = a.status
      ∧ a.identity = ⟨context.airflowDagId, context.airflowDagRunId⟩
      ∧ (isExecutorBackedAttemptStatus context.attemptStatus = true → s.Describes context) := by
  simp only [reconciliationAttemptContext?, Option.bind_eq_bind, Option.bind_eq_some_iff,
    Option.pure_def, Option.some.injEq] at h
  obtain ⟨a, ha, j, hj, v, hv, rfl⟩ := h
  have haid : a.id = id := Table.get?_key ha
  have hjid : j.id = a.calculationJobId := Table.get?_key hj
  have hvid : v.id = j.outputDatasetVersionId := Table.get?_key hv
  refine ⟨a, ha, rfl, rfl, fun hbacked => ⟨⟨a, haid ▸ ha, hjid.symm, rfl, rfl, rfl, ?_⟩,
    ⟨j, hjid ▸ hj, hvid.symm⟩, hbacked⟩⟩
  intro hs
  rw [show a.status = _ from hs] at hbacked
  cases hbacked

/-- An executor that honours its contract cannot report a status that the context, read
earlier, contradicts. -/
theorem World.observed_of_allows {g' : Moment} {a : ExecutionAttempt}
    {answer : Except (Option String) ExecutorExecutionStatus} {x : ReconciliationExecutorStatus}
    (hagrees : a.status.Agrees (g.world.executor a.identity))
    (hle : Moment.Grows g g') (hallows : g'.world.Allows (.getExecutionStatus a.identity) answer)
    (hx : reconcilable? answer = some x) : g'.world.Observed a.identity a.status x := by
  have hrunning : g'.world.executor a.identity = .running →
      isTerminalAttemptStatus a.status = false := by
    intro hr
    have hsteps := hle.world.executor a.identity
    -- A settled executor never runs again.
    cases hs : a.status with
    | succeeded =>
        rw [hs] at hagrees
        have := ExternalExecution.settled_stays hsteps (hagrees ▸ .succeeded)
        rw [hr, show g.world.executor a.identity = _ from hagrees] at this
        cases this
    | failed =>
        rw [hs] at hagrees
        have := ExternalExecution.settled_stays hsteps (hagrees ▸ .failed)
        rw [hr, show g.world.executor a.identity = _ from hagrees] at this
        cases this
    | _ => rfl
  cases answer with
  | error message => cases hx
  | ok status =>
      cases status <;> cases hx
      · have hr : g'.world.executor a.identity = .running := hallows
        exact ⟨by rw [hr]; rfl, hrunning hr⟩
      · exact hallows
      · exact hallows

/-! ### `applyReconciliation` -/

theorem ReconcileEnds.nil {r : Except ServiceError α} : ReconcileEnds [] r :=
  ⟨by simp, by simp, by simp⟩

theorem good_applyReconciliation {context : ReconciliationAttemptContext}
    {x : ReconciliationExecutorStatus} {i : ExecutionIdentity}
    {answer : Except (Option String) ExecutorExecutionStatus}
    (hi : i = ⟨context.airflowDagId, context.airflowDagRunId⟩)
    (hpre : (Transaction.applyReconciliation context x).Pre honours g) (hinv : Invariant honours g)
    (hx : reconcilable? answer = some x) :
    Good honours (fun log r _ => ReconcileEnds log r)
      [.answered (.getExecutionStatus i) answer]
      (withTransaction (.applyReconciliation context x)) g := by
  subst hi
  have hends : ∀ r, ReconcileEnds [.answered (.getExecutionStatus
        ⟨context.airflowDagId, context.airflowDagRunId⟩) answer,
      .ended (.applyReconciliation context x) r] r := by
    intro r
    -- The only transaction of the log.
    refine ⟨?_, ?_, ?_⟩
    · intro t r' ht
      simp only [List.mem_cons, List.not_mem_nil, or_false, reduceCtorEq, false_or] at ht
      cases ht
      exact ⟨context, x, answer, rfl, by simp, hx⟩
    · intro i' answer' ha hnone
      simp only [List.mem_cons, List.not_mem_nil, or_false, reduceCtorEq] at ha
      cases ha
      rw [hx] at hnone
      cases hnone
    · -- The only answer of the log, which is the one that was applied.
      intro i' answer' x' ha hx'
      simp only [List.mem_cons, List.not_mem_nil, or_false, reduceCtorEq] at ha
      cases ha
      obtain rfl := Option.some.inj (hx.symm.trans hx')
      exact ⟨context, r, rfl, by simp⟩
  exact good_txn (fun g₀ hle _ => hpre.later hinv hle) (fun _ _ _ r _ _ _ _ _ _ => hends (.ok r))
    fun _ _ _ _ e _ _ _ _ _ _ => hends (.error e)

/-! ### The services -/

theorem good_reconcileExecutionAttemptService {id : Uuid} :
    Good honours (fun log r _ => ReconcileEnds log r) []
      (reconcileExecutionAttemptService id) g := by
  refine good_select fun g₁ _ hinv₁ => ?_
  cases hc : g₁.db.reconciliationAttemptContext? id with
  | none => exact ReconcileEnds.nil
  | some context =>
  obtain ⟨a, ha, hstatus, hid, hdescribes⟩ := Store.of_reconciliationAttemptContext? hc
  dsimp only
  by_cases hbacked : isExecutorBackedAttemptStatus context.attemptStatus = false
  · rw [if_pos hbacked]
    exact ReconcileEnds.nil
  rw [if_neg hbacked]
  split
  · exact ReconcileEnds.nil
  have hdescribes := hdescribes (by simpa using hbacked)
  intro g₂ answer h₂ hallows
  -- The context was read before the answer, but an attempt never goes back.
  have hpre : ∀ x, reconcilable? answer = some x →
      (Transaction.applyReconciliation context x).Pre honours g₂ := by
    intro x hx
    refine ⟨hdescribes.grows h₂.le.db, fun hh => ?_⟩
    rw [← hid, hstatus]
    exact World.observed_of_allows (hinv₁.agrees hh id a ha) h₂.le
      (hid ▸ hallows hh) hx
  have hunavailable : ∀ answer, reconcilable? answer = none → ReconcileEnds
      [.answered (.getExecutionStatus ⟨context.airflowDagId, context.airflowDagRunId⟩) answer]
      (.error .executorStatusUnavailable : Except ServiceError
        CalculationJobReconciliationResult) := by
    -- Without a status there is no transaction.
    intro answer hnone
    refine ⟨by simp, fun _ _ _ _ => ⟨rfl, by simp⟩, fun i answer' x ha hx => ?_⟩
    cases List.mem_singleton.mp ha
    rw [hnone] at hx
    cases hx
  cases answer with
  | error message => exact hunavailable _ rfl
  | ok status =>
      cases status with
      | running => exact good_applyReconciliation rfl (hpre _ rfl) h₂.inv rfl
      | succeeded => exact good_applyReconciliation rfl (hpre _ rfl) h₂.inv rfl
      | failed message => exact good_applyReconciliation rfl (hpre _ rfl) h₂.inv rfl
      | notFound => exact hunavailable _ rfl
      | unavailable message => exact hunavailable _ rfl

theorem good_selectCalculationJobAttemptForReconciliation {jobId : Uuid}
    {Post : List ServiceEvent → Except ServiceError Uuid → Moment → Prop}
    (hpost : ∀ g' r, Post [] r g') :
    Good honours Post [] (selectCalculationJobAttemptForReconciliation jobId) g := by
  refine good_select fun g₁ _ _ => ?_
  repeat' first
    | exact hpost _ _
    | split

theorem ReconcileEnds.map {β : Type} {log : List ServiceEvent} {r : Except ServiceError α}
    (h : ReconcileEnds log r) (f : α → β) : ReconcileEnds log (r.map f) :=
  ⟨h.applied, fun i answer ha hn => ⟨by rw [(h.unavailable i answer ha hn).1]; rfl,
    (h.unavailable i answer ha hn).2⟩, h.observed⟩

/-! ## The requests -/

/-- A call whose result is wrapped into a response. -/
theorem good_respond {β : Type} {c : Service α} {f : α → β} {log : List ServiceEvent}
    {Post : List ServiceEvent → Except ServiceError β → Moment → Prop}
    (h : Good honours (fun log r g => Post log (r.map f) g) log c g) :
    Good honours Post log (c >>= fun a => pure (f a)) g :=
  Call.Good.bind (Call.Good.weaken h fun log r g hr => by
    cases r with
    | ok a => exact hr
    | error e => exact hr)

/-- A request that is one transaction. -/
theorem good_withTransaction {t : Transaction}
    {Post : List ServiceEvent → Except ServiceError t.Result → Moment → Prop}
    {log : List ServiceEvent}
    (hpre : ∀ g', Moment.Grows g g' → Invariant honours g' → t.Pre honours g')
    (h : ∀ r g', Post (log ++ [.ended t r]) r g') :
    Good honours Post log (withTransaction t) g :=
  good_txn hpre (fun _ _ _ r _ _ _ _ _ _ => h (.ok r) _)
    fun _ _ _ _ e _ _ _ _ _ _ => h (.error e) _

theorem good_readDatasetSeriesId {id : Uuid} {f : Uuid → Service α}
    {Post : List ServiceEvent → Except ServiceError α → Moment → Prop}
    (hnone : ∀ g', Post [] (.error (.datasetVersionNotFound id)) g')
    (h : ∀ g' seriesId, Invariant honours g' → g'.db.InSeries id seriesId →
      Good honours Post [] (f seriesId) g') :
    Good honours Post [] (readDatasetSeriesId id >>= f) g := by
  refine Call.Good.bind (good_select fun g₁ _ hinv₁ => ?_)
  cases hv : g₁.db.datasetVersions.get? id with
  | none => exact hnone g₁
  | some v => exact h g₁ v.datasetSeriesId hinv₁ ⟨v, hv, rfl⟩

/-- **Every request is served well.** -/
theorem good_serve (req : Request) :
    Good honours (fun log r _ => req.Post log r) [] req.serve g := by
  cases req with
  -- The `catch` looks at the name of the violated index.
  | createDatasetVersion input =>
      refine good_respond (Call.Good.tryCatch (good_withTransaction (fun _ _ _ => trivial) ?_))
      intro r g'
      cases r with
      | ok result => exact ⟨.ok result, rfl, rfl⟩
      | error e =>
          dsimp only
          split
          · rename_i he
            refine ⟨.error e, rfl, ?_⟩
            simp [catchActiveVersion, he]
          · rename_i he
            refine ⟨.error e, rfl, ?_⟩
            simp [catchActiveVersion, he]
  | prepareCalculationJobRun jobId =>
      exact good_respond (good_withTransaction (fun _ _ _ => trivial) fun r _ => ⟨r, rfl, rfl⟩)
  | runCalculationJob jobId =>
      -- A fresh log is undispatched.
      exact good_respond (Call.Good.weaken (good_runRouting 3 ⟨by simp, by simp⟩)
        fun log r g hr => ⟨r, hr, rfl⟩)
  | reconcileCalculationJob jobId =>
      refine good_respond (Call.Good.bind (good_selectCalculationJobAttemptForReconciliation ?_))
      intro g' r
      cases r with
      | error e => exact ReconcileEnds.nil
      | ok id =>
          exact Call.Good.weaken good_reconcileExecutionAttemptService fun _ _ _ h => h.map _
  | reconcileExecutionAttempt id =>
      exact good_respond (Call.Good.weaken good_reconcileExecutionAttemptService
        fun _ _ _ h => h.map _)
  | reconcileExecutionByIdentity identity =>
      refine good_respond (good_select fun g₁ _ _ => ?_)
      cases g₁.db.findExecutionAttemptIdByIdentity identity with
      | none => exact ReconcileEnds.nil
      | some id =>
          exact Call.Good.weaken good_reconcileExecutionAttemptService fun _ _ _ h => h.map _
  | submitDatasetValidation id =>
      exact good_respond (good_withTransaction (fun _ _ _ => trivial) fun r _ => ⟨r, rfl, rfl⟩)
  | decideValidatedDataset id decision =>
      -- The series is read first; a version keeps its series.
      refine good_respond (good_readDatasetSeriesId (fun _ => .inl ⟨rfl, rfl⟩) ?_)
      intro g₁ seriesId hinv₁ hseries
      exact good_withTransaction (fun g₂ hle₂ _ => hseries.grows hle₂.db)
        fun r _ => .inr ⟨seriesId, r, rfl, rfl⟩
  | abandonDatasetVersion id =>
      refine good_respond (good_readDatasetSeriesId (fun _ => .inl ⟨rfl, rfl⟩) ?_)
      intro g₁ seriesId hinv₁ hseries
      exact good_withTransaction (fun g₂ hle₂ _ => hseries.grows hle₂.db)
        fun r _ => .inr ⟨seriesId, r, rfl, rfl⟩

end CostEngine
