import CostEngine.Service.Transactions

/-! # The service functions

What a route calls: plain reads, transactions, and calls of the executor outside any
transaction. -/

namespace CostEngine

open Concurrency (Call)

/-- A call of a service, from its first read to its result. -/
abbrev Service := Call Store ServiceError Transaction Transaction.Result
  DispatchCalculationCommand ExecutorQuestion ExecutorQuestion.Answer

/-- `invariant(message)`, outside a transaction. -/
def Service.invariant {α : Type} (message : String) : Service α :=
  throw (.calculationStateInvariant message)

/-- A plain check raises what it finds. -/
def Service.ofExcept {α : Type} : Except ServiceError α → Service α := .ret

/-- `withTransaction` around the body of `t`. -/
def withTransaction (t : Transaction) : Service t.Result := Call.transaction t

/-- `executor.dispatch(command)`. -/
def executorDispatch (command : DispatchCalculationCommand) :
    Service (Except (Option String) DispatchResult) :=
  .send command (.await (.dispatch command) fun answer => pure answer)

/-- `executor.getExecutionStatus(identity)`. -/
def executorGetExecutionStatus (identity : ExecutionIdentity) :
    Service (Except (Option String) ExecutorExecutionStatus) :=
  .await (.getExecutionStatus identity) fun answer => pure answer

/-! ## `calculation-job-run.service.ts` -/

/-- The part of a preparation that the dispatch needs. -/
def PreparedCalculationRun.durable (prepared : PreparedCalculationRun) :
    DurableRunAttempt where
  datasetVersionId := prepared.datasetVersionId
  datasetBuildSnapshotId := prepared.datasetBuildSnapshotId
  jobId := prepared.jobId
  jobStatus := prepared.jobStatus
  executionAttemptId := prepared.executionAttemptId
  attemptNumber := prepared.attemptNumber
  attemptStatus := prepared.attemptStatus
  airflowDagId := prepared.airflowDagId
  airflowDagRunId := prepared.airflowDagRunId

/-- The route of a Run: an active attempt is taken up, a first Run or a retry is prepared. The
routing read holds no lock, so each transaction checks again what it relies on. -/
def obtainDurableRunAttempt (jobId : Uuid) : Service DurableRunAttempt := do
  match ← Call.select (·.runRoutingState? jobId) with
  | none => throw (.calculationJobNotFound jobId)
  | some state =>
  match state.jobStatus with
  | .succeeded => throw (.jobNotRunnable jobId)
  | .running =>
      if state.activeAttempt.map (·.status) ≠ some .accepted then
        Service.invariant s!"RUNNING calculation job {jobId} has no ACCEPTED active attempt"
      else Service.ofExcept (durableAttemptFromRoutingState state)
  | .pending =>
      if state.activeAttempt.isSome then
        if state.activeAttempt.map (·.status) = some .accepted then
          Service.invariant s!"PENDING calculation job {jobId} has an ACCEPTED active attempt"
        else Service.ofExcept (durableAttemptFromRoutingState state)
      else do
        let prepared ← withTransaction (.prepareCalculationJobRun jobId)
        pure (PreparedCalculationRun.durable prepared)
  | .failed =>
      if state.datasetStatus ≠ .building then throw (.jobNotRunnable jobId)
      else if state.activeAttempt.isSome then
        if state.activeAttempt.map (·.status) = some .accepted then
          Service.invariant s!"FAILED calculation job {jobId} has an ACCEPTED active attempt"
        else Service.ofExcept (durableAttemptFromRoutingState state)
      else withTransaction (.prepareFailedCalculationJobRetry state)

/-- `error.message` when the thrown value is an `Error`. -/
def unknownDispatchResult : Option String → DispatchResult
  | some message => .unknown s!"Executor dispatch raised an ambiguous error: {message}"
  | none => .unknown "Executor dispatch raised an ambiguous error"

/-- The `try` block of the loop in `runCalculationJobService`. -/
def runRoutingAttempt (jobId : Uuid) : Service CalculationJobRunResult := do
  let durableAttempt ← obtainDurableRunAttempt jobId
  let dispatch : BeginDispatchResult ← withTransaction (.beginDispatch durableAttempt)
  match dispatch with
  | .alreadyAccepted result => pure result
  | .dispatch command => do
      let outcome : DispatchResult := match ← executorDispatch command with
        | .ok result => result
        | .error message => unknownDispatchResult message
      let recorded : RecordOutcomeResult ←
        withTransaction (.recordDispatchOutcome command outcome)
      match recorded with
      | .rejected => throw (.executorDispatchFailed jobId)
      | .result result => pure result

/-- The loop, with `remaining` iterations to go. -/
def runRouting (jobId : Uuid) : Nat → Service CalculationJobRunResult
  | 0 => throw (.jobNotRunnable jobId)
  | remaining + 1 =>
      (runRoutingAttempt jobId).tryCatch fun error => match error with
        | .attemptRoutingRace => runRouting jobId remaining
        | .jobNotRunnable id =>
            if 0 < remaining then runRouting jobId remaining else throw (.jobNotRunnable id)
        | error => throw error

/-- Three rounds at most. -/
def runCalculationJobService (jobId : Uuid) : Service CalculationJobRunResult :=
  runRouting jobId 3

/-! ## `calculation-job-reconciliation.service.ts` -/

/-- An executor that throws is unavailable. -/
def lookupExecutorStatus (identity : ExecutionIdentity) :
    Service ExecutorExecutionStatus := do
  match ← executorGetExecutionStatus identity with
  | .ok status => pure status
  | .error _ => throw .executorStatusUnavailable

/-- The active attempt, else the latest terminal one of a job that has ended. -/
def selectCalculationJobAttemptForReconciliation (jobId : Uuid) : Service Uuid := do
  match ← Call.select (·.manualReconciliationSelection? jobId) with
  | none => throw (.calculationJobNotFound jobId)
  | some selection =>
  match selection.activeAttemptId, selection.latestTerminalAttemptId with
  | some activeAttemptId, _ => pure activeAttemptId
  | none, some latestTerminalAttemptId =>
      if selection.jobStatus = .succeeded ∨ selection.jobStatus = .failed then
        pure latestTerminalAttemptId
      else throw (.executionNotReconcilable jobId)
  | none, none => throw (.executionNotReconcilable jobId)

/-- The executor is asked between the read and the transaction. -/
def reconcileExecutionAttemptService (executionAttemptId : Uuid) :
    Service CalculationJobReconciliationResult := do
  match ← Call.select (·.reconciliationAttemptContext? executionAttemptId) with
  | none => throw (.executionAttemptNotFound executionAttemptId)
  | some context =>
  if isExecutorBackedAttemptStatus context.attemptStatus = false then
    throw (.executionNotReconcilable context.jobId)
  else if context.datasetStatus ≠ .building
      ∧ (isTerminalAttemptStatus context.attemptStatus = false
        ∨ context.datasetStatus = .draft) then
    Service.invariant ("Execution attempt is outside BUILDING dataset: "
      ++ reconciliationDiagnostic context (toString context.attemptStatus) "NOT_LOOKED_UP")
  else do
  match ← lookupExecutorStatus ⟨context.airflowDagId, context.airflowDagRunId⟩ with
  | .notFound => throw .executorStatusUnavailable
  | .unavailable _ => throw .executorStatusUnavailable
  | .running => withTransaction (.applyReconciliation context .running)
  | .succeeded => withTransaction (.applyReconciliation context .succeeded)
  | .failed _ => withTransaction (.applyReconciliation context .failed)

def reconcileCalculationJobService (jobId : Uuid) :
    Service CalculationJobReconciliationResult := do
  let executionAttemptId ← selectCalculationJobAttemptForReconciliation jobId
  reconcileExecutionAttemptService executionAttemptId

/-- The callback of the executor knows the identity only. -/
def reconcileExecutionByIdentityService (identity : ExecutionIdentity) :
    Service CalculationJobReconciliationResult := do
  match ← Call.select (·.findExecutionAttemptIdByIdentity identity) with
  | none => throw (.executionAttemptNotFound
      s!"{identity.airflowDagId}/{identity.airflowDagRunId}")
  | some executionAttemptId => reconcileExecutionAttemptService executionAttemptId

/-! ## `dataset-version.service.ts` and `dataset-version-lifecycle.service.ts` -/

/-- Only the violated active-version index is turned into an error of its own. -/
def createDatasetVersionService (input : SeriesIdentity) :
    Service CreateDatasetVersionResult :=
  (withTransaction (.createDatasetVersion input)).tryCatch fun error =>
    if error = .uniqueViolation "uq_dataset_versions_active_series" then
      throw .activeDatasetVersionExists
    else throw error

/-- `readDatasetSeriesId(pool, datasetVersionId)`. -/
def readDatasetSeriesId (datasetVersionId : Uuid) : Service Uuid := do
  match ← Call.select fun s =>
      (s.datasetVersions.get? datasetVersionId).map (·.datasetSeriesId) with
  | none => throw (.datasetVersionNotFound datasetVersionId)
  | some seriesId => pure seriesId

def decideValidatedDatasetService (datasetVersionId : Uuid) (decision : TerminalDecision) :
    Service LockedLifecycleDataset := do
  let seriesId ← readDatasetSeriesId datasetVersionId
  withTransaction (.decideValidatedDataset datasetVersionId seriesId decision)

def abandonDatasetVersionService (datasetVersionId : Uuid) :
    Service LockedLifecycleDataset := do
  let seriesId ← readDatasetSeriesId datasetVersionId
  withTransaction (.abandonDatasetVersion datasetVersionId seriesId)

/-! ## Requests -/

/-- The routes of the API that reach the services above. -/
inductive Request where
  | createDatasetVersion (input : SeriesIdentity)
  | prepareCalculationJobRun (jobId : Uuid)
  | runCalculationJob (jobId : Uuid)
  | reconcileCalculationJob (jobId : Uuid)
  | reconcileExecutionAttempt (executionAttemptId : Uuid)
  | reconcileExecutionByIdentity (identity : ExecutionIdentity)
  | submitDatasetValidation (datasetVersionId : Uuid)
  | decideValidatedDataset (datasetVersionId : Uuid) (decision : TerminalDecision)
  | abandonDatasetVersion (datasetVersionId : Uuid)

/-- What a route answers. -/
inductive Response where
  | created (result : CreateDatasetVersionResult)
  | prepared (result : PreparedCalculationRun)
  | ran (result : CalculationJobRunResult)
  | reconciled (result : CalculationJobReconciliationResult)
  | lifecycle (result : LockedLifecycleDataset)

/-- The handler of a route. -/
def Request.serve : Request → Service Response
  | .createDatasetVersion input => do pure (.created (← createDatasetVersionService input))
  | .prepareCalculationJobRun jobId => do
      pure (.prepared (← withTransaction (.prepareCalculationJobRun jobId)))
  | .runCalculationJob jobId => do pure (.ran (← runCalculationJobService jobId))
  | .reconcileCalculationJob jobId => do
      pure (.reconciled (← reconcileCalculationJobService jobId))
  | .reconcileExecutionAttempt executionAttemptId => do
      pure (.reconciled (← reconcileExecutionAttemptService executionAttemptId))
  | .reconcileExecutionByIdentity identity => do
      pure (.reconciled (← reconcileExecutionByIdentityService identity))
  | .submitDatasetValidation datasetVersionId => do
      pure (.lifecycle (← withTransaction (.submitDatasetValidation datasetVersionId)))
  | .decideValidatedDataset datasetVersionId decision => do
      pure (.lifecycle (← decideValidatedDatasetService datasetVersionId decision))
  | .abandonDatasetVersion datasetVersionId => do
      pure (.lifecycle (← abandonDatasetVersionService datasetVersionId))

end CostEngine
