import CostEngine.CalculationJob.PreparationService
import CostEngine.CalculationJob.RunRepository

/-! # `calculation-job-run.service.ts`: the transactions

Preparing a retry, beginning a dispatch and recording its outcome. The handler that runs
them around `executor.dispatch` is in `Service.Handlers`. -/

namespace CostEngine

open Concurrency (Txn)

/-! ## The values of a Run -/

/-- The attempt that a Run carries from its routing to its dispatch. -/
structure DurableRunAttempt where
  datasetVersionId : Uuid
  datasetBuildSnapshotId : Uuid
  jobId : Uuid
  jobStatus : CalculationJobStatus
  executionAttemptId : Uuid
  attemptNumber : Nat
  attemptStatus : ExecutionAttemptStatus
  airflowDagId : String
  airflowDagRunId : String

/-- How the dispatch ended, when it did not end in an error. -/
inductive RunDispatchOutcome where
  | accepted | alreadyExists | unknown
  deriving DecidableEq

structure CalculationJobRunResult where
  datasetVersionId : Uuid
  datasetStatus : DatasetVersionStatus
  datasetBuildSnapshotId : Uuid
  jobId : Uuid
  jobStatus : CalculationJobStatus
  executionAttemptId : Uuid
  attemptNumber : Nat
  attemptStatus : ExecutionAttemptStatus
  airflowDagId : String
  airflowDagRunId : String
  dispatchOutcome : RunDispatchOutcome

/-- Either the command to send, or the answer when another Run has had it accepted. -/
inductive BeginDispatchResult where
  | dispatch (command : DispatchCalculationCommand)
  | alreadyAccepted (result : CalculationJobRunResult)

/-- A rejection is raised outside of the transaction, once it is recorded. -/
inductive RecordOutcomeResult where
  | result (result : CalculationJobRunResult)
  | rejected

/-! ## The routing state -/

/-- A job of a frozen version has a resolved definition and one snapshot. -/
def requireFrozenRoutingState (state : CalculationJobRunRoutingState) :
    Except ServiceError Uuid :=
  let inconsistent : ServiceError := .calculationStateInvariant
    (s!"Calculation job {state.jobId} has inconsistent durable run state "
      ++ s!"(datasetVersionId={state.datasetVersionId})")
  match state.snapshotIds with
  | [snapshotId] =>
      if state.datasetStatus ≠ .building
          ∨ state.resolvedDependencyDefinitionVersionId = none then
        .error inconsistent
      else .ok snapshotId
  | _ => .error inconsistent

def durableAttemptFromRoutingState (state : CalculationJobRunRoutingState) :
    Except ServiceError DurableRunAttempt :=
  match state.activeAttempt with
  | none => .error (.calculationStateInvariant
      s!"Calculation job {state.jobId} has no active execution attempt")
  | some activeAttempt => do
      let datasetBuildSnapshotId ← requireFrozenRoutingState state
      .ok {
        datasetVersionId := state.datasetVersionId
        datasetBuildSnapshotId
        jobId := state.jobId
        jobStatus := state.jobStatus
        executionAttemptId := activeAttempt.id
        attemptNumber := activeAttempt.attemptNumber
        attemptStatus := activeAttempt.status
        airflowDagId := activeAttempt.airflowDagId
        airflowDagRunId := activeAttempt.airflowDagRunId }

/-! ## `prepareFailedCalculationJobRetry` -/

/-- A failed job gets its next attempt under the locks of version and job, if no other Run was
faster. -/
def prepareFailedCalculationJobRetry (state : CalculationJobRunRoutingState)
    (env : TxEnv) : Tx DurableRunAttempt := do
  match ← lockOutputDatasetVersion state.datasetVersionId with
  | none => invariant (s!"Dataset version {state.datasetVersionId} disappeared "
      ++ "during retry preparation")
  | some dataset =>
  if dataset.status ≠ .building then Tx.throw (.jobNotRunnable state.jobId)
  else do
  let freezeState ← readDatasetFreezeState state.datasetVersionId
  match freezeState.snapshotIds with
  | [snapshotId] =>
      if freezeState.jobCount = 0
          ∨ freezeState.resolvedJobCount ≠ freezeState.jobCount then
        invariant (s!"BUILDING dataset version {state.datasetVersionId} has an "
          ++ "inconsistent frozen build contract")
      else do
      match ← lockSelectedCalculationJob state.jobId with
      | none =>
          invariant s!"Calculation job {state.jobId} disappeared during retry preparation"
      | some job =>
      if job.outputDatasetVersionId ≠ state.datasetVersionId then
        invariant s!"Calculation job {state.jobId} disappeared during retry preparation"
      else if job.status ≠ .failed then Tx.throw .attemptRoutingRace
      else if job.resolvedDependencyDefinitionVersionId = none then
        invariant s!"FAILED calculation job {job.id} has no frozen dependency definition"
      else do
      match ← findActiveExecutionAttempt job.id with
      | some existingAttempt =>
          if existingAttempt.status ≠ .prepared
              ∧ existingAttempt.status ≠ .dispatching then
            invariant (s!"FAILED calculation job {job.id} has contradictory active attempt "
              ++ s!"{existingAttempt.id} ({existingAttempt.status})")
          else pure {
            datasetVersionId := state.datasetVersionId
            datasetBuildSnapshotId := snapshotId
            jobId := job.id
            jobStatus := .failed
            executionAttemptId := existingAttempt.id
            attemptNumber := existingAttempt.attemptNumber
            attemptStatus := existingAttempt.status
            airflowDagId := existingAttempt.airflowDagId
            airflowDagRunId := existingAttempt.airflowDagRunId }
      | none => do
          let attemptNumber ← allocateNextAttemptNumber job.id
          let executionAttemptId := env.uuid 1
          let airflowDagRunId := airflowDagRunIdOf executionAttemptId
          insertPreparedExecutionAttempt env executionAttemptId job.id attemptNumber
            job.airflowDagId airflowDagRunId
          pure {
            datasetVersionId := state.datasetVersionId
            datasetBuildSnapshotId := snapshotId
            jobId := job.id
            jobStatus := .failed
            executionAttemptId
            attemptNumber
            attemptStatus := .prepared
            airflowDagId := job.airflowDagId
            airflowDagRunId }
  | _ => invariant (s!"BUILDING dataset version {state.datasetVersionId} has an "
      ++ "inconsistent frozen build contract")

/-! ## `beginDispatch` -/

/-- One upstream version for each required domain: the only snapshot row of that domain. -/
def selectRelevantFrozenDependencies (jobId snapshotId : Uuid)
    (snapshotDependencies : List FrozenUpstreamDatasetVersion) :
    List String → Except ServiceError (List FrozenUpstreamDatasetVersion)
  | [] => .ok []
  | domain :: domains =>
      match snapshotDependencies.filter fun d => d.identity.domain = domain with
      | [dependency] => do
          let rest ← selectRelevantFrozenDependencies jobId snapshotId
            snapshotDependencies domains
          .ok (dependency :: rest)
      | candidates => .error (.calculationStateInvariant
          (s!"Frozen definition for calculation job {jobId} requires {domain}, "
            ++ s!"but snapshot {snapshotId} contains {candidates.length} "
            ++ "matching dependencies"))

def acceptedResult (attempt : DurableRunAttempt)
    (dispatchOutcome : RunDispatchOutcome) : CalculationJobRunResult where
  datasetVersionId := attempt.datasetVersionId
  datasetStatus := .building
  datasetBuildSnapshotId := attempt.datasetBuildSnapshotId
  jobId := attempt.jobId
  jobStatus := .running
  executionAttemptId := attempt.executionAttemptId
  attemptNumber := attempt.attemptNumber
  attemptStatus := .accepted
  airflowDagId := attempt.airflowDagId
  airflowDagRunId := attempt.airflowDagRunId
  dispatchOutcome := dispatchOutcome

/-! ### The command -/

/-- The last part of `beginDispatch`: the frozen inputs of the locked attempt. -/
def dispatchCommand (context : LockedCalculationJobDispatchContext) (snapshotId : Uuid)
    (definitionId : Uuid) (activeAttempt : ActiveExecutionAttempt) :
    Tx BeginDispatchResult := do
  let requiredDomains ← findRequiredDomainsForDefinition definitionId
  let snapshotDependencies ← findFrozenSnapshotDependencies snapshotId
  match selectRelevantFrozenDependencies context.jobId snapshotId snapshotDependencies
      requiredDomains with
  | .error e => Tx.throw e
  | .ok upstreamDatasetVersions => pure (.dispatch {
      executionAttemptId := activeAttempt.id
      attemptNumber := activeAttempt.attemptNumber
      jobId := context.jobId
      datasetVersionId := context.datasetVersionId
      datasetBuildSnapshotId := snapshotId
      calculationTypeId := context.calculationTypeId
      calculationTypeCode := context.calculationTypeCode
      resolvedDependencyDefinitionVersionId := definitionId
      airflowDagId := activeAttempt.airflowDagId
      airflowDagRunId := activeAttempt.airflowDagRunId
      upstreamDatasetVersions })

/-- Everything the command names is read under the locks, so that a stale `durableAttempt` is
found here. The attempt is `DISPATCHING` before the command leaves. -/
def beginDispatch (durableAttempt : DurableRunAttempt) (env : TxEnv) :
    Tx BeginDispatchResult := do
  match ← lockCalculationJobDispatchContext durableAttempt.jobId with
  | none =>
      invariant s!"Calculation job {durableAttempt.jobId} disappeared before dispatch"
  | some context =>
  if context.datasetStatus ≠ .building then
    invariant (s!"Active attempt {durableAttempt.executionAttemptId} belongs to "
      ++ s!"non-BUILDING dataset version {context.datasetVersionId} "
      ++ s!"({context.datasetStatus})")
  else do
  let snapshotIds ← readDatasetBuildSnapshotIds context.datasetVersionId
  match snapshotIds, context.resolvedDependencyDefinitionVersionId with
  | [snapshotId], some definitionId =>
      if snapshotId ≠ durableAttempt.datasetBuildSnapshotId then
        invariant (s!"Dataset snapshot changed before dispatch for calculation job "
          ++ context.jobId)
      else do
      match ← lockActiveExecutionAttempt context.jobId with
      | none => Tx.throw .attemptRoutingRace
      | some activeAttempt =>
      if activeAttempt.id ≠ durableAttempt.executionAttemptId then
        Tx.throw .attemptRoutingRace
      else if activeAttempt.status = .accepted then
        if context.jobStatus ≠ .running then
          invariant (s!"ACCEPTED attempt {activeAttempt.id} has contradictory job state "
            ++ toString context.jobStatus)
        else pure (.alreadyAccepted (acceptedResult { durableAttempt with
          jobStatus := context.jobStatus
          attemptNumber := activeAttempt.attemptNumber
          attemptStatus := activeAttempt.status
          airflowDagId := activeAttempt.airflowDagId
          airflowDagRunId := activeAttempt.airflowDagRunId } .accepted))
      else if context.jobStatus ≠ .pending ∧ context.jobStatus ≠ .failed then
        invariant (s!"Active attempt {activeAttempt.id} cannot dispatch from job state "
          ++ toString context.jobStatus)
      else if activeAttempt.status = .prepared then do
        let transitioned ← markExecutionAttemptDispatching env activeAttempt.id
        if transitioned then dispatchCommand context snapshotId definitionId activeAttempt
        else invariant s!"Could not transition attempt {activeAttempt.id} to DISPATCHING"
      else dispatchCommand context snapshotId definitionId activeAttempt
  | _, _ => invariant (s!"Calculation job {context.jobId} has an inconsistent frozen "
      ++ s!"build contract (datasetVersionId={context.datasetVersionId})")

/-! ## `recordDispatchOutcome` -/

def commandAttempt (command : DispatchCalculationCommand)
    (jobStatus : CalculationJobStatus) : DurableRunAttempt where
  datasetVersionId := command.datasetVersionId
  datasetBuildSnapshotId := command.datasetBuildSnapshotId
  jobId := command.jobId
  jobStatus := jobStatus
  executionAttemptId := command.executionAttemptId
  attemptNumber := command.attemptNumber
  attemptStatus := .dispatching
  airflowDagId := command.airflowDagId
  airflowDagRunId := command.airflowDagRunId

/-- The branch of an attempt that reconciliation has already ended, for an answer that is
no rejection. It only reads. -/
def recordTerminal (command : DispatchCalculationCommand)
    (dispatchOutcome : RunDispatchOutcome) (context : LockedCalculationJobDispatchContext)
    (attempt : LockedExecutionAttempt) (datasetStatus : DatasetVersionStatus) :
    Tx RecordOutcomeResult := do
  let newerAttemptExists ← hasNewerExecutionAttempt context.jobId attempt.attemptNumber
  if newerAttemptExists = false
      ∧ attempt.status.asJobStatus? ≠ some context.jobStatus then
    invariant ("Terminal attempt/job state is inconsistent during late dispatch: "
      ++ s!"jobId={context.jobId}, attemptId={attempt.id}, "
      ++ s!"attemptStatus={attempt.status}, jobStatus={context.jobStatus}")
  else pure (.result {
    datasetVersionId := command.datasetVersionId
    datasetStatus
    datasetBuildSnapshotId := command.datasetBuildSnapshotId
    jobId := command.jobId
    jobStatus := context.jobStatus
    executionAttemptId := attempt.id
    attemptNumber := attempt.attemptNumber
    attemptStatus := attempt.status
    airflowDagId := attempt.airflowDagId
    airflowDagRunId := attempt.airflowDagRunId
    dispatchOutcome })

/-! ### The four answers -/

/-- `outcome.kind === 'ACCEPTED' || outcome.kind === 'ALREADY_EXISTS'`. -/
def recordConfirmation (env : TxEnv) (command : DispatchCalculationCommand)
    (kind : RunDispatchOutcome) (context : LockedCalculationJobDispatchContext)
    (attempt : LockedExecutionAttempt) : Tx RecordOutcomeResult := do
  if attempt.status ≠ .dispatching
      ∨ (context.jobStatus ≠ .pending ∧ context.jobStatus ≠ .failed) then
    invariant (s!"Cannot confirm attempt {attempt.id} from attempt/job state "
      ++ s!"{attempt.status}/{context.jobStatus}")
  else do
    let attemptUpdated ← markExecutionAttemptAccepted env attempt.id
    let jobUpdated ← markCalculationJobRunning env context.jobId
    if attemptUpdated = false ∨ jobUpdated = false then
      invariant s!"Could not atomically confirm attempt {attempt.id}"
    else pure (.result (acceptedResult (commandAttempt command context.jobStatus) kind))

/-- A second answer for the same identity finds `DISPATCH_FAILED` and changes nothing. -/
def recordRejection (env : TxEnv) (message : String)
    (context : LockedCalculationJobDispatchContext) (attempt : LockedExecutionAttempt) :
    Tx RecordOutcomeResult := do
  if attempt.status = .dispatchFailed
      ∧ (context.jobStatus = .pending ∨ context.jobStatus = .failed) then
    pure .rejected
  else if attempt.status ≠ .dispatching
      ∨ (context.jobStatus ≠ .pending ∧ context.jobStatus ≠ .failed) then
    invariant (s!"Cannot reject attempt {attempt.id} from attempt/job state "
      ++ s!"{attempt.status}/{context.jobStatus}")
  else do
    let updated ← markExecutionAttemptDispatchFailed env attempt.id message
    if updated then pure .rejected
    else invariant s!"Could not record definite rejection for attempt {attempt.id}"

/-- No status changes: the executor may have the command or not. -/
def recordUnknown (command : DispatchCalculationCommand) (message : String)
    (context : LockedCalculationJobDispatchContext) (attempt : LockedExecutionAttempt) :
    Tx RecordOutcomeResult := do
  if attempt.status ≠ .dispatching
      ∨ (context.jobStatus ≠ .pending ∧ context.jobStatus ≠ .failed) then
    invariant (s!"Cannot record unknown outcome for attempt {attempt.id} from "
      ++ s!"attempt/job state {attempt.status}/{context.jobStatus}")
  else do
    let updated ← recordUnknownDispatchDiagnostic attempt.id message
    if updated then pure (.result {
      datasetVersionId := command.datasetVersionId
      datasetStatus := .building
      datasetBuildSnapshotId := command.datasetBuildSnapshotId
      jobId := command.jobId
      jobStatus := context.jobStatus
      executionAttemptId := command.executionAttemptId
      attemptNumber := command.attemptNumber
      attemptStatus := .dispatching
      airflowDagId := command.airflowDagId
      airflowDagRunId := command.airflowDagRunId
      dispatchOutcome := .unknown })
    else invariant s!"Could not record unknown dispatch outcome for attempt {attempt.id}"

/-- The answer is recorded against the attempt as it is now. It may have been accepted, or
finished by reconciliation, while the command was away. -/
def recordDispatchOutcome (command : DispatchCalculationCommand)
    (outcome : DispatchResult) (env : TxEnv) : Tx RecordOutcomeResult := do
  match ← lockCalculationJobDispatchContext command.jobId with
  | none => invariant s!"Calculation job {command.jobId} disappeared after executor dispatch"
  | some context =>
  match ← lockExecutionAttempt command.executionAttemptId with
  | none =>
      invariant s!"Execution attempt {command.executionAttemptId} disappeared after dispatch"
  | some attempt =>
  if attempt.calculationJobId ≠ command.jobId then
    invariant s!"Execution attempt {command.executionAttemptId} disappeared after dispatch"
  else if attempt.airflowDagId ≠ command.airflowDagId
      ∨ attempt.airflowDagRunId ≠ command.airflowDagRunId
      ∨ attempt.attemptNumber ≠ command.attemptNumber
      ∨ context.datasetVersionId ≠ command.datasetVersionId
      ∨ context.calculationTypeId ≠ command.calculationTypeId
      ∨ context.resolvedDependencyDefinitionVersionId
          ≠ some command.resolvedDependencyDefinitionVersionId then
    invariant s!"Execution identity changed for attempt {command.executionAttemptId}"
  else do
  let status ← readDatasetVersionStatus command.datasetVersionId
  let snapshotIds ← readDatasetBuildSnapshotIds command.datasetVersionId
  match status with
  | none => invariant s!"Frozen dataset identity changed for attempt {attempt.id}"
  | some datasetStatus =>
  if snapshotIds ≠ [command.datasetBuildSnapshotId] then
    invariant s!"Frozen dataset identity changed for attempt {attempt.id}"
  else if attempt.status = .succeeded ∨ attempt.status = .failed then
    if datasetStatus = .draft then
      invariant (s!"Terminal attempt {attempt.id} belongs to DRAFT dataset "
        ++ command.datasetVersionId)
    else match outcome with
      | .rejected _ => invariant (s!"Definite rejection contradicts terminal attempt "
          ++ s!"{attempt.id} ({attempt.status})")
      | .accepted => recordTerminal command .accepted context attempt datasetStatus
      | .alreadyExists => recordTerminal command .alreadyExists context attempt datasetStatus
      | .unknown _ => recordTerminal command .unknown context attempt datasetStatus
  else if datasetStatus ≠ .building then
    invariant (s!"Dispatched attempt {attempt.id} belongs to non-BUILDING "
      ++ s!"dataset version {command.datasetVersionId} ({datasetStatus})")
  else if attempt.status = .accepted ∧ context.jobStatus = .running then
    pure (.result (acceptedResult (commandAttempt command context.jobStatus) .accepted))
  else match outcome with
    | .accepted => recordConfirmation env command .accepted context attempt
    | .alreadyExists => recordConfirmation env command .alreadyExists context attempt
    | .rejected message => recordRejection env message context attempt
    | .unknown message => recordUnknown command message context attempt

end CostEngine
