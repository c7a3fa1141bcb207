import CostEngine.CalculationJob.RunRepository

/-! # `calculation-job-reconciliation.repository.ts`

The unlocked reads that choose an attempt and describe it, the lock of its job, and the
guarded updates that bring in the executor's status. -/

namespace CostEngine

open Concurrency (Txn)

/-- The attempt with its job and version, read before the executor is asked. -/
structure ReconciliationAttemptContext where
  executionAttemptId : Uuid
  jobId : Uuid
  jobStatus : CalculationJobStatus
  datasetVersionId : Uuid
  datasetStatus : DatasetVersionStatus
  attemptNumber : Nat
  attemptStatus : ExecutionAttemptStatus
  airflowDagId : String
  airflowDagRunId : String

/-- The attempts among which the job's reconciliation chooses. -/
structure ManualReconciliationSelection where
  jobStatus : CalculationJobStatus
  activeAttemptId : Option Uuid
  latestTerminalAttemptId : Option Uuid

structure LockedReconciliationJob where
  jobId : Uuid
  jobStatus : CalculationJobStatus
  datasetVersionId : Uuid
  datasetStatus : DatasetVersionStatus

/-- `ReconciliationExecutorStatus`: the kinds of executor status that are applied. -/
inductive ReconciliationExecutorStatus where
  | running | succeeded | failed
  deriving DecidableEq

namespace ReconciliationExecutorStatus

instance : ToString ReconciliationExecutorStatus where
  toString
    | .running   => "RUNNING"
    | .succeeded => "SUCCEEDED"
    | .failed    => "FAILED"

/-- The status of the attempt and of the job after an applied executor status. -/
def attemptStatus : ReconciliationExecutorStatus → ExecutionAttemptStatus
  | .running => .accepted
  | .succeeded => .succeeded
  | .failed => .failed

/-- The status of the job that an executor status stands for. -/
def jobStatus : ReconciliationExecutorStatus → CalculationJobStatus
  | .running => .running
  | .succeeded => .succeeded
  | .failed => .failed

/-- The executor status with the text of an attempt status, if there is one. -/
def ofAttemptStatus? : ExecutionAttemptStatus → Option ReconciliationExecutorStatus
  | .succeeded => some .succeeded
  | .failed => some .failed
  | _ => none

end ReconciliationExecutorStatus

/-! ## The selects -/

namespace Store

variable (s : Store)

/-- `… WHERE status IN statuses ORDER BY attempt_number DESC LIMIT 1`. -/
def latestAttemptIn? (jobId : Uuid) (statuses : List ExecutionAttemptStatus) :
    Option ExecutionAttempt :=
  ((s.attemptsOf jobId).filter (·.status ∈ statuses)).argmax (·.attemptNumber)

/-- One statement: the latest active attempt and the latest terminal one, each by number. -/
def manualReconciliationSelection? (jobId : Uuid) : Option ManualReconciliationSelection :=
  (s.calculationJobs.get? jobId).map fun cj =>
    { jobStatus := cj.status
      activeAttemptId := (s.latestAttemptIn? cj.id [.dispatching, .accepted]).map (·.id)
      latestTerminalAttemptId := (s.latestAttemptIn? cj.id [.succeeded, .failed]).map (·.id) }

/-- The identity is unique, by `uq_execution_attempt_airflow_run`. -/
def findExecutionAttemptIdByIdentity (identity : ExecutionIdentity) : Option Uuid :=
  (s.executionAttempts.rows.find? fun ea =>
    ea.airflowDagId = identity.airflowDagId
      ∧ ea.airflowDagRunId = identity.airflowDagRunId).map (·.id)

def reconciliationAttemptContext? (executionAttemptId : Uuid) :
    Option ReconciliationAttemptContext := do
  let ea ← s.executionAttempts.get? executionAttemptId
  let cj ← s.calculationJobs.get? ea.calculationJobId
  let dv ← s.datasetVersions.get? cj.outputDatasetVersionId
  pure {
    executionAttemptId := ea.id
    jobId := cj.id
    jobStatus := cj.status
    datasetVersionId := dv.id
    datasetStatus := dv.status
    attemptNumber := ea.attemptNumber
    attemptStatus := ea.status
    airflowDagId := ea.airflowDagId
    airflowDagRunId := ea.airflowDagRunId }

end Store

/-! ## The statements -/

def loadReconciliationAttemptContext (executionAttemptId : Uuid) :
    Tx (Option ReconciliationAttemptContext) :=
  .select (·.reconciliationAttemptContext? executionAttemptId)

/-- The dataset columns are those of the joined version. -/
def lockReconciliationJob (jobId : Uuid) : Tx (Option LockedReconciliationJob) :=
  .selectJoinForUpdate (.forUpdate (.calculationJob jobId))
    (fun s => do
      let cj ← s.calculationJobs.get? jobId
      s.datasetVersions.get? cj.outputDatasetVersionId)
    fun dv s => (s.calculationJobs.get? jobId).map fun cj =>
      { jobId := cj.id
        jobStatus := cj.status
        datasetVersionId := dv.id
        datasetStatus := dv.status }

/-! ### The columns each update sets -/

/-- `accepted_at = COALESCE(accepted_at, NOW())`. -/
def ExecutionAttempt.acceptedByReconciliation (now : Time) (ea : ExecutionAttempt) :
    ExecutionAttempt :=
  { ea with
    status := .accepted, acceptedAt := ea.acceptedAt <|> some now, lastDispatchError := none }

/-- A terminal status, with its time. -/
def ExecutionAttempt.finished (now : Time) (target : ExecutionAttemptStatus)
    (ea : ExecutionAttempt) : ExecutionAttempt :=
  { ea with
    status := target
    acceptedAt := ea.acceptedAt <|> some now
    finishedAt := some now
    lastDispatchError := none }

def CalculationJob.finished (now : Time) (target : CalculationJobStatus)
    (cj : CalculationJob) : CalculationJob :=
  { cj with status := target, finishedAt := some now }

def transitionDispatchingAttemptToAccepted (env : TxEnv) (executionAttemptId : Uuid) :
    Tx Bool :=
  updateAttempt executionAttemptId .dispatching (.acceptedByReconciliation env.now)

/-- The caller names the status it saw under the lock. -/
def transitionAttemptToTerminal (env : TxEnv) (executionAttemptId : Uuid)
    (expectedStatus targetStatus : ExecutionAttemptStatus) : Tx Bool :=
  updateAttempt executionAttemptId expectedStatus (.finished env.now targetStatus)

def transitionJobToRunning (env : TxEnv) (jobId : Uuid) : Tx Bool :=
  updateJob jobId [.pending, .failed] (.running env.now)

def transitionJobToTerminal (env : TxEnv) (jobId : Uuid)
    (expectedStatuses : List CalculationJobStatus) (targetStatus : CalculationJobStatus) :
    Tx Bool :=
  updateJob jobId expectedStatuses (.finished env.now targetStatus)

end CostEngine
