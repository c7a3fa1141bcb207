import CostEngine.CalculationJob.PreparationRepository
import CostEngine.Executor.Boundary

/-! # `calculation-job-run.repository.ts`

The routing read of a Run, the locks of its two transactions, and the guarded updates of
attempts and jobs. `hasNewerExecutionAttempt`, from the reconciliation repository, is here
too, as both services use it. -/

namespace CostEngine

open Concurrency (Txn)

/-- What a Run reads, without any lock, to choose its route. -/
structure CalculationJobRunRoutingState where
  jobId : Uuid
  jobStatus : CalculationJobStatus
  datasetVersionId : Uuid
  datasetStatus : DatasetVersionStatus
  resolvedDependencyDefinitionVersionId : Option Uuid
  snapshotIds : List Uuid
  activeAttempt : Option ActiveExecutionAttempt

/-- The locked job, with the status of its version and the code of its type. -/
structure LockedCalculationJobDispatchContext where
  jobId : Uuid
  jobStatus : CalculationJobStatus
  datasetVersionId : Uuid
  datasetStatus : DatasetVersionStatus
  calculationTypeId : Uuid
  calculationTypeCode : String
  resolvedDependencyDefinitionVersionId : Option Uuid

/-- The columns that a locking read of an attempt returns. -/
structure LockedExecutionAttempt where
  id : Uuid
  calculationJobId : Uuid
  attemptNumber : Nat
  status : ExecutionAttemptStatus
  airflowDagId : String
  airflowDagRunId : String

/-! ## The selects -/

namespace Store

variable (s : Store)

/-- One statement, so all its columns are of one moment. -/
def runRoutingState? (jobId : Uuid) : Option CalculationJobRunRoutingState := do
  let cj ← s.calculationJobs.get? jobId
  let dv ← s.datasetVersions.get? cj.outputDatasetVersionId
  pure {
    jobId := cj.id
    jobStatus := cj.status
    datasetVersionId := cj.outputDatasetVersionId
    datasetStatus := dv.status
    resolvedDependencyDefinitionVersionId := cj.resolvedDependencyDefinitionVersionId
    snapshotIds := s.snapshotIds dv.id
    activeAttempt := s.activeAttempt? cj.id }

/-- The columns of `dv` and `ct` in the locking read of a job. -/
def dispatchJoin? (jobId : Uuid) : Option (DatasetVersionStatus × String) := do
  let cj ← s.calculationJobs.get? jobId
  let dv ← s.datasetVersions.get? cj.outputDatasetVersionId
  let ct ← s.calculationTypes.get? cj.calculationTypeId
  pure (dv.status, ct.code)

def lockedAttempt? (executionAttemptId : Uuid) : Option LockedExecutionAttempt :=
  (s.executionAttempts.get? executionAttemptId).map fun ea =>
    { id := ea.id
      calculationJobId := ea.calculationJobId
      attemptNumber := ea.attemptNumber
      status := ea.status
      airflowDagId := ea.airflowDagId
      airflowDagRunId := ea.airflowDagRunId }

/-- `ORDER BY required_domain`. -/
def requiredDomainsOf (definitionVersionId : Uuid) : List String :=
  orderBy (fun d => [d]) ((s.definitionRowsOf definitionVersionId).map (·.requiredDomain))

/-- The snapshot rows joined with their series and version. The `ORDER BY` of the source
is left out: the rows are only grouped by domain. -/
def frozenDependencies (snapshotId : Uuid) : List FrozenUpstreamDatasetVersion :=
  (s.dependenciesOf snapshotId).filterMap fun dependency => do
    let ds ← s.datasetSeries.get? dependency.upstreamDatasetSeriesId
    let dv ← s.datasetVersions.get? dependency.upstreamDatasetVersionId
    if dv.datasetSeriesId = dependency.upstreamDatasetSeriesId then
      some {
        identity := ds.identity
        datasetSeriesId := dependency.upstreamDatasetSeriesId
        datasetVersionId := dependency.upstreamDatasetVersionId
        version := dv.version }
    else none

def hasNewerExecutionAttempt (jobId : Uuid) (attemptNumber : Nat) : Bool :=
  (s.attemptsOf jobId).any fun ea => attemptNumber < ea.attemptNumber

end Store

/-! ## The statements -/

/-- `FOR UPDATE OF cj`: only the job's row is locked. The version and the type are joined and
may change. -/
def lockCalculationJobDispatchContext (jobId : Uuid) :
    Tx (Option LockedCalculationJobDispatchContext) :=
  .selectJoinForUpdate (.forUpdate (.calculationJob jobId)) (·.dispatchJoin? jobId)
    fun (datasetStatus, calculationTypeCode) s =>
      (s.calculationJobs.get? jobId).map fun cj =>
        { jobId := cj.id
          jobStatus := cj.status
          datasetVersionId := cj.outputDatasetVersionId
          datasetStatus
          calculationTypeId := cj.calculationTypeId
          calculationTypeCode
          resolvedDependencyDefinitionVersionId :=
            cj.resolvedDependencyDefinitionVersionId }

/-- The active attempt is found by its job and locked by its row. -/
def lockActiveExecutionAttempt (jobId : Uuid) : Tx (Option ActiveExecutionAttempt) := do
  match ← Txn.select (·.activeAttempt? jobId) with
  | none => pure none
  | some attempt =>
      Txn.lock (.forUpdate (.executionAttempt attempt.id))
      Txn.select fun s => (s.activeAttempt? jobId).filter (·.id = attempt.id)

def lockExecutionAttempt (executionAttemptId : Uuid) : Tx (Option LockedExecutionAttempt) :=
  .selectForUpdate (.forUpdate (.executionAttempt executionAttemptId))
    (·.lockedAttempt? executionAttemptId)

/-- All of them, as `beginDispatch` checks that there is exactly one. -/
def readDatasetBuildSnapshotIds (datasetVersionId : Uuid) : Tx (List Uuid) :=
  .select (·.snapshotIds datasetVersionId)

def readDatasetVersionStatus (datasetVersionId : Uuid) : Tx (Option DatasetVersionStatus) :=
  .select fun s => (s.datasetVersions.get? datasetVersionId).map (·.status)

def findRequiredDomainsForDefinition (definitionVersionId : Uuid) : Tx (List String) :=
  .select (·.requiredDomainsOf definitionVersionId)

/-- The upstream list of the command, read from the frozen rows and not from the series. -/
def findFrozenSnapshotDependencies (snapshotId : Uuid) :
    Tx (List FrozenUpstreamDatasetVersion) :=
  .select (·.frozenDependencies snapshotId)

def hasNewerExecutionAttempt (jobId : Uuid) (attemptNumber : Nat) : Tx Bool :=
  .select (·.hasNewerExecutionAttempt jobId attemptNumber)

/-- `UPDATE execution_attempts SET … WHERE id = $1 AND status = … RETURNING id`. -/
def updateAttempt (executionAttemptId : Uuid) (expected : ExecutionAttemptStatus)
    (columns : ExecutionAttempt → ExecutionAttempt) : Tx Bool := do
  let updated ← Txn.updateReturning (.noKeyUpdate (.executionAttempt executionAttemptId))
    (fun s => (s.executionAttempts.get? executionAttemptId).filter (·.status = expected))
    fun ea => .putExecutionAttempt (columns ea)
  pure updated.isSome

/-- `UPDATE calculation_jobs SET … WHERE id = $1 AND status IN … RETURNING id`. -/
def updateJob (jobId : Uuid) (expected : List CalculationJobStatus)
    (columns : CalculationJob → CalculationJob) : Tx Bool := do
  let updated ← Txn.updateReturning (.noKeyUpdate (.calculationJob jobId))
    (fun s => (s.calculationJobs.get? jobId).filter (·.status ∈ expected))
    fun cj => .putCalculationJob (columns cj)
  pure updated.isSome

/-! ### The columns each update sets -/

/-- The diagnostic of an earlier dispatch is cleared. -/
def ExecutionAttempt.dispatching (now : Time) (ea : ExecutionAttempt) : ExecutionAttempt :=
  { ea with status := .dispatching, dispatchStartedAt := some now, lastDispatchError := none }

def ExecutionAttempt.acceptedByDispatch (now : Time) (ea : ExecutionAttempt) :
    ExecutionAttempt :=
  { ea with status := .accepted, acceptedAt := some now, lastDispatchError := none }

/-- Only a definite rejection ends an attempt at its dispatch. -/
def ExecutionAttempt.dispatchFailed (now : Time) (message : String)
    (ea : ExecutionAttempt) : ExecutionAttempt :=
  { ea with
    status := .dispatchFailed, finishedAt := some now, lastDispatchError := some message }

/-- An `UNKNOWN` answer leaves the status as it is. -/
def ExecutionAttempt.diagnosed (message : String) (ea : ExecutionAttempt) :
    ExecutionAttempt :=
  { ea with lastDispatchError := some message }

/-- `started_at = COALESCE(started_at, NOW())`. -/
def CalculationJob.running (now : Time) (cj : CalculationJob) : CalculationJob :=
  { cj with status := .running, startedAt := cj.startedAt <|> some now }

def markExecutionAttemptDispatching (env : TxEnv) (executionAttemptId : Uuid) : Tx Bool :=
  updateAttempt executionAttemptId .prepared (.dispatching env.now)

def markExecutionAttemptAccepted (env : TxEnv) (executionAttemptId : Uuid) : Tx Bool :=
  updateAttempt executionAttemptId .dispatching (.acceptedByDispatch env.now)

/-- `FAILED` is a source too: an accepted retry runs the job again. -/
def markCalculationJobRunning (env : TxEnv) (jobId : Uuid) : Tx Bool :=
  updateJob jobId [.pending, .failed] (.running env.now)

def markExecutionAttemptDispatchFailed (env : TxEnv) (executionAttemptId : Uuid)
    (message : String) : Tx Bool :=
  updateAttempt executionAttemptId .dispatching (.dispatchFailed env.now message)

/-- Guarded by `DISPATCHING`, so that a decided attempt keeps its message. -/
def recordUnknownDispatchDiagnostic (executionAttemptId : Uuid) (message : String) :
    Tx Bool :=
  updateAttempt executionAttemptId .dispatching (.diagnosed message)

end CostEngine
