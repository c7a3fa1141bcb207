import CostEngine.Store.Locks

/-! # `dataset-version-lifecycle.repository.ts`

The locks of the lifecycle commands, in their order series, version, jobs, attempts, and
the guarded status update. -/

namespace CostEngine

open Concurrency (Txn)

/-- `DatasetLifecycleResult`, which is also what the lock of a version returns. -/
structure LockedLifecycleDataset where
  datasetSeriesId : Uuid
  datasetVersionId : Uuid
  version : Nat
  datasetStatus : DatasetVersionStatus
  deriving DecidableEq

structure LockedLifecycleJob where
  id : Uuid
  status : CalculationJobStatus

structure LockedLifecycleAttempt where
  id : Uuid
  calculationJobId : Uuid
  status : ExecutionAttemptStatus

/-- `keyof typeof transitions`. -/
inductive LifecycleTarget where
  | validating | published | rejected | abandoned
  deriving DecidableEq

namespace LifecycleTarget

def status : LifecycleTarget → DatasetVersionStatus
  | validating => .validating
  | published => .published
  | rejected => .rejected
  | abandoned => .abandoned

/-- The statuses a transition starts from. -/
def sources : LifecycleTarget → List DatasetVersionStatus
  | validating => [.building]
  | published => [.validating]
  | rejected => [.validating]
  | abandoned => [.draft, .building]

/-- `SET status = $2, ${transition.timestamp} = NOW()`. -/
def columns (now : Time) (dv : DatasetVersion) : LifecycleTarget → DatasetVersion
  | validating => { dv with status := .validating, validatingAt := some now }
  | published => { dv with status := .published, publishedAt := some now }
  | rejected => { dv with status := .rejected, rejectedAt := some now }
  | abandoned => { dv with status := .abandoned, abandonedAt := some now }

end LifecycleTarget

namespace Store

variable (s : Store)

/-- The columns of a version that the lifecycle commands read. -/
def lifecycleDataset? (datasetVersionId : Uuid) : Option LockedLifecycleDataset :=
  (s.datasetVersions.get? datasetVersionId).map fun dv =>
    { datasetSeriesId := dv.datasetSeriesId
      datasetVersionId := dv.id
      version := dv.version
      datasetStatus := dv.status }

/-- The ids of a version's jobs, `ORDER BY id`. -/
def lifecycleJobIds (datasetVersionId : Uuid) : List Uuid :=
  orderBy (fun id => [id]) ((s.jobsOf datasetVersionId).map (·.id))

/-- The ids of the attempts of a version's jobs, in the order they are locked in:
`ORDER BY calculation_job_id, attempt_number`. -/
def lifecycleAttemptIds (datasetVersionId : Uuid) : List Uuid :=
  (s.lifecycleJobIds datasetVersionId).flatMap fun jobId =>
    ((s.attemptsOf jobId).insertionSort fun a b => a.attemptNumber ≤ b.attemptNumber).map
      (·.id)

end Store

/-- Publishing, rejecting and abandoning wait here for a First Run that reads the series. -/
def lockLifecycleSeries (seriesId : Uuid) : Tx Bool := do
  let row ← Txn.selectForUpdate (.forUpdate (.datasetSeries seriesId))
    (·.datasetSeries.get? seriesId)
  pure row.isSome

def lockLifecycleDataset (datasetVersionId : Uuid) : Tx (Option LockedLifecycleDataset) :=
  .selectForUpdate (.forUpdate (.datasetVersion datasetVersionId))
    (·.lifecycleDataset? datasetVersionId)

/-- Lock the rows `ids` one after the other and read each under its lock; a row that no
longer qualifies is skipped. -/
def lockRows {α : Type} (lockOf : Uuid → RowLock) (find : Uuid → Store → Option α) :
    List Uuid → Tx (List α)
  | [] => pure []
  | id :: ids => do
      Txn.lock (lockOf id)
      let row ← Txn.select (find id)
      let rows ← lockRows lockOf find ids
      pure (row.toList ++ rows)

/-- The jobs of the version, locked in the order of their ids. -/
def lockLifecycleJobs (datasetVersionId : Uuid) : Tx (List LockedLifecycleJob) := do
  let ids ← Txn.select (·.lifecycleJobIds datasetVersionId)
  lockRows (fun id => .forUpdate (.calculationJob id))
    (fun id s => ((s.calculationJobs.get? id).filter
      (·.outputDatasetVersionId = datasetVersionId)).map fun cj =>
        { id := cj.id, status := cj.status })
    ids

def lockLifecycleAttempts (datasetVersionId : Uuid) : Tx (List LockedLifecycleAttempt) := do
  let ids ← Txn.select (·.lifecycleAttemptIds datasetVersionId)
  lockRows (fun id => .forUpdate (.executionAttempt id))
    (fun id s => (s.executionAttempts.get? id).map fun ea =>
      { id := ea.id, calculationJobId := ea.calculationJobId, status := ea.status })
    ids

/-- The `WHERE` clause repeats the sources of the transition. -/
def transitionLifecycleDataset (env : TxEnv) (datasetVersionId : Uuid)
    (target : LifecycleTarget) : Tx Bool := do
  let updated ← Txn.updateReturning (.noKeyUpdate (.datasetVersion datasetVersionId))
    (fun s => (s.datasetVersions.get? datasetVersionId).filter
      (·.status ∈ target.sources))
    fun dv => .putDatasetVersion (target.columns env.now dv)
  pure updated.isSome

end CostEngine
