import Mathlib.Data.List.MinMax
import CostEngine.Store.Locks

/-! # `calculation-job-preparation.repository.ts`

The statements of First Run and of attempt allocation. Each select is a function of the
rows it sees; the statement of the same name in the transaction runs it, with the lock it
takes. -/

namespace CostEngine

open Concurrency (Txn)

/-! ## What the statements return -/

/-- One job of the version that a First Run freezes, with its calculation type. -/
structure DatasetCalculationJobContext where
  id : Uuid
  status : CalculationJobStatus
  calculationTypeId : Uuid
  calculationTypeDomain : String
  calculationTypeCode : String

/-- The selected job, its version, and every job of that version. -/
structure CalculationRunContext where
  selectedJobId : Uuid
  datasetVersionId : Uuid
  datasetStatus : DatasetVersionStatus
  outputIdentity : SeriesIdentity
  jobs : List DatasetCalculationJobContext

structure LockedCalculationType where
  id : Uuid
  domain : String
  code : String

/-- The version of an upstream series that a snapshot would freeze. -/
structure PublishedUpstreamVersion where
  datasetSeriesId : Uuid
  datasetVersionId : Uuid
  version : Nat

structure LockedDatasetVersion where
  id : Uuid
  status : DatasetVersionStatus

/-- How far a version is frozen: its snapshots, its jobs, and the jobs whose definition is
resolved. -/
structure DatasetFreezeState where
  snapshotIds : List Uuid
  jobCount : Nat
  resolvedJobCount : Nat

/-- The job that gets the attempt, with the DAG that its type names. -/
structure LockedSelectedJob where
  id : Uuid
  outputDatasetVersionId : Uuid
  status : CalculationJobStatus
  calculationTypeId : Uuid
  resolvedDependencyDefinitionVersionId : Option Uuid
  airflowDagId : String

/-- An attempt that is `PREPARED`, `DISPATCHING` or `ACCEPTED`. -/
structure ActiveExecutionAttempt where
  id : Uuid
  attemptNumber : Nat
  status : ExecutionAttemptStatus
  airflowDagId : String
  airflowDagRunId : String

/-! ## The selects -/

namespace Store

variable (s : Store)

/-- The rows of `cj JOIN dv JOIN ds` for one job. -/
def jobRow? (jobId : Uuid) : Option (CalculationJob × DatasetVersion × DatasetSeries) := do
  let cj ← s.calculationJobs.get? jobId
  let dv ← s.datasetVersions.get? cj.outputDatasetVersionId
  let ds ← s.datasetSeries.get? dv.datasetSeriesId
  pure (cj, dv, ds)

/-- The rows of `cj JOIN ct` for one version, `ORDER BY ct.domain, ct.code, ct.id`. -/
def jobContexts (datasetVersionId : Uuid) : List DatasetCalculationJobContext :=
  orderBy (fun c => [c.calculationTypeDomain, c.calculationTypeCode, c.calculationTypeId])
    ((s.jobsOf datasetVersionId).filterMap fun cj =>
      (s.calculationTypes.get? cj.calculationTypeId).map fun ct =>
        { id := cj.id
          status := cj.status
          calculationTypeId := cj.calculationTypeId
          calculationTypeDomain := ct.domain
          calculationTypeCode := ct.code })

/-- The highest-numbered `PUBLISHED` definition of a calculation type. -/
def latestPublishedDefinition? (calculationTypeId : Uuid) : Option DependencyDefinition :=
  (s.publishedDefinitionsOf calculationTypeId).argmax (·.version)

/-- `SELECT DISTINCT ON (calculation_type_id) … ORDER BY calculation_type_id, version DESC`. -/
def latestPublishedDefinitions (calculationTypeIds : List Uuid) :
    List DependencyDefinition :=
  (orderBy (fun id => [id]) calculationTypeIds.dedup).filterMap s.latestPublishedDefinition?

/-- `SELECT DISTINCT required_domain … ORDER BY required_domain`. -/
def requiredDomains (definitionVersionIds : List Uuid) : List String :=
  orderBy (fun d => [d])
    (definitionVersionIds.flatMap fun id =>
      (s.definitionRowsOf id).map (·.requiredDomain)).dedup

/-- The highest-numbered `PUBLISHED` version of a series. -/
def latestPublishedVersion? (datasetSeriesId : Uuid) : Option DatasetVersion :=
  ((s.versionsOf datasetSeriesId).filter (·.status = .published)).argmax (·.version)

/-- At most one, by `uq_dataset_build_snapshot_version`. The source reads them all. -/
def snapshotIds (datasetVersionId : Uuid) : List Uuid :=
  orderBy (fun id => [id]) ((s.snapshotsOf datasetVersionId).map (·.id))

def freezeState (datasetVersionId : Uuid) : DatasetFreezeState where
  snapshotIds := s.snapshotIds datasetVersionId
  jobCount := (s.jobsOf datasetVersionId).length
  resolvedJobCount := ((s.jobsOf datasetVersionId).filter
    (·.resolvedDependencyDefinitionVersionId.isSome)).length

/-- The first row of the job's attempts with an active status. -/
def activeAttempt? (jobId : Uuid) : Option ActiveExecutionAttempt :=
  ((s.attemptsOf jobId).find? (·.status.isActive)).map fun ea =>
    { id := ea.id
      attemptNumber := ea.attemptNumber
      status := ea.status
      airflowDagId := ea.airflowDagId
      airflowDagRunId := ea.airflowDagRunId }

/-- `COALESCE(MAX(attempt_number), 0) + 1`. -/
def nextAttemptNumber (jobId : Uuid) : Nat :=
  ((s.attemptsOf jobId).map (·.attemptNumber)).foldr max 0 + 1

end Store

/-! ## The statements -/

/-- Two reads: the job with its version and series, then all jobs of the version. Rows may
change between the two. -/
def loadCalculationRunContext (jobId : Uuid) : Tx (Option CalculationRunContext) := do
  match ← Txn.select (·.jobRow? jobId) with
  | none => pure none
  | some (cj, dv, ds) => do
      let jobs ← Txn.select (·.jobContexts dv.id)
      pure (some {
        selectedJobId := cj.id
        datasetVersionId := dv.id
        datasetStatus := dv.status
        outputIdentity := ds.identity
        jobs })

/-- Serialises a First Run with the publication of definitions of the type. -/
def lockCalculationType (calculationTypeId : Uuid) : Tx (Option LockedCalculationType) :=
  .selectForUpdate (.forUpdate (.calculationType calculationTypeId)) fun s =>
    (s.calculationTypes.get? calculationTypeId).map fun ct =>
      { id := ct.id, domain := ct.domain, code := ct.code }

def findLatestPublishedDependencyDefinitions (calculationTypeIds : List Uuid) :
    Tx (List DependencyDefinition) :=
  .select (·.latestPublishedDefinitions calculationTypeIds)

def findRequiredDomains (definitionVersionIds : List Uuid) : Tx (List String) :=
  .select (·.requiredDomains definitionVersionIds)

/-- The series is found by its identity and locked by its row. -/
def lockUpstreamDatasetSeries (requirement : SeriesIdentity) : Tx (Option DatasetSeries) := do
  match ← Txn.select (·.seriesWith? requirement) with
  | none => pure none
  | some row =>
      Txn.lock (.forUpdate (.datasetSeries row.id))
      Txn.select (·.datasetSeries.get? row.id)

/-- Run under the lock of the series, so that no publication comes between this read and the
freeze. -/
def findLatestPublishedUpstreamVersion (datasetSeriesId : Uuid) :
    Tx (Option PublishedUpstreamVersion) :=
  .select fun s => (s.latestPublishedVersion? datasetSeriesId).map fun dv =>
    { datasetSeriesId := dv.datasetSeriesId, datasetVersionId := dv.id, version := dv.version }

def lockOutputDatasetVersion (datasetVersionId : Uuid) : Tx (Option LockedDatasetVersion) :=
  .selectForUpdate (.forUpdate (.datasetVersion datasetVersionId)) fun s =>
    (s.datasetVersions.get? datasetVersionId).map fun dv => { id := dv.id, status := dv.status }

def readDatasetFreezeState (datasetVersionId : Uuid) : Tx DatasetFreezeState :=
  .select (·.freezeState datasetVersionId)

/-- The `WHERE` clause asks for a job that is still unresolved: a definition is resolved once.
The foreign key takes the key-share lock. -/
def persistResolvedDependencyDefinition (datasetVersionId jobId calculationTypeId
    definitionVersionId : Uuid) : Tx Bool := do
  match ← Txn.updateReturning (.noKeyUpdate (.calculationJob jobId))
      (fun s => (s.calculationJobs.get? jobId).filter fun cj =>
        cj.outputDatasetVersionId = datasetVersionId
          ∧ cj.calculationTypeId = calculationTypeId
          ∧ cj.resolvedDependencyDefinitionVersionId = none)
      (fun cj => .putCalculationJob
        { cj with resolvedDependencyDefinitionVersionId := some definitionVersionId }) with
  | none => pure false
  | some _ => do
      Txn.lock (.keyShare (.dependencyDefinition definitionVersionId))
      pure true

/-- The second check is the unique constraint that allows one snapshot a version. -/
def insertDatasetBuildSnapshot (env : TxEnv) (snapshotId datasetVersionId : Uuid) :
    Tx Unit := do
  Txn.insertRow (.forUpdate (.datasetBuildSnapshot snapshotId))
    (fun s =>
      if (s.datasetBuildSnapshots.get? snapshotId).isSome then
        some (.uniqueViolation "dataset_build_snapshots_pkey")
      else if s.snapshotsOf datasetVersionId ≠ [] then
        some (.uniqueViolation "uq_dataset_build_snapshot_version")
      else none)
    (.insertDatasetBuildSnapshot
      { id := snapshotId, datasetVersionId, frozenAt := env.now })
  Txn.lock (.keyShare (.datasetVersion datasetVersionId))

def insertDatasetBuildSnapshotDependency (snapshotId upstreamDatasetSeriesId
    upstreamDatasetVersionId : Uuid) : Tx Unit := do
  Txn.insertRow (.keyShare (.datasetBuildSnapshot snapshotId))
    (fun s =>
      if (s.snapshotDependencies.get? (snapshotId, upstreamDatasetSeriesId)).isSome then
        some (.uniqueViolation "dataset_build_snapshot_dependencies_pkey")
      else none)
    (.insertSnapshotDependency
      { snapshotId, upstreamDatasetSeriesId, upstreamDatasetVersionId })
  Txn.lock (.keyShare (.datasetVersion upstreamDatasetVersionId))

/-- `WHERE status = 'DRAFT'`. -/
def transitionDatasetVersionToBuilding (env : TxEnv) (datasetVersionId : Uuid) : Tx Bool := do
  let updated ← Txn.updateReturning (.noKeyUpdate (.datasetVersion datasetVersionId))
    (fun s => (s.datasetVersions.get? datasetVersionId).filter (·.status = .draft))
    fun dv => .putDatasetVersion
      { dv with status := .building, buildingStartedAt := some env.now }
  pure updated.isSome

/-- `airflow_dag_id` is a column of the joined calculation type. -/
def lockSelectedCalculationJob (jobId : Uuid) : Tx (Option LockedSelectedJob) :=
  .selectJoinForUpdate (.forUpdate (.calculationJob jobId))
    (fun s => do
      let cj ← s.calculationJobs.get? jobId
      let ct ← s.calculationTypes.get? cj.calculationTypeId
      pure ct.airflowDagId)
    fun airflowDagId s => (s.calculationJobs.get? jobId).map fun cj =>
      { id := cj.id
        outputDatasetVersionId := cj.outputDatasetVersionId
        status := cj.status
        calculationTypeId := cj.calculationTypeId
        resolvedDependencyDefinitionVersionId := cj.resolvedDependencyDefinitionVersionId
        airflowDagId }

def findActiveExecutionAttempt (jobId : Uuid) : Tx (Option ActiveExecutionAttempt) :=
  .select (·.activeAttempt? jobId)

def allocateNextAttemptNumber (jobId : Uuid) : Tx Nat := .select (·.nextAttemptNumber jobId)

/-- Each check is a unique constraint of `execution_attempts`. The last one is the partial index
on active attempts. -/
def insertPreparedExecutionAttempt (env : TxEnv) (id jobId : Uuid) (attemptNumber : Nat)
    (airflowDagId airflowDagRunId : String) : Tx Unit := do
  Txn.insertRow (.forUpdate (.executionAttempt id))
    (fun s =>
      if (s.executionAttempts.get? id).isSome then
        some (.uniqueViolation "execution_attempts_pkey")
      else if (s.attemptsOf jobId).any (·.attemptNumber = attemptNumber) then
        some (.uniqueViolation "uq_execution_attempt_job_number")
      else if s.executionAttempts.rows.any fun ea =>
          ea.airflowDagId = airflowDagId ∧ ea.airflowDagRunId = airflowDagRunId then
        some (.uniqueViolation "uq_execution_attempt_airflow_run")
      else if (s.attemptsOf jobId).any (·.status.isActive) then
        some (.uniqueViolation "uq_execution_attempt_active_job")
      else none)
    (.insertExecutionAttempt
      { id
        calculationJobId := jobId
        attemptNumber
        status := .prepared
        airflowDagId
        airflowDagRunId
        createdAt := env.now })
  Txn.lock (.keyShare (.calculationJob jobId))

end CostEngine
