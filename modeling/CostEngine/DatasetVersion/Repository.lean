import CostEngine.Store.Locks

/-! # `dataset-version.repository.ts`

The statements that create a dataset version with its jobs. -/

namespace CostEngine

open Concurrency (Txn)

/-- The series under its lock, with the number it has allocated last. -/
structure LockedDatasetSeries where
  id : Uuid
  lastAllocatedVersion : Nat

/-- A type that a new version gets a job for. -/
structure ActiveCalculationType where
  id : Uuid
  code : String

structure CalculationJobInsert where
  id : Uuid
  calculationTypeId : Uuid
  calculationTypeCode : String

structure CreatedCalculationJob where
  jobId : Uuid
  calculationTypeId : Uuid
  calculationTypeCode : String
  jobStatus : CalculationJobStatus

/-- `ORDER BY code, id` over the active types of a domain. -/
def Store.activeCalculationTypes (s : Store) (domain : String) : List CalculationType :=
  orderBy (fun ct => [ct.code, ct.id])
    (s.calculationTypes.select fun ct => ct.domain = domain ∧ ct.isActive = true)

/-- `INSERT … ON CONFLICT (domain, company_code, fiscal_year, period) DO NOTHING`. -/
def insertDatasetSeriesIfAbsent (row : DatasetSeries) : Tx Unit := do
  match ← Txn.select (·.seriesWith? row.identity) with
  | some _ => pure ()
  | none => do
      Txn.lock (.forUpdate (.seriesIdentity row.identity))
      match ← Txn.select (·.seriesWith? row.identity) with
      | some _ => pure ()
      | none =>
          Txn.insertRow (.forUpdate (.datasetSeries row.id))
            (fun s =>
              if (s.datasetSeries.get? row.id).isSome then
                some (.uniqueViolation "dataset_series_pkey")
              else none)
            (.insertDatasetSeries row)

/-- The series of an identity, created if it is not there. -/
def findOrCreateAndLockDatasetSeries (identity : SeriesIdentity) (newSeriesId : Uuid) :
    Tx LockedDatasetSeries := do
  insertDatasetSeriesIfAbsent { id := newSeriesId, identity, lastAllocatedVersion := 0 }
  match ← Txn.select (·.seriesWith? identity) with
  | none => Tx.throw (.error "Failed to acquire the canonical dataset series row")
  | some found => do
      Txn.lock (.forUpdate (.datasetSeries found.id))
      match ← Txn.select (·.datasetSeries.get? found.id) with
      | none => Tx.throw (.error "Failed to acquire the canonical dataset series row")
      | some row => pure { id := row.id, lastAllocatedVersion := row.lastAllocatedVersion }

/-- A version that is `DRAFT`, `BUILDING` or `VALIDATING`, if the series has one. -/
def findActiveDatasetVersion (datasetSeriesId : Uuid) : Tx (Option Uuid) :=
  .select fun s => ((s.versionsOf datasetSeriesId).find? (·.status.isActive)).map (·.id)

def DatasetSeries.allocated (row : DatasetSeries) : DatasetSeries :=
  { row with lastAllocatedVersion := row.lastAllocatedVersion + 1 }

/-- `SET last_allocated_version = last_allocated_version + 1 … RETURNING`. -/
def allocateNextDatasetVersion (datasetSeriesId : Uuid) : Tx Nat := do
  match ← Txn.updateReturning (.noKeyUpdate (.datasetSeries datasetSeriesId))
      (·.datasetSeries.get? datasetSeriesId)
      (fun row => .putDatasetSeries row.allocated) with
  | none =>
      Tx.throw (.error "Locked dataset series disappeared during version allocation")
  | some row => pure row.allocated.lastAllocatedVersion

/-- The last check is the partial unique index that allows one active version a series. -/
def insertDraftDatasetVersion (env : TxEnv) (id datasetSeriesId : Uuid) (version : Nat) :
    Tx Unit := do
  Txn.insertRow (.forUpdate (.datasetVersion id))
    (fun s =>
      if (s.datasetVersions.get? id).isSome then
        some (.uniqueViolation "dataset_versions_pkey")
      else if (s.versionsOf datasetSeriesId).any (·.version = version) then
        some (.uniqueViolation "uq_dataset_versions_dataset_series_id_version")
      else if (s.versionsOf datasetSeriesId).any (·.status.isActive) then
        some (.uniqueViolation "uq_dataset_versions_active_series")
      else none)
    (.insertDatasetVersion
      { id, datasetSeriesId, version, status := .draft, createdAt := env.now })
  Txn.lock (.keyShare (.datasetSeries datasetSeriesId))

def findActiveCalculationTypes (domain : String) : Tx (List ActiveCalculationType) :=
  .select fun s => (s.activeCalculationTypes domain).map fun ct =>
    { id := ct.id, code := ct.code }

/-- One row after the other. The two foreign keys take key-share locks. -/
def insertPendingCalculationJobs (env : TxEnv) (datasetVersionId : Uuid) :
    List CalculationJobInsert → Tx (List CreatedCalculationJob)
  | [] => pure []
  | job :: jobs => do
      Txn.insertRow (.forUpdate (.calculationJob job.id))
        (fun s =>
          if (s.calculationJobs.get? job.id).isSome then
            some (.uniqueViolation "calculation_jobs_pkey")
          else if (s.jobsOf datasetVersionId).any
              (·.calculationTypeId = job.calculationTypeId) then
            some (.uniqueViolation "uq_calculation_jobs_dataset_type")
          else none)
        (.insertCalculationJob
          { id := job.id
            outputDatasetVersionId := datasetVersionId
            calculationTypeId := job.calculationTypeId
            status := .pending
            createdAt := env.now })
      Txn.lock (.keyShare (.datasetVersion datasetVersionId))
      Txn.lock (.keyShare (.calculationType job.calculationTypeId))
      let created ← insertPendingCalculationJobs env datasetVersionId jobs
      pure ({
        jobId := job.id
        calculationTypeId := job.calculationTypeId
        calculationTypeCode := job.calculationTypeCode
        jobStatus := .pending } :: created)

end CostEngine
