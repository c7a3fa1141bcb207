import CostEngine.Relational.Table

/-! # The rows of the orchestration schema

The tables of the schema-v2 migration, with the columns that the services read or write.
A `Store` is one committed state of the database. Only the primary keys are built into
the type; the other unique constraints are checked by the inserts that they can refuse. -/

namespace CostEngine

open Relational (Table)

abbrev Uuid := String

/-- A timestamp. `NOW()` is the start time of the running transaction. -/
abbrev Time := Nat

inductive DatasetVersionStatus where
  | draft | building | validating | published | rejected | abandoned
  deriving DecidableEq

inductive CalculationJobStatus where
  | pending | running | succeeded | failed
  deriving DecidableEq

inductive ExecutionAttemptStatus where
  | prepared | dispatching | accepted | succeeded | failed | dispatchFailed
  deriving DecidableEq

inductive DefinitionStatus where
  | draft | published | abandoned
  deriving DecidableEq

inductive DatasetPeriod where
  | q1 | q2 | q3 | q4
  deriving DecidableEq

/-! ## Status texts, as the columns store them -/

instance : ToString DatasetVersionStatus where
  toString
    | .draft      => "DRAFT"
    | .building   => "BUILDING"
    | .validating => "VALIDATING"
    | .published  => "PUBLISHED"
    | .rejected   => "REJECTED"
    | .abandoned  => "ABANDONED"

instance : ToString CalculationJobStatus where
  toString
    | .pending   => "PENDING"
    | .running   => "RUNNING"
    | .succeeded => "SUCCEEDED"
    | .failed    => "FAILED"

instance : ToString ExecutionAttemptStatus where
  toString
    | .prepared       => "PREPARED"
    | .dispatching    => "DISPATCHING"
    | .accepted       => "ACCEPTED"
    | .succeeded      => "SUCCEEDED"
    | .failed         => "FAILED"
    | .dispatchFailed => "DISPATCH_FAILED"

/-- `status IN ('PREPARED', 'DISPATCHING', 'ACCEPTED')`. -/
def ExecutionAttemptStatus.isActive : ExecutionAttemptStatus → Bool
  | .prepared | .dispatching | .accepted => true
  | _ => false

/-- The job status with the text of an attempt status, if there is one. -/
def ExecutionAttemptStatus.asJobStatus? : ExecutionAttemptStatus → Option CalculationJobStatus
  | .succeeded => some .succeeded
  | .failed => some .failed
  | _ => none

/-- `status IN ('DRAFT', 'BUILDING', 'VALIDATING')`. -/
def DatasetVersionStatus.isActive : DatasetVersionStatus → Bool
  | .draft | .building | .validating => true
  | _ => false

/-! ## Rows -/

/-- `dataset_series (domain, company_code, fiscal_year, period)`. -/
structure SeriesIdentity where
  domain : String
  companyCode : String
  fiscalYear : Nat
  period : DatasetPeriod
  deriving DecidableEq

/-- `calculation_types`. -/
structure CalculationType where
  id : Uuid
  domain : String
  code : String
  airflowDagId : String
  isActive : Bool
  deriving DecidableEq

/-- `execution_dependency_definition_versions`. -/
structure DependencyDefinition where
  id : Uuid
  calculationTypeId : Uuid
  version : Nat
  status : DefinitionStatus
  deriving DecidableEq

/-- `execution_dependency_definition_dependencies`. -/
structure DefinitionDependency where
  definitionVersionId : Uuid
  requiredDomain : String
  deriving DecidableEq

/-- `dataset_series`. -/
structure DatasetSeries where
  id : Uuid
  identity : SeriesIdentity
  lastAllocatedVersion : Nat
  deriving DecidableEq

/-- `dataset_versions`. -/
structure DatasetVersion where
  id : Uuid
  datasetSeriesId : Uuid
  version : Nat
  status : DatasetVersionStatus
  createdAt : Time
  buildingStartedAt : Option Time := none
  validatingAt : Option Time := none
  publishedAt : Option Time := none
  rejectedAt : Option Time := none
  abandonedAt : Option Time := none
  deriving DecidableEq

/-- `calculation_jobs`. -/
structure CalculationJob where
  id : Uuid
  outputDatasetVersionId : Uuid
  calculationTypeId : Uuid
  status : CalculationJobStatus
  resolvedDependencyDefinitionVersionId : Option Uuid := none
  createdAt : Time
  startedAt : Option Time := none
  finishedAt : Option Time := none
  deriving DecidableEq

/-- `dataset_build_snapshots`. -/
structure DatasetBuildSnapshot where
  id : Uuid
  datasetVersionId : Uuid
  frozenAt : Time
  deriving DecidableEq

/-- `dataset_build_snapshot_dependencies`. -/
structure SnapshotDependency where
  snapshotId : Uuid
  upstreamDatasetSeriesId : Uuid
  upstreamDatasetVersionId : Uuid
  deriving DecidableEq

/-- `execution_attempts`. -/
structure ExecutionAttempt where
  id : Uuid
  calculationJobId : Uuid
  attemptNumber : Nat
  status : ExecutionAttemptStatus
  airflowDagId : String
  airflowDagRunId : String
  createdAt : Time
  dispatchStartedAt : Option Time := none
  acceptedAt : Option Time := none
  finishedAt : Option Time := none
  lastDispatchError : Option String := none
  deriving DecidableEq

/-! ## The store -/

structure Store where
  calculationTypes : Table CalculationType Uuid (·.id)
  dependencyDefinitions : Table DependencyDefinition Uuid (·.id)
  definitionDependencies : Table DefinitionDependency (Uuid × String)
    (fun d => (d.definitionVersionId, d.requiredDomain))
  datasetSeries : Table DatasetSeries Uuid (·.id)
  datasetVersions : Table DatasetVersion Uuid (·.id)
  calculationJobs : Table CalculationJob Uuid (·.id)
  datasetBuildSnapshots : Table DatasetBuildSnapshot Uuid (·.id)
  snapshotDependencies : Table SnapshotDependency (Uuid × Uuid)
    (fun d => (d.snapshotId, d.upstreamDatasetSeriesId))
  executionAttempts : Table ExecutionAttempt Uuid (·.id)

/-- One row written by a statement: an `INSERT`, or the new image of an `UPDATE`d row. -/
inductive Write where
  | insertDatasetSeries (row : DatasetSeries)
  | putDatasetSeries (row : DatasetSeries)
  | insertDatasetVersion (row : DatasetVersion)
  | putDatasetVersion (row : DatasetVersion)
  | insertCalculationJob (row : CalculationJob)
  | putCalculationJob (row : CalculationJob)
  | insertDatasetBuildSnapshot (row : DatasetBuildSnapshot)
  | insertSnapshotDependency (row : SnapshotDependency)
  | insertExecutionAttempt (row : ExecutionAttempt)
  | putExecutionAttempt (row : ExecutionAttempt)

namespace Store

@[simp] def apply (s : Store) : Write → Store
  | .insertDatasetSeries row => { s with datasetSeries := s.datasetSeries.insert row }
  | .putDatasetSeries row => { s with datasetSeries := s.datasetSeries.put row }
  | .insertDatasetVersion row => { s with datasetVersions := s.datasetVersions.insert row }
  | .putDatasetVersion row => { s with datasetVersions := s.datasetVersions.put row }
  | .insertCalculationJob row => { s with calculationJobs := s.calculationJobs.insert row }
  | .putCalculationJob row => { s with calculationJobs := s.calculationJobs.put row }
  | .insertDatasetBuildSnapshot row =>
      { s with datasetBuildSnapshots := s.datasetBuildSnapshots.insert row }
  | .insertSnapshotDependency row =>
      { s with snapshotDependencies := s.snapshotDependencies.insert row }
  | .insertExecutionAttempt row =>
      { s with executionAttempts := s.executionAttempts.insert row }
  | .putExecutionAttempt row => { s with executionAttempts := s.executionAttempts.put row }

/-- A store with the given configuration tables and no orchestration rows. -/
def empty (types : Table CalculationType Uuid (·.id))
    (definitions : Table DependencyDefinition Uuid (·.id))
    (dependencies : Table DefinitionDependency (Uuid × String)
      (fun d => (d.definitionVersionId, d.requiredDomain))) : Store where
  calculationTypes := types
  dependencyDefinitions := definitions
  definitionDependencies := dependencies
  datasetSeries := .empty
  datasetVersions := .empty
  calculationJobs := .empty
  datasetBuildSnapshots := .empty
  snapshotDependencies := .empty
  executionAttempts := .empty

/-! ## Selections by parent row -/

variable (s : Store)

def versionsOf (seriesId : Uuid) : List DatasetVersion :=
  s.datasetVersions.select fun v => v.datasetSeriesId = seriesId

def jobsOf (datasetVersionId : Uuid) : List CalculationJob :=
  s.calculationJobs.select fun j => j.outputDatasetVersionId = datasetVersionId

def attemptsOf (jobId : Uuid) : List ExecutionAttempt :=
  s.executionAttempts.select fun a => a.calculationJobId = jobId

def snapshotsOf (datasetVersionId : Uuid) : List DatasetBuildSnapshot :=
  s.datasetBuildSnapshots.select fun b => b.datasetVersionId = datasetVersionId

def dependenciesOf (snapshotId : Uuid) : List SnapshotDependency :=
  s.snapshotDependencies.select fun d => d.snapshotId = snapshotId

def publishedDefinitionsOf (calculationTypeId : Uuid) : List DependencyDefinition :=
  s.dependencyDefinitions.select fun d =>
    d.calculationTypeId = calculationTypeId ∧ d.status = .published

def definitionRowsOf (definitionVersionId : Uuid) : List DefinitionDependency :=
  s.definitionDependencies.select fun d => d.definitionVersionId = definitionVersionId

def seriesWith? (identity : SeriesIdentity) : Option DatasetSeries :=
  s.datasetSeries.rows.find? fun r => r.identity = identity

end Store

end CostEngine
