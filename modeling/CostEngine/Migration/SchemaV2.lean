import CostEngine.Migration.Naming01
import CostEngine.Relational.Checked
import Mathlib.Data.List.Dedup

/-!
# `orchestration-schema-v2.ts`

The migration from the original schema, in which a dataset version has one calculation job
and a series is named by a business key, to the orchestration schema, and its way back.

Both directions first run a preflight, a block of queries of which the first that finds a
row raises, and then rewrite the tables row by row. A join on a primary key is written as a
lookup. The locks keep all other writers out, and an error leaves the tables as they were.
-/

namespace CostEngine

open Relational (raiseFirst present require repeats rewrite)

/-! ## The original schema -/

inductive LegacyVersionStatus where
  | draft | building | validating | published | failed | rejected
  deriving DecidableEq

inductive LegacyJobStatus where
  | pending | running | validating | succeeded | failed | rejected
  deriving DecidableEq

/-- `dataset_series` before the migration. -/
structure LegacySeries where
  id : Uuid
  domain : String
  businessKey : String
  lastVersion : Nat
  deriving DecidableEq

/-- `dataset_versions` before the migration. -/
structure LegacyVersion where
  id : Uuid
  datasetSeriesId : Uuid
  version : Nat
  status : LegacyVersionStatus
  createdAt : Time
  publishedAt : Option Time := none
  deriving DecidableEq

/-- `calculation_jobs` before the migration. -/
structure LegacyJob where
  id : Uuid
  datasetSeriesId : Uuid
  outputDatasetVersionId : Uuid
  status : LegacyJobStatus
  createdAt : Time
  startedAt : Option Time := none
  finishedAt : Option Time := none
  deriving DecidableEq

/-- `calculation_dependencies`. -/
structure LegacyDependency where
  id : Uuid
  calculationJobId : Uuid
  datasetVersionId : Uuid
  dependencyType : String
  policy : String
  deriving DecidableEq

structure LegacyDatabase where
  datasetSeries : List LegacySeries
  datasetVersions : List LegacyVersion
  calculationJobs : List LegacyJob
  calculationDependencies : List LegacyDependency
  deriving DecidableEq

/-- `status IN ('PENDING', 'RUNNING', 'VALIDATING')`. -/
def LegacyJobStatus.isActive : LegacyJobStatus → Bool
  | .pending | .running | .validating => true
  | _ => false

/-- `status IN ('DRAFT', 'BUILDING', 'VALIDATING')`. -/
def LegacyVersionStatus.isActive : LegacyVersionStatus → Bool
  | .draft | .building | .validating => true
  | _ => false

/-- The job status with the text of a version status that v1 keeps on both rows. -/
def LegacyVersionStatus.onJob? : LegacyVersionStatus → Option LegacyJobStatus
  | .validating => some .validating
  | .rejected => some .rejected
  | _ => none

namespace LegacyDatabase

/-- The keys, references and checks of the original schema. The reference of a job to its
series follows from the composite one to its version. -/
structure Constraints (db : LegacyDatabase) : Prop where
  seriesId : (db.datasetSeries.map (·.id)).Nodup
  /-- `uq_dataset_series_domain_business_key`. -/
  businessKey : (db.datasetSeries.map fun s => (s.domain, s.businessKey)).Nodup
  versionId : (db.datasetVersions.map (·.id)).Nodup
  versionSeries : ∀ v ∈ db.datasetVersions, ∃ s ∈ db.datasetSeries, s.id = v.datasetSeriesId
  versionPositive : ∀ v ∈ db.datasetVersions, 0 < v.version
  /-- `uq_dataset_versions_dataset_series_id_version`. -/
  versionNumber : (db.datasetVersions.map fun v => (v.datasetSeriesId, v.version)).Nodup
  jobId : (db.calculationJobs.map (·.id)).Nodup
  /-- `composite_fk_calculation_jobs`. -/
  jobVersion : ∀ j ∈ db.calculationJobs, ∃ v ∈ db.datasetVersions,
    v.datasetSeriesId = j.datasetSeriesId ∧ v.id = j.outputDatasetVersionId
  /-- `uq_calculation_jobs_output_dataset_version`. -/
  jobOutput : (db.calculationJobs.map (·.outputDatasetVersionId)).Nodup
  /-- `uq_calculation_jobs_active_series`. -/
  activeJob : ((db.calculationJobs.filter (·.status.isActive)).map (·.datasetSeriesId)).Nodup
  dependencyId : (db.calculationDependencies.map (·.id)).Nodup
  dependencyJob : ∀ d ∈ db.calculationDependencies, ∃ j ∈ db.calculationJobs,
    j.id = d.calculationJobId
  dependencyVersion : ∀ d ∈ db.calculationDependencies, ∃ v ∈ db.datasetVersions,
    v.id = d.datasetVersionId
  /-- `uq_calculation_dependencies_type`. -/
  dependencyType :
    (db.calculationDependencies.map fun d => (d.calculationJobId, d.dependencyType)).Nodup
  /-- `uq_calculation_dependencies_version`. -/
  dependencyPair :
    (db.calculationDependencies.map fun d => (d.calculationJobId, d.datasetVersionId)).Nodup

end LegacyDatabase

/-! ## The orchestration schema -/

structure V2Database where
  datasetSeries : List DatasetSeriesRow
  datasetVersions : List DatasetVersion
  calculationTypes : List CalculationTypeRow
  /-- `orchestration_v2_legacy_calculation_type_bridges`. -/
  bridges : List Uuid
  dependencyDefinitions : List DependencyDefinition
  definitionDependencies : List DefinitionDependency
  calculationJobs : List CalculationJob
  buildSnapshots : List DatasetBuildSnapshot
  snapshotDependencies : List SnapshotDependency
  executionAttempts : List ExecutionAttempt
  deriving DecidableEq

namespace V2Database

structure Constraints (db : V2Database) : Prop where
  seriesId : (db.datasetSeries.map (·.id)).Nodup
  /-- `uq_dataset_series_identity`. -/
  identity : (db.datasetSeries.map (·.identity)).Nodup
  /-- `uq_dataset_series_domain_legacy_business_key`; a NULL equals nothing. -/
  legacyBusinessKey : (db.datasetSeries.filterMap fun s =>
    s.legacyBusinessKey.map fun key => (s.identity.domain, key)).Nodup
  /-- `ck_dataset_series_fiscal_year`. -/
  fiscalYear : ∀ s ∈ db.datasetSeries, 0 < s.identity.fiscalYear
  versionId : (db.datasetVersions.map (·.id)).Nodup
  versionSeries : ∀ v ∈ db.datasetVersions, ∃ s ∈ db.datasetSeries, s.id = v.datasetSeriesId
  versionPositive : ∀ v ∈ db.datasetVersions, 0 < v.version
  versionNumber : (db.datasetVersions.map fun v => (v.datasetSeriesId, v.version)).Nodup
  /-- `uq_dataset_versions_active_series`. -/
  activeVersion :
    ((db.datasetVersions.filter (·.status.isActive)).map (·.datasetSeriesId)).Nodup
  typeId : (db.calculationTypes.map (·.id)).Nodup
  /-- `uq_calculation_types_domain_code`. -/
  domainCode : (db.calculationTypes.map fun t => (t.domain, t.code)).Nodup
  bridgeId : db.bridges.Nodup
  bridgeType : ∀ b ∈ db.bridges, ∃ t ∈ db.calculationTypes, t.id = b
  definitionId : (db.dependencyDefinitions.map (·.id)).Nodup
  definitionType : ∀ d ∈ db.dependencyDefinitions, ∃ t ∈ db.calculationTypes,
    t.id = d.calculationTypeId
  definitionPositive : ∀ d ∈ db.dependencyDefinitions, 0 < d.version
  definitionNumber :
    (db.dependencyDefinitions.map fun d => (d.calculationTypeId, d.version)).Nodup
  requiredDomain :
    (db.definitionDependencies.map fun d => (d.definitionVersionId, d.requiredDomain)).Nodup
  dependencyDefinition : ∀ d ∈ db.definitionDependencies, ∃ e ∈ db.dependencyDefinitions,
    e.id = d.definitionVersionId
  jobId : (db.calculationJobs.map (·.id)).Nodup
  jobVersion : ∀ j ∈ db.calculationJobs, ∃ v ∈ db.datasetVersions,
    v.id = j.outputDatasetVersionId
  jobType : ∀ j ∈ db.calculationJobs, ∃ t ∈ db.calculationTypes, t.id = j.calculationTypeId
  /-- `fk_calculation_jobs_resolved_definition`. -/
  jobDefinition : ∀ j ∈ db.calculationJobs, ∀ id,
    j.resolvedDependencyDefinitionVersionId = some id → ∃ d ∈ db.dependencyDefinitions,
      d.calculationTypeId = j.calculationTypeId ∧ d.id = id
  /-- `uq_calculation_jobs_dataset_type`. -/
  jobOutputType :
    (db.calculationJobs.map fun j => (j.outputDatasetVersionId, j.calculationTypeId)).Nodup
  snapshotId : (db.buildSnapshots.map (·.id)).Nodup
  snapshotVersion : ∀ b ∈ db.buildSnapshots, ∃ v ∈ db.datasetVersions, v.id = b.datasetVersionId
  /-- `uq_dataset_build_snapshot_version`. -/
  snapshotOnce : (db.buildSnapshots.map (·.datasetVersionId)).Nodup
  upstreamSeries :
    (db.snapshotDependencies.map fun d => (d.snapshotId, d.upstreamDatasetSeriesId)).Nodup
  dependencySnapshot : ∀ d ∈ db.snapshotDependencies, ∃ b ∈ db.buildSnapshots, b.id = d.snapshotId
  /-- `fk_snapshot_dependency_series_version`. -/
  dependencyUpstream : ∀ d ∈ db.snapshotDependencies, ∃ v ∈ db.datasetVersions,
    v.datasetSeriesId = d.upstreamDatasetSeriesId ∧ v.id = d.upstreamDatasetVersionId
  attemptId : (db.executionAttempts.map (·.id)).Nodup
  attemptJob : ∀ a ∈ db.executionAttempts, ∃ j ∈ db.calculationJobs, j.id = a.calculationJobId
  attemptPositive : ∀ a ∈ db.executionAttempts, 0 < a.attemptNumber
  /-- `uq_execution_attempt_job_number`. -/
  attemptNumber : (db.executionAttempts.map fun a => (a.calculationJobId, a.attemptNumber)).Nodup
  /-- `uq_execution_attempt_airflow_run`. -/
  airflowRun : (db.executionAttempts.map fun a => (a.airflowDagId, a.airflowDagRunId)).Nodup
  /-- `uq_execution_attempt_active_job`. -/
  activeAttempt :
    ((db.executionAttempts.filter (·.status.isActive)).map (·.calculationJobId)).Nodup

end V2Database

inductive SchemaError where
  | raised (message : String)
  | checkViolation (constraint : String)
  | notNullViolation (column : String)
  | uniqueViolation (constraint : String)
  deriving DecidableEq

/-! ## Business keys -/

/-- `split_part(key, ':', n)`. -/
def splitPart (key : String) (n : Nat) : String :=
  String.ofList (((key.toList.splitOn ':')[n - 1]?).getD [])

/-- `text::INTEGER`, of digits. -/
def integer (text : String) : Nat :=
  text.toList.foldl (fun n digit => 10 * n + (digit.toNat - '0'.toNat)) 0

namespace DatasetPeriod

instance : ToString DatasetPeriod where
  toString
    | .q1 => "Q1"
    | .q2 => "Q2"
    | .q3 => "Q3"
    | .q4 => "Q4"

def ofText? (text : String) : Option DatasetPeriod :=
  if text = "Q1" then some .q1
  else if text = "Q2" then some .q2
  else if text = "Q3" then some .q3
  else if text = "Q4" then some .q4
  else none

theorem ofText?_eq_some {text : String} {period : DatasetPeriod} :
    ofText? text = some period ↔ text = toString period := by
  constructor
  · intro h
    unfold ofText? at h
    split_ifs at h with h1 h2 h3 h4
    · cases h; exact h1
    · cases h; exact h2
    · cases h; exact h3
    · cases h; exact h4
  · rintro rfl
    cases period <;> decide

end DatasetPeriod

/-- `key ~ '^[^:]+:[0-9]{4}:Q[1-4](?::.*)?$'`: three parts of this form, and any others. -/
def isCanonicalKey (key : String) : Bool :=
  splitPart key 1 ≠ "" && (splitPart key 2).length = 4 && (splitPart key 2).toList.all Char.isDigit
    && (DatasetPeriod.ofText? (splitPart key 3)).isSome

/-- What both preflights refuse. -/
def isMalformedKey (key : String) : Bool :=
  !isCanonicalKey key || 20 < (splitPart key 1).length

example : isCanonicalKey "COMPANY_A:2026:Q1" = true := by decide +kernel
example : isCanonicalKey "COMPANY_A:2026:Q1:main" = true := by decide +kernel
example : isCanonicalKey "COMPANY_A:2026:Q5" = false := by decide +kernel

/-- `[a-zA-Z0-9_]`. -/
def isWordChar (c : Char) : Bool := c.isAlphanum || c = '_'

/-- `regexp_replace(text, '[^a-zA-Z0-9_]+', '_', 'g')`; `inRun` says that a run has begun. -/
def replaceRuns (inRun : Bool) : List Char → List Char
  | [] => []
  | c :: text =>
      if isWordChar c then c :: replaceRuns false text
      else if inRun then replaceRuns true text
      else '_' :: replaceRuns true text

/-- `'legacy_' || lower(regexp_replace(domain, …))`. -/
def legacyDagId (domain : String) : String :=
  "legacy_" ++ (String.ofList (replaceRuns false domain.toList)).toLower

example : legacyDagId "FAB -- Cost_1" = "legacy_fab_cost_1" := by decide +kernel

/-! ## `up` -/

/-- `NOW()` of the migration's transaction, and the ids that `gen_random_uuid()` gives the new
calculation types, each named by its domain. -/
structure MigrationRun where
  now : Time
  typeId : String → Uuid

def LegacyVersionStatus.v2? : LegacyVersionStatus → Option DatasetVersionStatus
  | .draft => some .draft
  | .building => some .building
  | .validating => some .validating
  | .published => some .published
  | .rejected => some .rejected
  | .failed => none

def LegacyJobStatus.v2? : LegacyJobStatus → Option CalculationJobStatus
  | .pending => some .pending
  | .running => some .running
  | .succeeded => some .succeeded
  | .failed => some .failed
  | .validating | .rejected => none

namespace LegacyDatabase

variable (db : LegacyDatabase)

def versionOf? (job : LegacyJob) : Option LegacyVersion :=
  db.datasetVersions.find? fun v => v.id = job.outputDatasetVersionId

def seriesOf? (version : LegacyVersion) : Option LegacySeries :=
  db.datasetSeries.find? fun s => s.id = version.datasetSeriesId

def jobsOf (version : LegacyVersion) : List LegacyJob :=
  db.calculationJobs.filter fun j => j.outputDatasetVersionId = version.id

/-- The domain that a job has by its version and series. -/
def domainOf? (job : LegacyJob) : Option String := do
  let version ← db.versionOf? job
  let series ← db.seriesOf? version
  return series.domain

/-! ### The preflight of `up` -/

/-- `last_version < COALESCE(MAX(version), 0)`. -/
def lagsBehind (series : LegacySeries) : Bool :=
  (db.datasetVersions.filter fun v => v.datasetSeriesId = series.id).any fun v =>
    series.lastVersion < v.version

/-- A validation or rejection that the job of a version does not share. -/
def jobDiffers (version : LegacyVersion) : Bool :=
  match version.status.onJob? with
  | some status =>
      (db.jobsOf version).length ≠ 1 || (db.jobsOf version).any fun j => j.status ≠ status
  | none => false

/-- A validation or rejection of a job that its version does not share. -/
def versionDiffers (job : LegacyJob) : Bool :=
  (db.versionOf? job).any fun v =>
    (job.status = .validating && v.status ≠ .validating)
      || (job.status = .rejected && v.status ≠ .rejected)

def upPreflight : List (Bool × SchemaError) := [
  (!db.calculationDependencies.isEmpty, .raised (
    "orchestration-schema-v2 cannot safely migrate non-empty calculation_dependencies; " ++
    "migrate legacy dependency history explicitly first")),
  (db.datasetSeries.any fun s => isMalformedKey s.businessKey, .raised (
    "Cannot derive canonical identity from one or more legacy business_key values. " ++
    "Expected COMPANY_CODE:FISCAL_YEAR:Qn[:legacy-suffix] with COMPANY_CODE no longer " ++
    "than 20 characters.")),
  (db.datasetSeries.any fun s => integer (splitPart s.businessKey 2) ≤ 0, .raised (
    "Cannot derive canonical identity from one or more legacy business_key values. " ++
    "FISCAL_YEAR must be positive.")),
  (repeats (fun s => (s.domain, splitPart s.businessKey 1, integer (splitPart s.businessKey 2),
      splitPart s.businessKey 3)) db.datasetSeries, .raised (
    "Cannot migrate legacy dataset_series because multiple business_key values resolve " ++
    "to the same canonical identity.")),
  (db.datasetSeries.any db.lagsBehind, .raised (
    "Cannot migrate legacy dataset_series because last_version is below an existing " ++
    "dataset version.")),
  (db.datasetVersions.any fun v => (db.jobsOf v).length ≠ 1, .raised (
    "Cannot migrate legacy dataset_versions: every dataset version must have exactly one " ++
    "calculation job.")),
  (db.datasetVersions.any fun v => v.status = .failed, .raised (
    "Cannot migrate legacy dataset version status FAILED: accepted architecture does not " ++
    "define a semantics-preserving dataset-level mapping.")),
  (db.calculationJobs.any db.versionDiffers || db.datasetVersions.any db.jobDiffers,
    .raised "Cannot migrate inconsistent legacy validation/rejection job and dataset statuses.")]

/-! ### The statements of `up` -/

/-- The columns of a series that replace its business key. -/
def upSeries (run : MigrationRun) (s : LegacySeries) : Except SchemaError DatasetSeriesRow := do
  let fiscalYear := integer (splitPart s.businessKey 2)
  require (.checkViolation "ck_dataset_series_fiscal_year") (0 < fiscalYear)
  let period ← present (.checkViolation "ck_dataset_series_period")
    (DatasetPeriod.ofText? (splitPart s.businessKey 3))
  return {
    id := s.id
    identity := {
      domain := s.domain, companyCode := splitPart s.businessKey 1, fiscalYear, period }
    lastAllocatedVersion := s.lastVersion
    legacyBusinessKey := some s.businessKey
    createdAt := run.now }

def upVersion (v : LegacyVersion) : Except SchemaError DatasetVersion := do
  let status ← present (.checkViolation "ck_dataset_versions_status") v.status.v2?
  return {
    id := v.id, datasetSeriesId := v.datasetSeriesId, version := v.version, status
    createdAt := v.createdAt, publishedAt := v.publishedAt }

/-- The inactive compatibility type of a domain. -/
def bridgeType (run : MigrationRun) (domain : String) : CalculationTypeRow where
  id := run.typeId domain
  domain := domain
  code := "LEGACY_DEFAULT"
  airflowDagId := legacyDagId domain
  isActive := false
  lastAllocatedDependencyDefinitionVersion := 0
  createdAt := run.now

/-- The types inserted, one for each domain with a job. -/
def bridgeTypes (run : MigrationRun) : List CalculationTypeRow :=
  (db.calculationJobs.filterMap db.domainOf?).dedup.map (bridgeType run)

def typeOf? (types : List CalculationTypeRow) (job : LegacyJob) : Option CalculationTypeRow := do
  let domain ← db.domainOf? job
  types.find? fun t => (t.domain, t.code) = (domain, "LEGACY_DEFAULT")

/-- The status of a job after the paired ones are set to `SUCCEEDED`. -/
def completedStatus (job : LegacyJob) : LegacyJobStatus :=
  match db.versionOf? job with
  | some v =>
      if (job.status = .validating ∧ v.status = .validating)
        ∨ (job.status = .rejected ∧ v.status = .rejected) then .succeeded
      else job.status
  | none => job.status

def upJob (types : List CalculationTypeRow) (job : LegacyJob) :
    Except SchemaError CalculationJob := do
  let type ← present (.notNullViolation "calculation_type_id") (db.typeOf? types job)
  let status ← present (.checkViolation "ck_calculation_jobs_status") (db.completedStatus job).v2?
  return {
    id := job.id, outputDatasetVersionId := job.outputDatasetVersionId
    calculationTypeId := type.id, status
    createdAt := job.createdAt, startedAt := job.startedAt, finishedAt := job.finishedAt }

def up (run : MigrationRun) : Except SchemaError V2Database := do
  raiseFirst db.upPreflight
  let datasetSeries ← rewrite (upSeries run) db.datasetSeries
  require (.uniqueViolation "uq_dataset_series_identity") (datasetSeries.map (·.identity)).Nodup
  let datasetVersions ← rewrite upVersion db.datasetVersions
  require (.uniqueViolation "uq_dataset_versions_active_series")
    ((datasetVersions.filter (·.status.isActive)).map (·.datasetSeriesId)).Nodup
  let calculationTypes := db.bridgeTypes run
  require (.uniqueViolation "calculation_types_pkey") (calculationTypes.map (·.id)).Nodup
  let calculationJobs ← rewrite (db.upJob calculationTypes) db.calculationJobs
  require (.uniqueViolation "uq_calculation_jobs_dataset_type")
    (calculationJobs.map fun j => (j.outputDatasetVersionId, j.calculationTypeId)).Nodup
  return {
    datasetSeries, datasetVersions, calculationTypes, calculationJobs
    bridges := (db.calculationJobs.filterMap fun j =>
      (db.typeOf? calculationTypes j).map (·.id)).dedup
    dependencyDefinitions := [], definitionDependencies := []
    buildSnapshots := [], snapshotDependencies := [], executionAttempts := [] }

end LegacyDatabase

/-! ## `down` -/

def DatasetVersionStatus.legacy? : DatasetVersionStatus → Option LegacyVersionStatus
  | .draft => some .draft
  | .building => some .building
  | .validating => some .validating
  | .published => some .published
  | .rejected => some .rejected
  | .abandoned => none

def CalculationJobStatus.legacy : CalculationJobStatus → LegacyJobStatus
  | .pending => .pending
  | .running => .running
  | .succeeded => .succeeded
  | .failed => .failed

namespace V2Database

variable (db : V2Database)

/-! ### Lookups -/

def versionOf? (job : CalculationJob) : Option DatasetVersion :=
  db.datasetVersions.find? fun v => v.id = job.outputDatasetVersionId

def seriesOf? (version : DatasetVersion) : Option DatasetSeriesRow :=
  db.datasetSeries.find? fun s => s.id = version.datasetSeriesId

def typeOf? (job : CalculationJob) : Option CalculationTypeRow :=
  db.calculationTypes.find? fun t => t.id = job.calculationTypeId

def jobsOf (version : DatasetVersion) : List CalculationJob :=
  db.calculationJobs.filter fun j => j.outputDatasetVersionId = version.id

def domainOf? (job : CalculationJob) : Option String := do
  let version ← db.versionOf? job
  let series ← db.seriesOf? version
  return series.identity.domain

/-! ### The preflight of `down` -/

/-- A bridge that no longer has the values the migration gave it, or that no job needs. -/
def isModified (type : CalculationTypeRow) : Bool :=
  type.code ≠ "LEGACY_DEFAULT" || type.isActive
    || type.lastAllocatedDependencyDefinitionVersion ≠ 0
    || type.airflowDagId ≠ legacyDagId type.domain
    || !(db.calculationJobs.any fun j =>
      j.calculationTypeId = type.id && db.domainOf? j = some type.domain)

/-- The type of a job is not the compatibility type of its domain. -/
def hasOtherType (job : CalculationJob) : Bool :=
  (db.typeOf? job).any fun type => (db.domainOf? job).any fun domain =>
    type.code ≠ "LEGACY_DEFAULT" || type.isActive || type.domain ≠ domain

def hasV2Timestamps (version : DatasetVersion) : Bool :=
  version.buildingStartedAt.isSome || version.validatingAt.isSome || version.rejectedAt.isSome
    || version.abandonedAt.isSome

def identityDiffers (series : DatasetSeriesRow) : Bool :=
  series.legacyBusinessKey.any fun key =>
    series.identity.companyCode ≠ splitPart key 1
      || series.identity.fiscalYear ≠ integer (splitPart key 2)
      || toString series.identity.period ≠ splitPart key 3

def lagsBehind (series : DatasetSeriesRow) : Bool :=
  (db.datasetVersions.filter fun v => v.datasetSeriesId = series.id).any fun v =>
    series.lastAllocatedVersion < v.version

/-- A validation or rejection without its one completed job. -/
def lacksCompletedJob (version : DatasetVersion) : Bool :=
  (version.status = .validating || version.status = .rejected)
    && ((db.jobsOf version).length ≠ 1
      || (db.jobsOf version).any fun j => j.status ≠ .succeeded)

/-- The series in which a job will be active again. -/
def activeSeries? (job : CalculationJob) : Option Uuid := do
  let version ← db.versionOf? job
  if job.status = .pending ∨ job.status = .running
    ∨ (version.status = .validating ∧ job.status = .succeeded) then some version.datasetSeriesId
  else none

def downPreflight : List (Bool × SchemaError) := [
  (repeats (·.outputDatasetVersionId) db.calculationJobs, .raised (
    "Cannot roll back orchestration-schema-v2: one or more dataset versions have " ++
    "multiple calculation jobs")),
  (!db.executionAttempts.isEmpty, .raised (
    "Cannot roll back orchestration-schema-v2: execution attempt history is not " ++
    "representable in the legacy schema")),
  (!db.buildSnapshots.isEmpty, .raised (
    "Cannot roll back orchestration-schema-v2: dataset build snapshots are not " ++
    "representable in the legacy schema")),
  (!db.dependencyDefinitions.isEmpty, .raised (
    "Cannot roll back orchestration-schema-v2: dependency definition history is not " ++
    "representable in the legacy schema")),
  (db.calculationTypes.any fun t => t.id ∉ db.bridges, .raised (
    "Cannot roll back orchestration-schema-v2: calculation type configuration is not " ++
    "representable in the legacy schema")),
  (db.bridges.any fun id => (db.calculationTypes.find? fun t => t.id = id).any db.isModified,
    .raised (
    "Cannot roll back orchestration-schema-v2: a generated legacy calculation type " ++
    "bridge was modified")),
  (db.calculationJobs.any db.hasOtherType, .raised (
    "Cannot roll back orchestration-schema-v2: calculation job type identity is not " ++
    "representable in the legacy schema")),
  (db.datasetVersions.any fun v => v.status = .abandoned, .raised (
    "Cannot roll back orchestration-schema-v2: dataset status ABANDONED has no " ++
    "semantics-preserving legacy status")),
  (db.datasetVersions.any hasV2Timestamps, .raised (
    "Cannot roll back orchestration-schema-v2: v2 dataset lifecycle timestamps are not " ++
    "representable in the legacy schema")),
  (db.datasetSeries.any fun s => s.legacyBusinessKey.isNone, .raised (
    "Cannot roll back orchestration-schema-v2: canonical-only dataset series have no " ++
    "legacy business_key bridge")),
  (db.datasetSeries.any fun s => s.legacyBusinessKey.any isMalformedKey, .raised (
    "Cannot roll back orchestration-schema-v2: a legacy business_key bridge is malformed")),
  (db.datasetSeries.any identityDiffers, .raised (
    "Cannot roll back orchestration-schema-v2: canonical identity no longer matches its " ++
    "legacy business_key bridge")),
  (db.datasetSeries.any db.lagsBehind, .raised (
    "Cannot roll back orchestration-schema-v2: last_allocated_version is below an " ++
    "existing dataset version")),
  (repeats (fun s => (s.identity.domain, s.legacyBusinessKey)) db.datasetSeries, .raised (
    "Cannot roll back orchestration-schema-v2: duplicate legacy business_key bridges are " ++
    "not representable")),
  (db.datasetVersions.any db.lacksCompletedJob, .raised (
    "Cannot roll back orchestration-schema-v2: validation/rejection job state is not " ++
    "representable in the legacy schema")),
  (repeats id (db.calculationJobs.filterMap db.activeSeries?), .raised (
    "Cannot roll back orchestration-schema-v2: legacy active-job uniqueness cannot be " ++
    "restored"))]

/-! ### The statements of `down` -/

/-- The paired status that a completed job of such a version had. -/
def restoredStatus : DatasetVersionStatus → CalculationJobStatus → LegacyJobStatus
  | .validating, .succeeded => .validating
  | .rejected, .succeeded => .rejected
  | _, status => status.legacy

def downJob (job : CalculationJob) : Except SchemaError LegacyJob := do
  let version ← present (.notNullViolation "dataset_series_id") (db.versionOf? job)
  return {
    id := job.id, datasetSeriesId := version.datasetSeriesId
    outputDatasetVersionId := job.outputDatasetVersionId
    status := restoredStatus version.status job.status
    createdAt := job.createdAt, startedAt := job.startedAt, finishedAt := job.finishedAt }

def downVersion (v : DatasetVersion) : Except SchemaError LegacyVersion := do
  let status ← present (.checkViolation "dataset_versions_status_check") v.status.legacy?
  return {
    id := v.id, datasetSeriesId := v.datasetSeriesId, version := v.version, status
    createdAt := v.createdAt, publishedAt := v.publishedAt }

def downSeries (s : DatasetSeriesRow) : Except SchemaError LegacySeries := do
  let businessKey ← present (.notNullViolation "legacy_business_key") s.legacyBusinessKey
  return { id := s.id, domain := s.identity.domain, businessKey
           lastVersion := s.lastAllocatedVersion }

def down : Except SchemaError LegacyDatabase := do
  raiseFirst db.downPreflight
  let calculationJobs ← rewrite db.downJob db.calculationJobs
  require (.uniqueViolation "uq_calculation_jobs_output_dataset_version")
    (calculationJobs.map (·.outputDatasetVersionId)).Nodup
  require (.uniqueViolation "uq_calculation_jobs_active_series")
    ((calculationJobs.filter (·.status.isActive)).map (·.datasetSeriesId)).Nodup
  let datasetVersions ← rewrite downVersion db.datasetVersions
  let datasetSeries ← rewrite downSeries db.datasetSeries
  return { datasetSeries, datasetVersions, calculationJobs, calculationDependencies := [] }

end V2Database

/-! ## In a transaction -/

/-- A database at one of the two schemas. -/
inductive Database where
  | legacy (db : LegacyDatabase)
  | v2 (db : V2Database)
  deriving DecidableEq

/-- The migration runner rolls its transaction back when `down` raises an error. -/
def V2Database.migrateDown (db : V2Database) : Option SchemaError × Database :=
  match db.down with
  | .ok legacy => (none, .legacy legacy)
  | .error error => (some error, .v2 db)

end CostEngine
