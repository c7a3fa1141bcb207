import CostEngine.Demo.Cleanup
import CostEngine.Relational.Restrict

/-! # `deleteOwnedDemoData` over the graph of foreign keys

The tables that the foreign keys of the deleted rows lead to or come from, with the columns of
these keys. All of them are `RESTRICT`. -/

namespace CostEngine

open Relational (Table restricts)

/-! ## Rows -/

/-- `assets`. -/
structure Asset where
  assetId : Nat
  assetType : String
  deriving DecidableEq

/-- `dpr_calculation_input_snapshots`. -/
structure DprInputSnapshot where
  calculationJobId : Uuid
  status : String
  fab : String
  deriving DecidableEq

/-- `dpr_calculation_inputs`. The amount is in hundredths. -/
structure DprInput where
  inputSnapshotId : Uuid
  fab : String
  assetId : Nat
  amount : Int
  deriving DecidableEq

/-- `dpr_results`. -/
structure DprResult where
  datasetVersionId : Uuid
  fab : String
  assetType : String
  totalAmount : Int
  deriving DecidableEq

structure CleanupDatabase where
  store : Store
  assets : Table Asset Nat (·.assetId)
  dprInputSnapshots : Table DprInputSnapshot Uuid (·.calculationJobId)
  dprInputs : List DprInput
  dprResults : List DprResult

/-- A row of any table. -/
inductive CleanupRow where
  | calculationType (row : CalculationType)
  | dependencyDefinition (row : DependencyDefinition)
  | definitionDependency (row : DefinitionDependency)
  | series (row : DatasetSeries)
  | version (row : DatasetVersion)
  | job (row : CalculationJob)
  | snapshot (row : DatasetBuildSnapshot)
  | dependency (row : SnapshotDependency)
  | attempt (row : ExecutionAttempt)
  | asset (row : Asset)
  | dprInputSnapshot (row : DprInputSnapshot)
  | dprInput (row : DprInput)
  | dprResult (row : DprResult)
  deriving DecidableEq

/-- The foreign keys. -/
def CleanupRow.refers : CleanupRow → CleanupRow → Bool
  | .dependencyDefinition row, .calculationType parent => row.calculationTypeId = parent.id
  | .definitionDependency row, .dependencyDefinition parent => row.definitionVersionId = parent.id
  | .version row, .series parent => row.datasetSeriesId = parent.id
  | .job row, .version parent => row.outputDatasetVersionId = parent.id
  | .job row, .calculationType parent => row.calculationTypeId = parent.id
  | .job row, .dependencyDefinition parent => row.calculationTypeId = parent.calculationTypeId
      ∧ row.resolvedDependencyDefinitionVersionId = some parent.id
  | .snapshot row, .version parent => row.datasetVersionId = parent.id
  | .dependency row, .snapshot parent => row.snapshotId = parent.id
  | .dependency row, .version parent => row.upstreamDatasetSeriesId = parent.datasetSeriesId
      ∧ row.upstreamDatasetVersionId = parent.id
  | .attempt row, .job parent => row.calculationJobId = parent.id
  | .dprInputSnapshot row, .job parent => row.calculationJobId = parent.id
  | .dprInput row, .dprInputSnapshot parent => row.inputSnapshotId = parent.calculationJobId
  | .dprInput row, .asset parent => row.assetId = parent.assetId
  | .dprResult row, .version parent => row.datasetVersionId = parent.id
  | _, _ => false

namespace CleanupDatabase

variable (db : CleanupDatabase)

def rows : List CleanupRow :=
  db.store.calculationTypes.rows.map .calculationType
    ++ db.store.dependencyDefinitions.rows.map .dependencyDefinition
    ++ db.store.definitionDependencies.rows.map .definitionDependency
    ++ db.store.datasetSeries.rows.map .series
    ++ db.store.datasetVersions.rows.map .version
    ++ db.store.calculationJobs.rows.map .job
    ++ db.store.datasetBuildSnapshots.rows.map .snapshot
    ++ db.store.snapshotDependencies.rows.map .dependency
    ++ db.store.executionAttempts.rows.map .attempt
    ++ db.assets.rows.map .asset
    ++ db.dprInputSnapshots.rows.map .dprInputSnapshot
    ++ db.dprInputs.map .dprInput
    ++ db.dprResults.map .dprResult

/-- Without the rows that satisfy `p`. -/
def delete (p : CleanupRow → Bool) : CleanupDatabase where
  store :=
    { calculationTypes := db.store.calculationTypes.delete fun row => p (.calculationType row)
      dependencyDefinitions := db.store.dependencyDefinitions.delete
        fun row => p (.dependencyDefinition row)
      definitionDependencies := db.store.definitionDependencies.delete
        fun row => p (.definitionDependency row)
      datasetSeries := db.store.datasetSeries.delete fun row => p (.series row)
      datasetVersions := db.store.datasetVersions.delete fun row => p (.version row)
      calculationJobs := db.store.calculationJobs.delete fun row => p (.job row)
      datasetBuildSnapshots := db.store.datasetBuildSnapshots.delete fun row => p (.snapshot row)
      snapshotDependencies := db.store.snapshotDependencies.delete fun row => p (.dependency row)
      executionAttempts := db.store.executionAttempts.delete fun row => p (.attempt row) }
  assets := db.assets.delete fun row => p (.asset row)
  dprInputSnapshots := db.dprInputSnapshots.delete fun row => p (.dprInputSnapshot row)
  dprInputs := db.dprInputs.filter fun row => !p (.dprInput row)
  dprResults := db.dprResults.filter fun row => !p (.dprResult row)

/-- Every foreign key has its row. -/
structure ForeignKeys : Prop where
  definitionType : ∀ d ∈ db.store.dependencyDefinitions.rows,
    (db.store.calculationTypes.get? d.calculationTypeId).isSome
  dependencyDefinition : ∀ d ∈ db.store.definitionDependencies.rows,
    (db.store.dependencyDefinitions.get? d.definitionVersionId).isSome
  versionSeries : ∀ v ∈ db.store.datasetVersions.rows,
    (db.store.datasetSeries.get? v.datasetSeriesId).isSome
  jobVersion : ∀ j ∈ db.store.calculationJobs.rows,
    (db.store.datasetVersions.get? j.outputDatasetVersionId).isSome
  jobType : ∀ j ∈ db.store.calculationJobs.rows,
    (db.store.calculationTypes.get? j.calculationTypeId).isSome
  jobDefinition : ∀ j ∈ db.store.calculationJobs.rows,
    j.resolvedDependencyDefinitionVersionId.all fun id =>
      (db.store.dependencyDefinitions.get? id).any (·.calculationTypeId = j.calculationTypeId)
  snapshotVersion : ∀ b ∈ db.store.datasetBuildSnapshots.rows,
    (db.store.datasetVersions.get? b.datasetVersionId).isSome
  dependencySnapshot : ∀ d ∈ db.store.snapshotDependencies.rows,
    (db.store.datasetBuildSnapshots.get? d.snapshotId).isSome
  dependencyUpstream : ∀ d ∈ db.store.snapshotDependencies.rows,
    (db.store.datasetVersions.get? d.upstreamDatasetVersionId).any
      (·.datasetSeriesId = d.upstreamDatasetSeriesId)
  attemptJob : ∀ a ∈ db.store.executionAttempts.rows,
    (db.store.calculationJobs.get? a.calculationJobId).isSome
  inputSnapshotJob : ∀ i ∈ db.dprInputSnapshots.rows,
    (db.store.calculationJobs.get? i.calculationJobId).isSome
  inputSnapshot : ∀ i ∈ db.dprInputs, (db.dprInputSnapshots.get? i.inputSnapshotId).isSome
  inputAsset : ∀ i ∈ db.dprInputs, (db.assets.get? i.assetId).isSome
  resultVersion : ∀ r ∈ db.dprResults, (db.store.datasetVersions.get? r.datasetVersionId).isSome

end CleanupDatabase

/-! ## Statements -/

inductive CleanupError where
  /-- `DemoCleanupIntegrityError`. -/
  | integrity (message : String)
  /-- `23503`. -/
  | foreignKeyViolation
  deriving DecidableEq

/-- The rows as a statement that fails leaves them are those of the statements before. -/
abbrev CleanupM := ExceptT CleanupError (StateM CleanupDatabase)

/-- `DELETE FROM … WHERE …`. The rows of `p` are of one table. -/
def deleteFrom (p : CleanupRow → Bool) : CleanupM Unit := do
  let db ← get
  if restricts CleanupRow.refers db.rows p then throw .foreignKeyViolation
  else set (db.delete p)

/-- The nine deletions in their order, with the ids that the selections have found. -/
def cleanupStatements (series versions jobs snapshots : List Uuid) : List (CleanupRow → Bool) :=
  [ fun | .dependency row => row.snapshotId ∈ snapshots | _ => false,
    fun | .dprInput row => row.inputSnapshotId ∈ jobs | _ => false,
    fun | .dprInputSnapshot row => row.calculationJobId ∈ jobs | _ => false,
    fun | .dprResult row => row.datasetVersionId ∈ versions | _ => false,
    fun | .attempt row => row.calculationJobId ∈ jobs | _ => false,
    fun | .snapshot row => row.datasetVersionId ∈ versions | _ => false,
    fun | .job row => row.id ∈ jobs | _ => false,
    fun | .version row => row.id ∈ versions | _ => false,
    fun | .series row => row.id ∈ series | _ => false ]

/-- The subselection of the first deletion sees the same rows as the statements before it. The
session is not used. -/
def deleteOwnedDemoData (company _sessionId : String) : CleanupM Unit := do
  if (← get).store.foreignReference company then
    throw (.integrity "Foreign snapshot references demo ownership graph")
  else do
    let series := (← get).store.seriesIds company
    let versions := (← get).store.versionIds series
    let jobs := (← get).store.jobIds versions
    let snapshots := (← get).store.buildSnapshotIds versions
    (cleanupStatements series versions jobs snapshots).forM deleteFrom

end CostEngine
