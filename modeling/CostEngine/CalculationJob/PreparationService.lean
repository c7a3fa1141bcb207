import CostEngine.CalculationJob.PreparationRepository

/-! # `calculation-job-preparation.service.ts`

First Run: freeze the build of a `DRAFT` version, or reuse the frozen build of a
`BUILDING` one, and prepare an execution attempt for the selected job. -/

namespace CostEngine

open Concurrency (Txn)

/-- The response of the prepare route. -/
structure PreparedCalculationRun where
  datasetVersionId : Uuid
  datasetStatus : DatasetVersionStatus
  datasetBuildSnapshotId : Uuid
  jobId : Uuid
  jobStatus : CalculationJobStatus
  executionAttemptId : Uuid
  attemptNumber : Nat
  attemptStatus : ExecutionAttemptStatus
  airflowDagId : String
  airflowDagRunId : String

/-- The run id of an attempt: `cost-engine-${executionAttemptId}`. -/
def airflowDagRunIdOf (executionAttemptId : Uuid) : String :=
  "cost-engine-" ++ executionAttemptId

/-! ## Checks -/

/-- The first violation, in the order of the source. -/
def validateImmutableContext (context : CalculationRunContext) : Option ServiceError :=
  if context.jobs = [] then
    some (.calculationStateInvariant
      s!"Dataset version {context.datasetVersionId} contains no calculation jobs")
  else if !context.jobs.any fun job => job.id = context.selectedJobId then
    some (.calculationStateInvariant
      (s!"Selected job {context.selectedJobId} is not part of dataset version "
        ++ context.datasetVersionId))
  else
    (context.jobs.find? fun job =>
      job.calculationTypeDomain ≠ context.outputIdentity.domain).map fun job =>
        .calculationStateInvariant
          s!"Calculation job {job.id} uses a calculation type from another domain"

/-- A version in `BUILDING` has one snapshot and all its jobs resolved, or its state is
inconsistent. -/
def requireBuildingSnapshot (context : CalculationRunContext) : Tx Uuid := do
  let state ← readDatasetFreezeState context.datasetVersionId
  match state.snapshotIds with
  | [snapshotId] =>
      if state.jobCount ≠ context.jobs.length
          ∨ state.jobCount = 0
          ∨ state.resolvedJobCount ≠ state.jobCount then
        invariant (s!"BUILDING dataset version {context.datasetVersionId} has an "
          ++ "inconsistent frozen build contract")
      else pure snapshotId
  | _ => invariant (s!"BUILDING dataset version {context.datasetVersionId} has an "
      ++ "inconsistent frozen build contract")

/-! ## Freezing a draft -/

/-- The loop over `context.jobs` in `freezeDraftBuild`. -/
def freezeDefinitions (datasetVersionId : Uuid) (definitions : List DependencyDefinition) :
    List DatasetCalculationJobContext → Tx Unit
  | [] => pure ()
  | job :: jobs => do
      match definitions.find? fun d => d.calculationTypeId = job.calculationTypeId with
      | none => invariant s!"Resolved definition disappeared for calculation job {job.id}"
      | some definition => do
          let updated ← persistResolvedDependencyDefinition
            datasetVersionId job.id job.calculationTypeId definition.id
          if updated then freezeDefinitions datasetVersionId definitions jobs
          else invariant s!"Could not freeze dependency definition for calculation job {job.id}"

/-- The loop over `upstreamSeries` in `freezeDraftBuild`. -/
def freezeUpstreams (snapshotId : Uuid) (versions : List PublishedUpstreamVersion) :
    List DatasetSeries → Tx Unit
  | [] => pure ()
  | series :: rest => do
      match versions.find? fun v => v.datasetSeriesId = series.id with
      | none =>
          invariant s!"Resolved upstream version disappeared for dataset series {series.id}"
      | some version => do
          insertDatasetBuildSnapshotDependency snapshotId series.id version.datasetVersionId
          freezeUpstreams snapshotId versions rest

/-- The writes of a First Run: definitions, snapshot, upstream rows, and last the version's
status. -/
def freezeDraftBuild (env : TxEnv) (context : CalculationRunContext)
    (definitions : List DependencyDefinition) (upstreamSeries : List DatasetSeries)
    (upstreamVersions : List PublishedUpstreamVersion) : Tx Uuid := do
  let state ← readDatasetFreezeState context.datasetVersionId
  if state.snapshotIds ≠ []
      ∨ state.jobCount ≠ context.jobs.length
      ∨ state.jobCount = 0
      ∨ state.resolvedJobCount ≠ 0 then
    invariant (s!"DRAFT dataset version {context.datasetVersionId} already contains "
      ++ "frozen build state")
  else do
    freezeDefinitions context.datasetVersionId definitions context.jobs
    let snapshotId := env.uuid 0
    insertDatasetBuildSnapshot env snapshotId context.datasetVersionId
    freezeUpstreams snapshotId upstreamVersions upstreamSeries
    let transitioned ← transitionDatasetVersionToBuilding env context.datasetVersionId
    if transitioned then pure snapshotId
    else
      invariant s!"Could not transition dataset version {context.datasetVersionId} to BUILDING"

/-! ## Locks and reads -/

/-- The loop over `context.jobs` at the head of `initializeOrReuseDraftDataset`. -/
def lockCalculationTypes (datasetVersionId : Uuid) :
    List DatasetCalculationJobContext → Tx Unit
  | [] => pure ()
  | job :: jobs => do
      match ← lockCalculationType job.calculationTypeId with
      | none =>
          invariant s!"Calculation type changed while preparing dataset {datasetVersionId}"
      | some lockedType =>
          if lockedType.domain ≠ job.calculationTypeDomain
              ∨ lockedType.code ≠ job.calculationTypeCode then
            invariant s!"Calculation type changed while preparing dataset {datasetVersionId}"
          else lockCalculationTypes datasetVersionId jobs

/-- The loop over `upstreamRequirements`: the series found, and the domains of those that
are missing. -/
def lockUpstreams : List SeriesIdentity → Tx (List DatasetSeries × List String)
  | [] => pure ([], [])
  | requirement :: rest => do
      let series ← lockUpstreamDatasetSeries requirement
      let (found, missing) ← lockUpstreams rest
      match series with
      | some row => pure (row :: found, missing)
      | none => pure (found, requirement.domain :: missing)

/-- The loop over `upstreamSeries`: the published versions found, and the domains of the
series that have none. -/
def findUpstreamVersions : List DatasetSeries →
    Tx (List PublishedUpstreamVersion × List String)
  | [] => pure ([], [])
  | series :: rest => do
      let version ← findLatestPublishedUpstreamVersion series.id
      let (found, missing) ← findUpstreamVersions rest
      match version with
      | some v => pure (v :: found, missing)
      | none => pure (found, series.identity.domain :: missing)

/-! ## The version -/

/-- Locks in the order types, upstream series, version. A version that another Run froze in the
meantime is reused. -/
def initializeOrReuseDraftDataset (env : TxEnv) (context : CalculationRunContext) :
    Tx Uuid := do
  lockCalculationTypes context.datasetVersionId context.jobs
  let definitions ← findLatestPublishedDependencyDefinitions
    (context.jobs.map (·.calculationTypeId))
  let missingDefinitionCodes := (context.jobs.filter fun job =>
      !definitions.any fun d => d.calculationTypeId = job.calculationTypeId).map
    fun job => s!"{job.calculationTypeDomain}/{job.calculationTypeCode}"
  if missingDefinitionCodes ≠ [] then
    Tx.throw (.dependencyDefinitionNotReady missingDefinitionCodes)
  else do
  let requiredDomains ← findRequiredDomains (definitions.map (·.id))
  let (upstreamSeries, missingSeriesDomains) ← lockUpstreams (requiredDomains.map
    fun domain => { context.outputIdentity with domain })
  if missingSeriesDomains ≠ [] then
    Tx.throw (.dependencyNotReady missingSeriesDomains)
  else do
  let (upstreamVersions, missingVersionDomains) ← findUpstreamVersions upstreamSeries
  if missingVersionDomains ≠ [] then
    Tx.throw (.dependencyNotReady missingVersionDomains)
  else do
  match ← lockOutputDatasetVersion context.datasetVersionId with
  | none => invariant s!"Output dataset version {context.datasetVersionId} disappeared"
  | some lockedDataset =>
      if lockedDataset.status = .draft then
        freezeDraftBuild env context definitions upstreamSeries upstreamVersions
      else if lockedDataset.status = .building then
        requireBuildingSnapshot context
      else Tx.throw (.jobNotRunnable context.selectedJobId)

/-- No other Run freezes a version in `BUILDING`, so its own lock is enough. -/
def reuseBuildingDataset (context : CalculationRunContext) : Tx Uuid := do
  match ← lockOutputDatasetVersion context.datasetVersionId with
  | none => invariant s!"Output dataset version {context.datasetVersionId} disappeared"
  | some lockedDataset =>
      if lockedDataset.status ≠ .building then
        Tx.throw (.jobNotRunnable context.selectedJobId)
      else requireBuildingSnapshot context

/-! ## The attempt -/

/-- An active attempt of the job is returned as it is, else a new one is allocated. -/
def prepareSelectedJobAttempt (env : TxEnv) (context : CalculationRunContext)
    (snapshotId : Uuid) : Tx PreparedCalculationRun := do
  match ← lockSelectedCalculationJob context.selectedJobId with
  | none => invariant s!"Selected calculation job {context.selectedJobId} disappeared"
  | some job =>
      if job.outputDatasetVersionId ≠ context.datasetVersionId then
        invariant s!"Selected calculation job {context.selectedJobId} disappeared"
      else if job.status ≠ .pending then
        Tx.throw (.jobNotRunnable context.selectedJobId)
      else do
      match ← findActiveExecutionAttempt job.id with
      | some activeAttempt =>
          if activeAttempt.status ≠ .prepared then Tx.throw (.jobNotRunnable job.id)
          else pure {
            datasetVersionId := context.datasetVersionId
            datasetStatus := .building
            datasetBuildSnapshotId := snapshotId
            jobId := job.id
            jobStatus := .pending
            executionAttemptId := activeAttempt.id
            attemptNumber := activeAttempt.attemptNumber
            attemptStatus := .prepared
            airflowDagId := activeAttempt.airflowDagId
            airflowDagRunId := activeAttempt.airflowDagRunId }
      | none => do
          let attemptNumber ← allocateNextAttemptNumber job.id
          let executionAttemptId := env.uuid 1
          let airflowDagRunId := airflowDagRunIdOf executionAttemptId
          insertPreparedExecutionAttempt env executionAttemptId job.id attemptNumber
            job.airflowDagId airflowDagRunId
          pure {
            datasetVersionId := context.datasetVersionId
            datasetStatus := .building
            datasetBuildSnapshotId := snapshotId
            jobId := job.id
            jobStatus := .pending
            executionAttemptId
            attemptNumber
            attemptStatus := .prepared
            airflowDagId := job.airflowDagId
            airflowDagRunId }

/-! ## The transaction -/

/-- The transaction of `prepareCalculationJobRunService`. -/
def prepareCalculationJobRun (jobId : Uuid) (env : TxEnv) : Tx PreparedCalculationRun := do
  match ← loadCalculationRunContext jobId with
  | none => Tx.throw (.calculationJobNotFound jobId)
  | some context =>
      match validateImmutableContext context with
      | some e => Tx.throw e
      | none =>
          if context.datasetStatus = .draft then do
            let snapshotId ← initializeOrReuseDraftDataset env context
            prepareSelectedJobAttempt env context snapshotId
          else if context.datasetStatus = .building then do
            let snapshotId ← reuseBuildingDataset context
            prepareSelectedJobAttempt env context snapshotId
          else Tx.throw (.jobNotRunnable jobId)

end CostEngine
