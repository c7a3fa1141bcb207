import CostEngine.DatasetVersion.LifecycleRepository

/-! # `dataset-version-lifecycle.service.ts`: the transactions

Submit for validation, publish or reject, and abandon. The last three know the owning
series from a read before `BEGIN`. -/

namespace CostEngine

/-- `invariant(datasetVersionId, message)` of the lifecycle service. -/
def lifecycleInvariant {α : Type} (datasetVersionId : Uuid) (message : String) : Tx α :=
  Tx.throw (.datasetStateInvariant s!"datasetVersionId={datasetVersionId}: {message}")

/-- The version is locked and its status checked, so the update has a row, or the state is
inconsistent. -/
def applyTransition (env : TxEnv) (dataset : LockedLifecycleDataset)
    (target : LifecycleTarget) : Tx LockedLifecycleDataset := do
  let transitioned ← transitionLifecycleDataset env dataset.datasetVersionId target
  if transitioned then pure { dataset with datasetStatus := target.status }
  else
    lifecycleInvariant dataset.datasetVersionId
      s!"Locked lifecycle transition to {target.status} failed"

/-- `BUILDING` to `VALIDATING`, once every job has succeeded and none has an active attempt.
The series is not locked here. -/
def submitDatasetValidation (datasetVersionId : Uuid) (env : TxEnv) :
    Tx LockedLifecycleDataset := do
  match ← lockLifecycleDataset datasetVersionId with
  | none => Tx.throw (.datasetVersionNotFound datasetVersionId)
  | some dataset =>
  if dataset.datasetStatus = .validating then pure dataset
  else if dataset.datasetStatus = .draft then Tx.throw .datasetNotReadyForValidation
  else if dataset.datasetStatus ≠ .building then Tx.throw .datasetStateConflict
  else do
  let jobs ← lockLifecycleJobs datasetVersionId
  if jobs.isEmpty then lifecycleInvariant datasetVersionId "Dataset has no calculation jobs"
  else do
  let attempts ← lockLifecycleAttempts datasetVersionId
  let succeededJobs := (jobs.filter (·.status = .succeeded)).map (·.id)
  match attempts.find? fun attempt =>
      attempt.calculationJobId ∈ succeededJobs ∧ attempt.status.isActive = true with
  | some attempt =>
      lifecycleInvariant datasetVersionId
        s!"SUCCEEDED job {attempt.calculationJobId} has active attempt {attempt.id}"
  | none =>
  if jobs.any (·.status ≠ .succeeded) then Tx.throw .datasetNotReadyForValidation
  else applyTransition env dataset .validating

/-- The series was read before `BEGIN`, and is compared with that of the locked version. -/
def lockTerminalDecisionDataset (datasetVersionId seriesId : Uuid) :
    Tx LockedLifecycleDataset := do
  let locked ← lockLifecycleSeries seriesId
  if locked = false then
    lifecycleInvariant datasetVersionId s!"Owning series {seriesId} disappeared"
  else do
  match ← lockLifecycleDataset datasetVersionId with
  | none =>
      lifecycleInvariant datasetVersionId
        s!"Dataset disappeared or changed owning series {seriesId}"
  | some dataset =>
      if dataset.datasetSeriesId ≠ seriesId then
        lifecycleInvariant datasetVersionId
          s!"Dataset disappeared or changed owning series {seriesId}"
      else pure dataset

/-- `target: 'PUBLISHED' | 'REJECTED'`. -/
inductive TerminalDecision where
  | published | rejected
  deriving DecidableEq

def TerminalDecision.target : TerminalDecision → LifecycleTarget
  | published => .published
  | rejected => .rejected

/-- `VALIDATING` to `PUBLISHED` or `REJECTED`. The same decision again is no error. -/
def decideValidatedDataset (datasetVersionId seriesId : Uuid) (decision : TerminalDecision)
    (env : TxEnv) : Tx LockedLifecycleDataset := do
  let dataset ← lockTerminalDecisionDataset datasetVersionId seriesId
  if dataset.datasetStatus = decision.target.status then pure dataset
  else if dataset.datasetStatus ≠ .validating then Tx.throw .datasetStateConflict
  else applyTransition env dataset decision.target

/-- `DRAFT` or `BUILDING` to `ABANDONED`, if no attempt of the version is active. -/
def abandonDatasetVersion (datasetVersionId seriesId : Uuid) (env : TxEnv) :
    Tx LockedLifecycleDataset := do
  let dataset ← lockTerminalDecisionDataset datasetVersionId seriesId
  if dataset.datasetStatus = .abandoned then pure dataset
  else if dataset.datasetStatus ≠ .draft ∧ dataset.datasetStatus ≠ .building then
    Tx.throw .datasetStateConflict
  else do
  let jobs ← lockLifecycleJobs datasetVersionId
  if jobs.isEmpty then lifecycleInvariant datasetVersionId "Dataset has no calculation jobs"
  else do
  let attempts ← lockLifecycleAttempts datasetVersionId
  match jobs.find? fun job => job.status = .running
      ∧ ¬ attempts.any fun attempt =>
        attempt.calculationJobId = job.id ∧ attempt.status = .accepted with
  | some job =>
      lifecycleInvariant datasetVersionId
        s!"RUNNING job {job.id} has no active ACCEPTED attempt"
  | none =>
  if attempts.any (·.status.isActive) then Tx.throw .datasetHasActiveExecution
  else applyTransition env dataset .abandoned

end CostEngine
