import CostEngine.DatasetVersion.Repository

/-! # `dataset-version.service.ts`: the transaction

The `catch` around it, which turns a violated active-version index into an
`ActiveDatasetVersionExistsError`, is in the handler. -/

namespace CostEngine

/-- The response of the create route. -/
structure CreateDatasetVersionResult where
  datasetSeriesId : Uuid
  datasetVersionId : Uuid
  version : Nat
  datasetStatus : DatasetVersionStatus
  calculationJobs : List CreatedCalculationJob

/-- The lock of the series covers the check for an active version, the number and the inserts.
A number is given back by the rollback when the domain has no type. -/
def createDatasetVersion (input : SeriesIdentity) (env : TxEnv) :
    Tx CreateDatasetVersionResult := do
  let series ← findOrCreateAndLockDatasetSeries input (env.uuid 0)
  match ← findActiveDatasetVersion series.id with
  | some _ => Tx.throw .activeDatasetVersionExists
  | none => do
  let version ← allocateNextDatasetVersion series.id
  let datasetVersionId := env.uuid 1
  insertDraftDatasetVersion env datasetVersionId series.id version
  let calculationTypes ← findActiveCalculationTypes input.domain
  if calculationTypes = [] then Tx.throw .calculationTypeNotConfigured
  else do
  let calculationJobs ← insertPendingCalculationJobs env datasetVersionId
    (calculationTypes.mapIdx fun i calculationType =>
      { id := env.uuid (2 + i)
        calculationTypeId := calculationType.id
        calculationTypeCode := calculationType.code })
  pure {
    datasetSeriesId := series.id
    datasetVersionId
    version
    datasetStatus := .draft
    calculationJobs }

end CostEngine
