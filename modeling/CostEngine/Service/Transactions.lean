import CostEngine.CalculationJob.ReconciliationService
import CostEngine.CalculationJob.RunService
import CostEngine.DatasetVersion.LifecycleService
import CostEngine.DatasetVersion.Service

/-! # The transactions of the services, by name -/

namespace CostEngine

/-- One constructor for each call of `withTransaction`. -/
inductive Transaction where
  | createDatasetVersion (input : SeriesIdentity)
  | prepareCalculationJobRun (jobId : Uuid)
  | prepareFailedCalculationJobRetry (state : CalculationJobRunRoutingState)
  | beginDispatch (durableAttempt : DurableRunAttempt)
  | recordDispatchOutcome (command : DispatchCalculationCommand) (outcome : DispatchResult)
  | applyReconciliation (phaseAContext : ReconciliationAttemptContext)
      (executorStatus : ReconciliationExecutorStatus)
  | submitDatasetValidation (datasetVersionId : Uuid)
  | decideValidatedDataset (datasetVersionId seriesId : Uuid) (decision : TerminalDecision)
  | abandonDatasetVersion (datasetVersionId seriesId : Uuid)

namespace Transaction

/-- What a transaction returns to its service. -/
abbrev Result : Transaction → Type
  | createDatasetVersion _ => CreateDatasetVersionResult
  | prepareCalculationJobRun _ => PreparedCalculationRun
  | prepareFailedCalculationJobRetry _ => DurableRunAttempt
  | beginDispatch _ => BeginDispatchResult
  | recordDispatchOutcome _ _ => RecordOutcomeResult
  | applyReconciliation _ _ => CalculationJobReconciliationResult
  | submitDatasetValidation _ => LockedLifecycleDataset
  | decideValidatedDataset _ _ _ => LockedLifecycleDataset
  | abandonDatasetVersion _ _ => LockedLifecycleDataset

/-- The function that `withTransaction` gets. -/
def body : (t : Transaction) → TxEnv → Tx t.Result
  | createDatasetVersion input => CostEngine.createDatasetVersion input
  | prepareCalculationJobRun jobId => CostEngine.prepareCalculationJobRun jobId
  | prepareFailedCalculationJobRetry state =>
      CostEngine.prepareFailedCalculationJobRetry state
  | beginDispatch durableAttempt => CostEngine.beginDispatch durableAttempt
  | recordDispatchOutcome command outcome =>
      CostEngine.recordDispatchOutcome command outcome
  | applyReconciliation phaseAContext executorStatus =>
      CostEngine.applyReconciliation phaseAContext executorStatus
  | submitDatasetValidation datasetVersionId =>
      CostEngine.submitDatasetValidation datasetVersionId
  | decideValidatedDataset datasetVersionId seriesId decision =>
      CostEngine.decideValidatedDataset datasetVersionId seriesId decision
  | abandonDatasetVersion datasetVersionId seriesId =>
      CostEngine.abandonDatasetVersion datasetVersionId seriesId

end Transaction

end CostEngine
