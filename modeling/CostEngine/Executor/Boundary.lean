import CostEngine.Store.Schema

/-! # The executor boundary

The types of `calculation-executor.ts`: the command a Run dispatches, the answers the
executor may give, and the questions a service asks it. Either question may also end in a
thrown error, with or without a message. -/

namespace CostEngine

structure ExecutionIdentity where
  airflowDagId : String
  airflowDagRunId : String
  deriving DecidableEq

structure FrozenUpstreamDatasetVersion where
  identity : SeriesIdentity
  datasetSeriesId : Uuid
  datasetVersionId : Uuid
  version : Nat
  deriving DecidableEq

structure DispatchCalculationCommand where
  executionAttemptId : Uuid
  attemptNumber : Nat
  jobId : Uuid
  datasetVersionId : Uuid
  datasetBuildSnapshotId : Uuid
  calculationTypeId : Uuid
  calculationTypeCode : String
  resolvedDependencyDefinitionVersionId : Uuid
  airflowDagId : String
  airflowDagRunId : String
  upstreamDatasetVersions : List FrozenUpstreamDatasetVersion
  deriving DecidableEq

def DispatchCalculationCommand.identity (c : DispatchCalculationCommand) :
    ExecutionIdentity := ⟨c.airflowDagId, c.airflowDagRunId⟩

def ExecutionAttempt.identity (a : ExecutionAttempt) : ExecutionIdentity :=
  ⟨a.airflowDagId, a.airflowDagRunId⟩

inductive DispatchResult where
  | accepted
  | alreadyExists
  | rejected (message : String)
  | unknown (message : String)
  deriving DecidableEq

inductive ExecutorExecutionStatus where
  | running
  | succeeded
  | failed (message : Option String)
  | notFound
  | unavailable (message : String)
  deriving DecidableEq

/-- What a service waits for: the result of a dispatch it sent, or the status of an
identity. -/
inductive ExecutorQuestion where
  | dispatch (command : DispatchCalculationCommand)
  | getExecutionStatus (identity : ExecutionIdentity)

/-- The error side is a thrown value, with its message when it is an `Error`. -/
abbrev ExecutorQuestion.Answer : ExecutorQuestion → Type
  | .dispatch _ => Except (Option String) DispatchResult
  | .getExecutionStatus _ => Except (Option String) ExecutorExecutionStatus

end CostEngine
