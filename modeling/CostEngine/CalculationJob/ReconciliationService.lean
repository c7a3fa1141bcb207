import CostEngine.CalculationJob.ReconciliationRepository

/-! # `calculation-job-reconciliation.service.ts`: the transaction

Applying an executor status that was looked up before the transaction began. -/

namespace CostEngine

/-! ## The reply -/

/-- What both reconciliation routes answer. -/
structure CalculationJobReconciliationResult where
  datasetVersionId : Uuid
  datasetStatus : DatasetVersionStatus
  jobId : Uuid
  jobStatus : CalculationJobStatus
  executionAttemptId : Uuid
  attemptNumber : Nat
  attemptStatus : ExecutionAttemptStatus
  airflowDagId : String
  airflowDagRunId : String
  executorStatus : ReconciliationExecutorStatus

def reconciliationDiagnostic (context : ReconciliationAttemptContext)
    (localAttemptStatus executorStatus : String) : String :=
  ", ".intercalate [
    s!"datasetVersionId={context.datasetVersionId}",
    s!"jobId={context.jobId}",
    s!"executionAttemptId={context.executionAttemptId}",
    s!"attemptNumber={context.attemptNumber}",
    s!"airflowDagId={context.airflowDagId}",
    s!"airflowDagRunId={context.airflowDagRunId}",
    s!"localAttemptStatus={localAttemptStatus}",
    s!"executorStatus={executorStatus}"]

/-- The executor may know the identity of such an attempt. -/
def isExecutorBackedAttemptStatus : ExecutionAttemptStatus → Bool
  | .dispatching | .accepted | .succeeded | .failed => true
  | _ => false

def isTerminalAttemptStatus : ExecutionAttemptStatus → Bool
  | .succeeded | .failed => true
  | _ => false

/-- The reply to a reconciliation. A version in `DRAFT` has no attempt to reconcile. -/
def resultFromDurableState (context : ReconciliationAttemptContext)
    (jobStatus : CalculationJobStatus) (attemptStatus : ExecutionAttemptStatus)
    (executorStatus : ReconciliationExecutorStatus) :
    Tx CalculationJobReconciliationResult :=
  if context.datasetStatus = .draft then
    invariant s!"Reconciled attempt belongs to DRAFT dataset {context.datasetVersionId}"
  else pure {
    datasetVersionId := context.datasetVersionId
    datasetStatus := context.datasetStatus
    jobId := context.jobId
    jobStatus
    executionAttemptId := context.executionAttemptId
    attemptNumber := context.attemptNumber
    attemptStatus
    airflowDagId := context.airflowDagId
    airflowDagRunId := context.airflowDagRunId
    executorStatus }

/-! ## The branches -/

/-- The branch of an attempt that has its final status `finalStatus` already. -/
def reconcileTerminal (phaseAContext currentContext : ReconciliationAttemptContext)
    (executorStatus finalStatus : ReconciliationExecutorStatus)
    (job : LockedReconciliationJob) (attempt : LockedExecutionAttempt)
    (newerAttemptExists : Bool) : Tx CalculationJobReconciliationResult :=
  let diagnostic := reconciliationDiagnostic phaseAContext (toString attempt.status)
    (toString executorStatus)
  -- A RUNNING observation is stale when the attempt was not final before the lookup.
  let isStaleRunningObservation := executorStatus = .running
    ∧ (phaseAContext.attemptStatus = .dispatching
      ∨ phaseAContext.attemptStatus = .accepted)
  if currentContext.datasetStatus = .draft then
    invariant s!"Terminal attempt {attempt.id} belongs to DRAFT dataset {job.datasetVersionId}"
  else if executorStatus ≠ finalStatus ∧ ¬ isStaleRunningObservation then
    invariant s!"Terminal reconciliation contradiction: {diagnostic}"
  else if newerAttemptExists = false
      ∧ attempt.status.asJobStatus? ≠ some job.jobStatus then
    invariant (s!"Terminal attempt/job state is inconsistent: {diagnostic}, "
      ++ s!"jobStatus={job.jobStatus}")
  else resultFromDurableState currentContext job.jobStatus attempt.status finalStatus

/-- The two updates of an attempt in state `expectedStatus`, and the reply. -/
def reconcileToTerminal (env : TxEnv) (currentContext : ReconciliationAttemptContext)
    (executorStatus : ReconciliationExecutorStatus) (job : LockedReconciliationJob)
    (attempt : LockedExecutionAttempt) (expectedStatus : ExecutionAttemptStatus)
    (expectedStatuses : List CalculationJobStatus) :
    Tx CalculationJobReconciliationResult := do
  let attemptUpdated ← transitionAttemptToTerminal env attempt.id expectedStatus
    executorStatus.attemptStatus
  let jobUpdated ← transitionJobToTerminal env job.jobId expectedStatuses
    executorStatus.jobStatus
  if attemptUpdated = false ∨ jobUpdated = false then
    invariant s!"Could not atomically terminalize {expectedStatus} attempt {attempt.id}"
  else
    resultFromDurableState currentContext executorStatus.jobStatus
      executorStatus.attemptStatus executorStatus

/-- The branch of a `DISPATCHING` attempt. -/
def reconcileDispatching (env : TxEnv) (phaseAContext currentContext :
    ReconciliationAttemptContext) (executorStatus : ReconciliationExecutorStatus)
    (job : LockedReconciliationJob) (attempt : LockedExecutionAttempt) :
    Tx CalculationJobReconciliationResult := do
  if job.jobStatus ≠ .pending ∧ job.jobStatus ≠ .failed then
    invariant ("DISPATCHING attempt has contradictory job state: "
      ++ reconciliationDiagnostic phaseAContext (toString attempt.status)
        (toString executorStatus)
      ++ s!", jobStatus={job.jobStatus}")
  else if executorStatus = .running then do
    let attemptUpdated ← transitionDispatchingAttemptToAccepted env attempt.id
    let jobUpdated ← transitionJobToRunning env job.jobId
    if attemptUpdated = false ∨ jobUpdated = false then
      invariant s!"Could not atomically recover DISPATCHING attempt {attempt.id}"
    else resultFromDurableState currentContext .running .accepted executorStatus
  else
    reconcileToTerminal env currentContext executorStatus job attempt .dispatching
      [.pending, .failed]

/-- The branch of an `ACCEPTED` attempt. -/
def reconcileAccepted (env : TxEnv) (phaseAContext currentContext :
    ReconciliationAttemptContext) (executorStatus : ReconciliationExecutorStatus)
    (job : LockedReconciliationJob) (attempt : LockedExecutionAttempt) :
    Tx CalculationJobReconciliationResult := do
  if job.jobStatus ≠ .running then
    invariant ("ACCEPTED attempt has contradictory job state: "
      ++ reconciliationDiagnostic phaseAContext (toString attempt.status)
        (toString executorStatus)
      ++ s!", jobStatus={job.jobStatus}")
  else if executorStatus = .running then
    resultFromDurableState currentContext .running .accepted executorStatus
  else
    reconcileToTerminal env currentContext executorStatus job attempt .accepted [.running]

/-! ## The transaction -/

/-- The second phase: under the locks of job and attempt, the observed status is applied to
what is there now and not to what the first phase read. -/
def applyReconciliation (phaseAContext : ReconciliationAttemptContext)
    (executorStatus : ReconciliationExecutorStatus) (env : TxEnv) :
    Tx CalculationJobReconciliationResult := do
  match ← lockReconciliationJob phaseAContext.jobId with
  | none =>
      invariant s!"Calculation job disappeared during reconciliation: {phaseAContext.jobId}"
  | some job =>
  match ← lockExecutionAttempt phaseAContext.executionAttemptId with
  | none => invariant ("Execution attempt disappeared or changed owner during reconciliation: "
      ++ phaseAContext.executionAttemptId)
  | some attempt =>
  let diagnostic (context : ReconciliationAttemptContext) : String :=
    reconciliationDiagnostic context (toString attempt.status) (toString executorStatus)
  if attempt.calculationJobId ≠ job.jobId then
    invariant ("Execution attempt disappeared or changed owner during reconciliation: "
      ++ phaseAContext.executionAttemptId)
  else if job.datasetVersionId ≠ phaseAContext.datasetVersionId
      ∨ attempt.attemptNumber ≠ phaseAContext.attemptNumber
      ∨ attempt.airflowDagId ≠ phaseAContext.airflowDagId
      ∨ attempt.airflowDagRunId ≠ phaseAContext.airflowDagRunId then
    invariant s!"Durable reconciliation identity changed: {diagnostic phaseAContext}"
  else do
  match ← loadReconciliationAttemptContext attempt.id with
  | none => invariant s!"Locked attempt disappeared: {attempt.id}"
  | some currentContext =>
  let newerAttemptExists ← hasNewerExecutionAttempt job.jobId attempt.attemptNumber
  match ReconciliationExecutorStatus.ofAttemptStatus? attempt.status with
  | some finalStatus =>
      reconcileTerminal phaseAContext currentContext executorStatus finalStatus job attempt
        newerAttemptExists
  | none =>
  if currentContext.datasetStatus ≠ .building then
    invariant s!"Reconciliation attempted outside BUILDING: {diagnostic currentContext}"
  else if newerAttemptExists then
    invariant s!"Non-terminal stale attempt detected: {diagnostic phaseAContext}"
  else match attempt.status with
  | .dispatching =>
      reconcileDispatching env phaseAContext currentContext executorStatus job attempt
  | .accepted =>
      reconcileAccepted env phaseAContext currentContext executorStatus job attempt
  | _ => invariant ("Attempt became non-reconcilable during executor lookup: "
      ++ diagnostic phaseAContext)

end CostEngine
