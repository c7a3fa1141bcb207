import CostEngine.Service.Transactions

/-! # Which rows a transaction writes

Read off the statements: creating a version is the only transaction that allocates a number
or inserts versions and jobs, a version is updated only by a first Run and by the lifecycle
commands, and an attempt is set to `DISPATCH_FAILED` only by the record of an answer. -/

namespace CostEngine

open Concurrency (Txn)

/-! ## What a transaction may write -/

/-- The writes that the statements of a transaction can make, with the status an attempt gets
where it is known. -/
def Transaction.mayWrite : Transaction → Write → Bool
  | .createDatasetVersion _, .insertDatasetSeries _ => true
  | .createDatasetVersion _, .putDatasetSeries _ => true
  | .createDatasetVersion _, .insertDatasetVersion _ => true
  | .createDatasetVersion _, .insertCalculationJob _ => true
  | .prepareCalculationJobRun _, .putCalculationJob _ => true
  | .prepareCalculationJobRun _, .insertDatasetBuildSnapshot _ => true
  | .prepareCalculationJobRun _, .insertSnapshotDependency _ => true
  | .prepareCalculationJobRun _, .putDatasetVersion _ => true
  | .prepareCalculationJobRun _, .insertExecutionAttempt a => a.status = .prepared
  | .prepareFailedCalculationJobRetry _, .insertExecutionAttempt a => a.status = .prepared
  | .beginDispatch _, .putExecutionAttempt a => a.status = .dispatching
  | .recordDispatchOutcome _ _, .putExecutionAttempt _ => true
  | .recordDispatchOutcome _ _, .putCalculationJob _ => true
  | .applyReconciliation _ _, .putExecutionAttempt a => a.status ≠ .dispatchFailed
  | .applyReconciliation _ _, .putCalculationJob _ => true
  | .submitDatasetValidation _, .putDatasetVersion _ => true
  | .decideValidatedDataset _ _ _, .putDatasetVersion _ => true
  | .abandonDatasetVersion _ _, .putDatasetVersion _ => true
  | _, _ => false

variable {P : Write → Prop} {env : TxEnv} {α β : Type}

/-! ## The statements that write -/

/-- The update writes the row that its columns give, or nothing. -/
theorem writes_updateAttempt {columns : ExecutionAttempt → ExecutionAttempt}
    (h : ∀ ea, P (.putExecutionAttempt (columns ea))) (id : Uuid)
    (expected : ExecutionAttemptStatus) : (updateAttempt id expected columns).Writes P :=
  Txn.writes_bind (Txn.writes_updateReturning fun _ => h _) fun _ => trivial

theorem writes_updateJob (h : ∀ cj, P (.putCalculationJob cj)) (id : Uuid)
    (expected : List CalculationJobStatus) (columns : CalculationJob → CalculationJob) :
    (updateJob id expected columns).Writes P :=
  Txn.writes_bind (Txn.writes_updateReturning fun _ => h _) fun _ => trivial

theorem writes_lockActiveExecutionAttempt (jobId : Uuid) :
    (lockActiveExecutionAttempt jobId).Writes P := by
  refine Txn.writes_bind (by simp) fun attempt => ?_
  cases attempt with
  | none => trivial
  | some attempt => exact Txn.writes_bind (by simp) fun _ => Txn.writes_select _

/-- Locking reads write nothing. -/
theorem writes_lockRows {find : Uuid → Store → Option α} {lock : Uuid → RowLock}
    (ids : List Uuid) : (lockRows lock find ids).Writes P := by
  induction ids with
  | nil => trivial
  | cons id ids ih =>
      exact Txn.writes_bind (by simp) fun _ => Txn.writes_bind (by simp) fun _ =>
        Txn.writes_bind ih fun _ => trivial

/-! ### Creating a version -/

/-- Only a new series is written. -/
theorem writes_findOrCreateAndLockDatasetSeries (h : ∀ r, P (.insertDatasetSeries r))
    (input : SeriesIdentity) (id : Uuid) :
    (findOrCreateAndLockDatasetSeries input id).Writes P := by
  unfold findOrCreateAndLockDatasetSeries insertDatasetSeriesIfAbsent
  repeat' first
    | exact trivial
    | exact Txn.writes_select _
    | exact Txn.writes_insertRow (h _)
    | refine Txn.writes_bind ?_ fun _ => ?_
    | dsimp only
    | split

theorem writes_insertPendingCalculationJobs (h : ∀ j, P (.insertCalculationJob j)) (v : Uuid)
    (jobs : List CalculationJobInsert) : (insertPendingCalculationJobs env v jobs).Writes P := by
  induction jobs with
  | nil => trivial
  | cons job jobs ih =>
      exact Txn.writes_bind (Txn.writes_insertRow (h _)) fun _ =>
        Txn.writes_bind (Txn.writes_lock _) fun _ => Txn.writes_bind (Txn.writes_lock _) fun _ =>
        Txn.writes_bind ih fun _ => trivial

/-! ### Freezing -/

theorem writes_lockCalculationTypes (v : Uuid) (jobs : List DatasetCalculationJobContext) :
    (lockCalculationTypes v jobs).Writes P := by
  induction jobs with
  | nil => trivial
  | cons job jobs ih =>
      refine Txn.writes_bind (Txn.writes_selectForUpdate _ _) fun locked => ?_
      repeat' first
        | exact trivial
        | exact ih
        | split

theorem writes_lockUpstreams (requirements : List SeriesIdentity) :
    (lockUpstreams requirements).Writes P := by
  induction requirements with
  | nil => trivial
  | cons requirement rest ih =>
      refine Txn.writes_bind ?_ fun _ => Txn.writes_bind ih fun _ => ?_
      · unfold lockUpstreamDatasetSeries
        repeat' first
          | exact trivial
          | exact Txn.writes_select _
          | refine Txn.writes_bind ?_ fun _ => ?_
          | split
      · split
        split <;> trivial

theorem writes_findUpstreamVersions (series : List DatasetSeries) :
    (findUpstreamVersions series).Writes P := by
  induction series with
  | nil => trivial
  | cons r rest ih =>
      refine Txn.writes_bind (Txn.writes_select _) fun _ => Txn.writes_bind ih fun _ => ?_
      split
      split <;> trivial

/-- One update for each job. -/
theorem writes_freezeDefinitions (h : ∀ cj, P (.putCalculationJob cj)) (v : Uuid)
    (definitions : List DependencyDefinition) (jobs : List DatasetCalculationJobContext) :
    (freezeDefinitions v definitions jobs).Writes P := by
  induction jobs with
  | nil => trivial
  | cons job jobs ih =>
      unfold freezeDefinitions persistResolvedDependencyDefinition
      repeat' first
        | exact trivial
        | exact ih
        | exact Txn.writes_updateReturning fun _ => h _
        | refine Txn.writes_bind ?_ fun _ => ?_
        | split

/-- One row for each upstream series. -/
theorem writes_freezeUpstreams (h : ∀ d, P (.insertSnapshotDependency d)) (snapshotId : Uuid)
    (versions : List PublishedUpstreamVersion) (series : List DatasetSeries) :
    (freezeUpstreams snapshotId versions series).Writes P := by
  induction series with
  | nil => trivial
  | cons r rest ih =>
      unfold freezeUpstreams insertDatasetBuildSnapshotDependency
      repeat' first
        | exact trivial
        | exact ih
        | exact Txn.writes_insertRow (h _)
        | refine Txn.writes_bind ?_ fun _ => ?_
        | split

/-! ### Attempts -/

/-- A new attempt is `PREPARED`. -/
theorem writes_insertPreparedExecutionAttempt
    (h : ∀ a, a.status = .prepared → P (.insertExecutionAttempt a))
    (id jobId : Uuid) (number : Nat) (dag run : String) :
    (insertPreparedExecutionAttempt env id jobId number dag run).Writes P :=
  Txn.writes_bind (Txn.writes_insertRow (h _ rfl)) fun _ => Txn.writes_lock _

/-! ### Lifecycle -/

theorem writes_applyTransition (h : ∀ v, P (.putDatasetVersion v))
    (dataset : LockedLifecycleDataset) (target : LifecycleTarget) :
    (applyTransition env dataset target).Writes P := by
  unfold applyTransition transitionLifecycleDataset
  repeat' first
    | exact trivial
    | exact Txn.writes_updateReturning fun _ => h _
    | refine Txn.writes_bind ?_ fun _ => ?_
    | dsimp only
    | split

theorem writes_lockTerminalDecisionDataset (id seriesId : Uuid) :
    (lockTerminalDecisionDataset id seriesId).Writes P := by
  unfold lockTerminalDecisionDataset lockLifecycleSeries
  repeat' first
    | exact trivial
    | exact Txn.writes_selectForUpdate _ _
    | refine Txn.writes_bind ?_ fun _ => ?_
    | dsimp only
    | split

theorem writes_lockLifecycleJobs (v : Uuid) : (lockLifecycleJobs v).Writes P :=
  Txn.writes_bind (Txn.writes_select _) fun ids => writes_lockRows ids

theorem writes_lockLifecycleAttempts (v : Uuid) : (lockLifecycleAttempts v).Writes P :=
  Txn.writes_bind (Txn.writes_select _) fun ids => writes_lockRows ids

/-! ## The transactions -/

/-- The only transaction that inserts series, versions and jobs. -/
theorem writes_createDatasetVersion (h₁ : ∀ r, P (.insertDatasetSeries r))
    (h₂ : ∀ r, P (.putDatasetSeries r)) (h₃ : ∀ v, P (.insertDatasetVersion v))
    (h₄ : ∀ j, P (.insertCalculationJob j)) (input : SeriesIdentity) :
    (createDatasetVersion input env).Writes P := by
  unfold createDatasetVersion allocateNextDatasetVersion insertDraftDatasetVersion
  repeat' first
    | exact trivial
    | exact Txn.writes_select _
    | exact writes_findOrCreateAndLockDatasetSeries h₁ _ _
    | exact Txn.writes_updateReturning fun _ => h₂ _
    | exact Txn.writes_insertRow (h₃ _)
    | exact writes_insertPendingCalculationJobs h₄ _ _
    | refine Txn.writes_bind ?_ fun _ => ?_
    | dsimp only
    | split

/-! ### Preparing an attempt -/

theorem writes_initializeOrReuseDraftDataset (h₁ : ∀ j, P (.putCalculationJob j))
    (h₂ : ∀ b, P (.insertDatasetBuildSnapshot b)) (h₃ : ∀ d, P (.insertSnapshotDependency d))
    (h₄ : ∀ v, P (.putDatasetVersion v)) (context : CalculationRunContext) :
    (initializeOrReuseDraftDataset env context).Writes P := by
  unfold initializeOrReuseDraftDataset freezeDraftBuild insertDatasetBuildSnapshot
    transitionDatasetVersionToBuilding requireBuildingSnapshot
  repeat' first
    | exact trivial
    | exact Txn.writes_select _
    | exact Txn.writes_selectForUpdate _ _
    | exact writes_lockCalculationTypes _ _
    | exact writes_lockUpstreams _
    | exact writes_findUpstreamVersions _
    | exact writes_freezeDefinitions h₁ _ _ _
    | exact Txn.writes_insertRow (h₂ _)
    | exact writes_freezeUpstreams h₃ _ _ _
    | exact Txn.writes_updateReturning fun _ => h₄ _
    | refine Txn.writes_bind ?_ fun _ => ?_
    | dsimp only
    | split

theorem writes_prepareSelectedJobAttempt
    (h : ∀ a, a.status = .prepared → P (.insertExecutionAttempt a))
    (context : CalculationRunContext) (snapshotId : Uuid) :
    (prepareSelectedJobAttempt env context snapshotId).Writes P := by
  unfold prepareSelectedJobAttempt
  repeat' first
    | exact trivial
    | exact Txn.writes_select _
    | exact Txn.writes_selectJoinForUpdate _ _ _
    | exact writes_insertPreparedExecutionAttempt h _ _ _ _ _
    | refine Txn.writes_bind ?_ fun _ => ?_
    | dsimp only
    | split

/-- A First Run freezes the version and allocates an attempt. -/
theorem writes_prepareCalculationJobRun (h₁ : ∀ j, P (.putCalculationJob j))
    (h₂ : ∀ b, P (.insertDatasetBuildSnapshot b)) (h₃ : ∀ d, P (.insertSnapshotDependency d))
    (h₄ : ∀ v, P (.putDatasetVersion v))
    (h₅ : ∀ a, a.status = .prepared → P (.insertExecutionAttempt a)) (jobId : Uuid) : (prepareCalculationJobRun jobId env).Writes P := by
  unfold prepareCalculationJobRun loadCalculationRunContext reuseBuildingDataset
    requireBuildingSnapshot
  repeat' first
    | exact trivial
    | exact Txn.writes_select _
    | exact Txn.writes_selectForUpdate _ _
    | exact writes_initializeOrReuseDraftDataset h₁ h₂ h₃ h₄ _
    | exact writes_prepareSelectedJobAttempt h₅ _ _
    | refine Txn.writes_bind ?_ fun _ => ?_
    | dsimp only
    | split

/-- A retry only allocates an attempt. -/
theorem writes_prepareFailedCalculationJobRetry
    (h : ∀ a, a.status = .prepared → P (.insertExecutionAttempt a))
    (state : CalculationJobRunRoutingState) :
    (prepareFailedCalculationJobRetry state env).Writes P := by
  unfold prepareFailedCalculationJobRetry
  repeat' first
    | exact trivial
    | exact Txn.writes_select _
    | exact Txn.writes_selectForUpdate _ _
    | exact Txn.writes_selectJoinForUpdate _ _ _
    | exact writes_insertPreparedExecutionAttempt h _ _ _ _ _
    | refine Txn.writes_bind ?_ fun _ => ?_
    | dsimp only
    | split

/-! ### Dispatching and recording -/

/-- The attempt becomes `DISPATCHING`, and no other row changes. -/
theorem writes_beginDispatch
    (h : ∀ ea, ea.status = .dispatching → P (.putExecutionAttempt ea)) (d : DurableRunAttempt) :
    (beginDispatch d env).Writes P := by
  unfold beginDispatch dispatchCommand
  repeat' first
    | exact trivial
    | exact Txn.writes_select _
    | exact writes_updateAttempt (fun _ => h _ rfl) _ _
    | exact writes_lockActiveExecutionAttempt _
    | exact Txn.writes_selectJoinForUpdate _ _ _
    | refine Txn.writes_bind ?_ fun _ => ?_
    | dsimp only
    | split

/-- The answer came after reconciliation: nothing is written. -/
theorem writes_recordTerminal (c : DispatchCalculationCommand) (kind : RunDispatchOutcome)
    (context : LockedCalculationJobDispatchContext) (attempt : LockedExecutionAttempt)
    (status : DatasetVersionStatus) :
    (recordTerminal c kind context attempt status).Writes P := by
  refine Txn.writes_bind (Txn.writes_select _) fun newer => ?_
  split <;> trivial

theorem writes_recordConfirmation (h₁ : ∀ ea, P (.putExecutionAttempt ea))
    (h₂ : ∀ cj, P (.putCalculationJob cj)) (c : DispatchCalculationCommand)
    (kind : RunDispatchOutcome) (context : LockedCalculationJobDispatchContext)
    (attempt : LockedExecutionAttempt) :
    (recordConfirmation env c kind context attempt).Writes P := by
  unfold recordConfirmation
  split
  · trivial
  · refine Txn.writes_bind (writes_updateAttempt (fun _ => h₁ _) _ _) fun attemptUpdated => ?_
    refine Txn.writes_bind (writes_updateJob h₂ _ _ _) fun jobUpdated => ?_
    split <;> trivial

/-- The job keeps its status when its attempt is rejected. -/
theorem writes_recordRejection (h : ∀ ea, P (.putExecutionAttempt ea)) (message : String)
    (context : LockedCalculationJobDispatchContext) (attempt : LockedExecutionAttempt) :
    (recordRejection env message context attempt).Writes P := by
  unfold recordRejection
  split
  · trivial
  · split
    · trivial
    · refine Txn.writes_bind (writes_updateAttempt (fun _ => h _) _ _) fun updated => ?_
      split <;> trivial

theorem writes_recordUnknown (h : ∀ ea, P (.putExecutionAttempt ea))
    (c : DispatchCalculationCommand) (message : String)
    (context : LockedCalculationJobDispatchContext) (attempt : LockedExecutionAttempt) :
    (recordUnknown c message context attempt).Writes P := by
  unfold recordUnknown
  split
  · trivial
  · refine Txn.writes_bind (writes_updateAttempt (fun _ => h _) _ _) fun updated => ?_
    split <;> trivial

/-- An answer reaches the attempt and its job. -/
theorem writes_recordDispatchOutcome (h₁ : ∀ ea, P (.putExecutionAttempt ea))
    (h₂ : ∀ cj, P (.putCalculationJob cj)) (c : DispatchCalculationCommand)
    (outcome : DispatchResult) : (recordDispatchOutcome c outcome env).Writes P := by
  unfold recordDispatchOutcome
  repeat' first
    | exact trivial
    | exact writes_recordTerminal _ _ _ _ _
    | exact writes_recordConfirmation h₁ h₂ _ _ _ _
    | exact writes_recordRejection h₁ _ _ _
    | exact writes_recordUnknown h₁ _ _ _ _
    | exact Txn.writes_select _
    | exact Txn.writes_selectForUpdate _ _
    | exact Txn.writes_selectJoinForUpdate _ _ _
    | refine Txn.writes_bind ?_ fun _ => ?_
    | dsimp only
    | split

/-! ### Reconciling -/

/-- The reply writes nothing. -/
theorem writes_resultFromDurableState (context : ReconciliationAttemptContext)
    (jobStatus : CalculationJobStatus) (attemptStatus : ExecutionAttemptStatus)
    (executorStatus : ReconciliationExecutorStatus) :
    (resultFromDurableState context jobStatus attemptStatus executorStatus).Writes P := by
  unfold resultFromDurableState
  split <;> trivial

/-- What has its final status is left alone. -/
theorem writes_reconcileTerminal (phaseAContext currentContext : ReconciliationAttemptContext)
    (executorStatus finalStatus : ReconciliationExecutorStatus) (job : LockedReconciliationJob)
    (attempt : LockedExecutionAttempt) (newer : Bool) :
    (reconcileTerminal phaseAContext currentContext executorStatus finalStatus job attempt
      newer).Writes P := by
  unfold reconcileTerminal
  repeat' first
    | exact trivial
    | exact writes_resultFromDurableState _ _ _ _
    | dsimp only
    | split

theorem writes_reconcileToTerminal
    (h₁ : ∀ ea, ea.status ≠ .dispatchFailed → P (.putExecutionAttempt ea))
    (h₂ : ∀ cj, P (.putCalculationJob cj)) (context : ReconciliationAttemptContext)
    (executorStatus : ReconciliationExecutorStatus) (job : LockedReconciliationJob)
    (attempt : LockedExecutionAttempt) (expected : ExecutionAttemptStatus)
    (expectedStatuses : List CalculationJobStatus) :
    (reconcileToTerminal env context executorStatus job attempt expected
      expectedStatuses).Writes P := by
  refine Txn.writes_bind (writes_updateAttempt (fun _ => h₁ _ ?_) _ _) fun attemptUpdated => ?_
  · cases executorStatus <;> exact fun h => (by cases h)
  refine Txn.writes_bind (writes_updateJob h₂ _ _ _) fun jobUpdated => ?_
  split
  · trivial
  · exact writes_resultFromDurableState _ _ _ _

/-- Reconciliation knows of no rejection, so the attempt never becomes `DISPATCH_FAILED`. -/
theorem writes_reconcileDispatching
    (h₁ : ∀ ea, ea.status ≠ .dispatchFailed → P (.putExecutionAttempt ea))
    (h₂ : ∀ cj, P (.putCalculationJob cj))
    (phaseAContext currentContext : ReconciliationAttemptContext)
    (executorStatus : ReconciliationExecutorStatus) (job : LockedReconciliationJob)
    (attempt : LockedExecutionAttempt) :
    (reconcileDispatching env phaseAContext currentContext executorStatus job attempt).Writes
      P := by
  unfold reconcileDispatching
  split
  · trivial
  · split
    · refine Txn.writes_bind (writes_updateAttempt (fun _ => h₁ _ fun h => (by cases h)) _ _)
        fun attemptUpdated => ?_
      refine Txn.writes_bind (writes_updateJob h₂ _ _ _) fun jobUpdated => ?_
      split
      · trivial
      · exact writes_resultFromDurableState _ _ _ _
    · exact writes_reconcileToTerminal h₁ h₂ _ _ _ _ _ _

theorem writes_reconcileAccepted
    (h₁ : ∀ ea, ea.status ≠ .dispatchFailed → P (.putExecutionAttempt ea))
    (h₂ : ∀ cj, P (.putCalculationJob cj))
    (phaseAContext currentContext : ReconciliationAttemptContext)
    (executorStatus : ReconciliationExecutorStatus) (job : LockedReconciliationJob)
    (attempt : LockedExecutionAttempt) :
    (reconcileAccepted env phaseAContext currentContext executorStatus job attempt).Writes
      P := by
  unfold reconcileAccepted
  split
  · trivial
  · split
    · exact writes_resultFromDurableState _ _ _ _
    · exact writes_reconcileToTerminal h₁ h₂ _ _ _ _ _ _

/-- An observed status reaches the attempt and its job. -/
theorem writes_applyReconciliation
    (h₁ : ∀ ea, ea.status ≠ .dispatchFailed → P (.putExecutionAttempt ea))
    (h₂ : ∀ cj, P (.putCalculationJob cj)) (context : ReconciliationAttemptContext)
    (executorStatus : ReconciliationExecutorStatus) :
    (applyReconciliation context executorStatus env).Writes P := by
  unfold applyReconciliation
  repeat' first
    | exact trivial
    | exact writes_reconcileTerminal _ _ _ _ _ _ _
    | exact writes_reconcileDispatching h₁ h₂ _ _ _ _ _
    | exact writes_reconcileAccepted h₁ h₂ _ _ _ _ _
    | exact Txn.writes_select _
    | exact Txn.writes_selectForUpdate _ _
    | exact Txn.writes_selectJoinForUpdate _ _ _
    | refine Txn.writes_bind ?_ fun _ => ?_
    | dsimp only
    | split

/-! ### Moving a version on -/

/-- Jobs and attempts are locked and read, and the version is updated. -/
theorem writes_submitDatasetValidation (h : ∀ v, P (.putDatasetVersion v)) (id : Uuid) :
    (submitDatasetValidation id env).Writes P := by
  unfold submitDatasetValidation
  repeat' first
    | exact trivial
    | exact Txn.writes_selectForUpdate _ _
    | exact writes_lockLifecycleJobs _
    | exact writes_lockLifecycleAttempts _
    | exact writes_applyTransition h _ _
    | refine Txn.writes_bind ?_ fun _ => ?_
    | dsimp only
    | split

/-- The series is locked but not written. -/
theorem writes_decideValidatedDataset (h : ∀ v, P (.putDatasetVersion v)) (id seriesId : Uuid)
    (decision : TerminalDecision) :
    (decideValidatedDataset id seriesId decision env).Writes P := by
  unfold decideValidatedDataset
  repeat' first
    | exact trivial
    | exact writes_lockTerminalDecisionDataset _ _
    | exact writes_applyTransition h _ _
    | refine Txn.writes_bind ?_ fun _ => ?_
    | dsimp only
    | split

theorem writes_abandonDatasetVersion (h : ∀ v, P (.putDatasetVersion v)) (id seriesId : Uuid) :
    (abandonDatasetVersion id seriesId env).Writes P := by
  unfold abandonDatasetVersion
  repeat' first
    | exact trivial
    | exact writes_lockTerminalDecisionDataset _ _
    | exact writes_lockLifecycleJobs _
    | exact writes_lockLifecycleAttempts _
    | exact writes_applyTransition h _ _
    | refine Txn.writes_bind ?_ fun _ => ?_
    | dsimp only
    | split

/-! ## Every transaction -/

/-- **A transaction writes only the rows of its kind.** -/
theorem Transaction.body_writes (t : Transaction) :
    (t.body env).Writes fun u => t.mayWrite u = true := by
  cases t with
  | createDatasetVersion input =>
      exact writes_createDatasetVersion (fun _ => rfl) (fun _ => rfl) (fun _ => rfl)
        (fun _ => rfl) input
  | prepareCalculationJobRun jobId =>
      exact writes_prepareCalculationJobRun (fun _ => rfl) (fun _ => rfl) (fun _ => rfl)
        (fun _ => rfl) (fun _ => decide_eq_true) jobId
  | prepareFailedCalculationJobRetry state =>
      exact writes_prepareFailedCalculationJobRetry (fun _ => decide_eq_true) state
  | beginDispatch d => exact writes_beginDispatch (fun _ => decide_eq_true) d
  | recordDispatchOutcome c outcome =>
      exact writes_recordDispatchOutcome (fun _ => rfl) (fun _ => rfl) c outcome
  | applyReconciliation context x =>
      exact writes_applyReconciliation (fun _ => decide_eq_true) (fun _ => rfl) context x
  | submitDatasetValidation id => exact writes_submitDatasetValidation (fun _ => rfl) id
  | decideValidatedDataset id seriesId decision =>
      exact writes_decideValidatedDataset (fun _ => rfl) id seriesId decision
  | abandonDatasetVersion id seriesId =>
      exact writes_abandonDatasetVersion (fun _ => rfl) id seriesId

end CostEngine
