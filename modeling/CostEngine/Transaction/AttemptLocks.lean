import CostEngine.System.Specification
import CostEngine.Transaction.FirstRunLocks

/-! # The locks of retries, dispatches and reconciliations

A retry locks version, job and new attempt, the others job and attempt. What they update is
held already, so an update takes no other lock. -/

namespace CostEngine

open Relational (Table)
open Concurrency (Txn Discipline)

variable {honours : Prop} {level : String → ℕ} {g : Moment} {env : TxEnv} {L : List RowLock}
variable {ws : List Write}

/-! ## Jobs and attempts -/

section Rows

variable {s : Store} (href : s.References) {id : Uuid}
include href

/-- A job belongs to a version in a domain. -/
theorem Store.References.versionOf?_job {j : CalculationJob}
    (hj : s.calculationJobs.get? id = some j) :
    ∃ v d, s.versionOf? (.calculationJob id) = some v ∧ s.versionDomain? v = some d := by
  obtain ⟨d, hd⟩ := href.jobDomain hj
  exact ⟨_, d, Store.versionOf?_job hj, hd⟩

/-- An attempt comes after its job. -/
theorem Store.References.attempt_next {a : ExecutionAttempt}
    (ha : s.executionAttempts.get? id = some a) :
    (Row.executionAttempt id).Next level s env
      [.forUpdate (.calculationJob a.calculationJobId)] := by
  obtain ⟨j, hj⟩ := Option.ne_none_iff_exists'.mp (href.attempt id a ha).1
  obtain ⟨v, d, hv, hd⟩ := href.versionOf?_job hj
  have hbelow : AllBelow level s env (lockRank 2 (3 * level d + 2) [])
      [.forUpdate (.calculationJob a.calculationJobId)] :=
    .cons (RowLock.below_of_rank (Store.lockRank?_job level hv hd) (lockRank_lt_place (by omega)))
      allBelow_nil
  exact hbelow.next (Store.lockRank?_attempt level (Store.versionOf?_attempt ha hv) hd)

end Rows

/-- A job that has been read may be asked for when nothing is held. -/
theorem job_first {g₁ : Moment} {jobId : Uuid} {j : CalculationJob} (hinv : Invariant honours g)
    (hl : (discipline honours).Later [] g₁ g)
    (hj : g₁.db.calculationJobs.get? jobId = some j) :
    LockFollows level g.db env [] (.forUpdate (.calculationJob jobId)) := by
  obtain ⟨j', hj', -⟩ := hl.le.db.job hj
  obtain ⟨v, d, hv, hd⟩ := hinv.consistent.references.versionOf?_job hj'
  exact .next (allBelow_nil.next (Store.lockRank?_job level hv hd)) (by simp)

/-! ### Guarded updates -/

/-- An update of a row that is held takes no other lock. -/
theorem locks_updateHeld {α : Type} {row : Row} {find : Store → Option α} {image : α → Write}
    {post : List RowLock → List Write → Bool → Prop} (hheld : .forUpdate row ∈ L)
    (hpost : ∀ L' ws' b, (∀ m ∈ L, m ∈ L') → post L' ws' b) :
    Tx.LocksInOrder honours level g env L ws
      (Txn.updateReturning (.noKeyUpdate row) find image >>= fun updated => pure updated.isSome)
      post :=
  Discipline.locks_bind (Discipline.locks_updateReturning (hpost _ _ _ fun _ h => h)
    (fun _ _ _ _ _ => .again hheld) (hpost _ _ _ fun _ h => List.mem_cons_of_mem _ h)
    fun _ => hpost _ _ _ fun _ h => List.mem_cons_of_mem _ h)

/-! ## Dispatch -/

theorem locks_lockCalculationJobDispatchContext {jobId : Uuid} (hinv : Invariant honours g)
    {post : List RowLock → List Write → Option LockedCalculationJobDispatchContext → Prop}
    (hnone : ∀ L', post L' [] none)
    (hsome : ∀ x, x.jobId = jobId → post [.forUpdate (.calculationJob jobId)] [] (some x)) :
    Tx.LocksInOrder honours level g env [] [] (lockCalculationJobDispatchContext jobId) post := by
  refine locks_selectJob (fun g₁ x hl hx => ?_) hnone fun _ _ hid => hsome _ hid
  simp only [Store.dispatchJoin?, Option.bind_eq_bind, Option.bind_eq_some_iff] at hx
  obtain ⟨j₁, hj₁, -⟩ := hx
  exact job_first hinv hl hj₁

/-- The active attempt is one of the job. -/
theorem locks_lockActiveExecutionAttempt {jobId : Uuid} (hinv : Invariant honours g)
    {post : List RowLock → List Write → Option ActiveExecutionAttempt → Prop}
    (hnone : ∀ L', post L' [] none)
    (hsome : ∀ L' x, .forUpdate (.executionAttempt x.id) ∈ L' → post L' [] (some x)) :
    Tx.LocksInOrder honours level g env [.forUpdate (.calculationJob jobId)] []
      (lockActiveExecutionAttempt jobId) post := by
  refine Discipline.locks_bind (Discipline.locks_select fun g₁ _ hl => ?_)
  rw [Concurrency.Machine.view_nil]
  cases hx : g₁.db.activeAttempt? jobId with
  | none => exact hnone _
  | some x =>
      -- It has been read without a lock; a row that is there keeps its job.
      obtain ⟨a₁, hmem, -, rfl⟩ := Store.of_activeAttempt? hx
      obtain ⟨ha₁, hjob⟩ := Store.mem_attemptsOf.mp hmem
      obtain ⟨a, ha, hs⟩ := hl.le.db.attempt ha₁
      have hnext : (Row.executionAttempt _).Next level g.db env _ :=
        hinv.consistent.references.attempt_next ha
      rw [(attempt_columns hs).2.1, hjob] at hnext
      refine Discipline.locks_bind (Discipline.locks_lock (.next hnext (by simp)) ?_)
      refine Discipline.locks_select fun g₂ _ _ => ?_
      cases hy : ((machine honours).view g₂.db []).activeAttempt? jobId |>.filter
          (·.id = a₁.asActive.id) with
      | none => exact hnone _
      | some y =>
          have hid : y.id = a₁.asActive.id := by simpa using (Option.filter_eq_some_iff.mp hy).2
          exact hsome _ y (hid ▸ List.mem_cons_self)

/-- The rest of `beginDispatch` reads. -/
theorem locks_dispatchCommand {context : LockedCalculationJobDispatchContext}
    {snapshotId definitionId : Uuid} {activeAttempt : ActiveExecutionAttempt} :
    Tx.LocksInOrder honours level g env L ws
      (dispatchCommand context snapshotId definitionId activeAttempt) fun _ _ _ => True := by
  refine Discipline.locks_bind (Discipline.locks_select fun g₁ _ _ => ?_)
  refine Discipline.locks_bind (Discipline.locks_select fun g₂ _ _ => ?_)
  split
  · exact Discipline.locks_throw
  · trivial

/-- A dispatch locks the job and its active attempt. -/
theorem locks_beginDispatch {d : DurableRunAttempt} (hinv : Invariant honours g) :
    Tx.LocksInOrder honours level g env [] [] (beginDispatch d env) fun _ _ _ => True := by
  refine Discipline.locks_bind (locks_lockCalculationJobDispatchContext hinv
    (fun _ => Discipline.locks_throw) fun context hid => ?_)
  dsimp only
  split
  · exact Discipline.locks_throw
  refine Discipline.locks_bind (Discipline.locks_select fun g₁ _ _ => ?_)
  split
  · split
    · exact Discipline.locks_throw
    rw [hid]
    refine Discipline.locks_bind (locks_lockActiveExecutionAttempt hinv
      (fun _ => Discipline.locks_throw) fun L' activeAttempt hheld => ?_)
    dsimp only
    split
    · exact Discipline.locks_throw
    split
    · split
      · exact Discipline.locks_throw
      · trivial
    split
    · exact Discipline.locks_throw
    split
    · refine Discipline.locks_bind (locks_updateHeld hheld fun _ _ transitioned _ => ?_)
      split
      · exact locks_dispatchCommand
      · exact Discipline.locks_throw
    · exact locks_dispatchCommand
  · exact Discipline.locks_throw

/-! ## The answer of a dispatch -/

/-- An attempt that is found is locked after its job. -/
theorem locks_lockExecutionAttempt {id jobId : Uuid} (hinv : Invariant honours g)
    (hattempt : ∀ a, g.db.executionAttempts.get? id = some a → a.calculationJobId = jobId)
    {post : List RowLock → List Write → Option LockedExecutionAttempt → Prop}
    (hnone : ∀ L', post L' [] none)
    (hsome : ∀ x, x.id = id → post
      [.forUpdate (.executionAttempt id), .forUpdate (.calculationJob jobId)] [] (some x)) :
    Tx.LocksInOrder honours level g env [.forUpdate (.calculationJob jobId)] []
      (lockExecutionAttempt id) post := by
  refine Discipline.locks_selectForUpdate (hnone _) fun g₁ x _ hl hx => ?_
  obtain ⟨a₁, ha₁, -⟩ := Option.map_eq_some_iff.mp hx
  obtain ⟨a, ha, -⟩ := hl.le.db.attempt ha₁
  have hnext : (Row.executionAttempt id).Next level g.db env _ :=
    hinv.consistent.references.attempt_next ha
  rw [hattempt a ha] at hnext
  refine ⟨.next hnext (by simp), fun g₂ _ _ => ?_⟩
  cases hy : ((machine honours).view g₂.db []).lockedAttempt? id with
  | none => exact hnone _
  | some y =>
      obtain ⟨a₂, ha₂, rfl⟩ := Option.map_eq_some_iff.mp hy
      have hid : a₂.id = id := Table.get?_key ha₂
      exact hsome _ hid

/-! ### What is recorded -/

section Answers

variable {command : DispatchCalculationCommand} {context : LockedCalculationJobDispatchContext}
variable {attempt : LockedExecutionAttempt}
variable (hjob : .forUpdate (.calculationJob context.jobId) ∈ L)
variable (hattempt : .forUpdate (.executionAttempt attempt.id) ∈ L)
include hattempt

include hjob in
theorem locks_recordConfirmation {kind : RunDispatchOutcome} :
    Tx.LocksInOrder honours level g env L ws (recordConfirmation env command kind context attempt)
      fun _ _ _ => True := by
  unfold recordConfirmation
  split
  · exact Discipline.locks_throw
  · refine Discipline.locks_bind (locks_updateHeld hattempt fun L₁ _ _ hkept => ?_)
    refine Discipline.locks_bind (locks_updateHeld (hkept _ hjob) fun _ _ _ _ => ?_)
    split
    · exact Discipline.locks_throw
    · trivial

theorem locks_recordRejection {message : String} :
    Tx.LocksInOrder honours level g env L ws (recordRejection env message context attempt)
      fun _ _ _ => True := by
  unfold recordRejection
  split
  · trivial
  split
  · exact Discipline.locks_throw
  · refine Discipline.locks_bind (locks_updateHeld hattempt fun _ _ _ _ => ?_)
    split
    · trivial
    · exact Discipline.locks_throw

theorem locks_recordUnknown {message : String} :
    Tx.LocksInOrder honours level g env L ws (recordUnknown command message context attempt)
      fun _ _ _ => True := by
  unfold recordUnknown
  split
  · exact Discipline.locks_throw
  · refine Discipline.locks_bind (locks_updateHeld hattempt fun _ _ _ _ => ?_)
    split
    · trivial
    · exact Discipline.locks_throw

end Answers

/-- The branch of a finished attempt reads. -/
theorem locks_recordTerminal {command : DispatchCalculationCommand} {kind : RunDispatchOutcome}
    {context : LockedCalculationJobDispatchContext} {attempt : LockedExecutionAttempt}
    {status : DatasetVersionStatus} :
    Tx.LocksInOrder honours level g env L ws (recordTerminal command kind context attempt status)
      fun _ _ _ => True := by
  refine Discipline.locks_bind (Discipline.locks_select fun g₁ _ _ => ?_)
  split
  · exact Discipline.locks_throw
  · trivial

/-- The attempt of the command is one of its job. -/
theorem locks_recordDispatchOutcome {command : DispatchCalculationCommand}
    {outcome : DispatchResult} (hinv : Invariant honours g)
    (hdispatched : g.db.Dispatched command) :
    Tx.LocksInOrder honours level g env [] [] (recordDispatchOutcome command outcome env)
      fun _ _ _ => True := by
  refine Discipline.locks_bind (locks_lockCalculationJobDispatchContext hinv
    (fun _ => Discipline.locks_throw) fun context hcontext => ?_)
  have hof : ∀ a, g.db.executionAttempts.get? command.executionAttemptId = some a →
      a.calculationJobId = command.jobId := by
    intro a ha
    obtain ⟨a', ha', hjob, -⟩ := hdispatched.attempt
    obtain rfl := Option.some.inj (ha.symm.trans ha')
    exact hjob
  refine Discipline.locks_bind (locks_lockExecutionAttempt hinv hof
    (fun _ => Discipline.locks_throw) fun attempt hid => ?_)
  dsimp only
  split
  · exact Discipline.locks_throw
  split
  · exact Discipline.locks_throw
  refine Discipline.locks_bind (Discipline.locks_select fun g₁ _ _ => ?_)
  refine Discipline.locks_bind (Discipline.locks_select fun g₂ _ _ => ?_)
  have hjob : .forUpdate (.calculationJob context.jobId) ∈
      ([.forUpdate (.executionAttempt command.executionAttemptId),
        .forUpdate (.calculationJob command.jobId)] : List RowLock) := by
    rw [hcontext]
    simp
  have hattempt : .forUpdate (.executionAttempt attempt.id) ∈
      ([.forUpdate (.executionAttempt command.executionAttemptId),
        .forUpdate (.calculationJob command.jobId)] : List RowLock) := by
    rw [hid]
    simp
  split
  · exact Discipline.locks_throw
  split
  · exact Discipline.locks_throw
  split
  · split
    · exact Discipline.locks_throw
    cases outcome with
    | rejected message => exact Discipline.locks_throw
    | _ => exact locks_recordTerminal
  split
  · exact Discipline.locks_throw
  split
  · trivial
  cases outcome with
  | rejected message => exact locks_recordRejection hattempt
  | unknown message => exact locks_recordUnknown hattempt
  | _ => exact locks_recordConfirmation hjob hattempt

/-! ## Reconciliation -/

theorem locks_lockReconciliationJob {jobId : Uuid} (hinv : Invariant honours g)
    {post : List RowLock → List Write → Option LockedReconciliationJob → Prop}
    (hnone : ∀ L', post L' [] none)
    (hsome : ∀ x, x.jobId = jobId → post [.forUpdate (.calculationJob jobId)] [] (some x)) :
    Tx.LocksInOrder honours level g env [] [] (lockReconciliationJob jobId) post := by
  refine locks_selectJob (fun g₁ x hl hx => ?_) hnone fun _ _ hid => hsome _ hid
  simp only [Option.bind_eq_bind, Option.bind_eq_some_iff] at hx
  obtain ⟨j₁, hj₁, -⟩ := hx
  exact job_first hinv hl hj₁

theorem locks_resultFromDurableState {context : ReconciliationAttemptContext}
    {jobStatus : CalculationJobStatus} {attemptStatus : ExecutionAttemptStatus}
    {status : ReconciliationExecutorStatus} :
    Tx.LocksInOrder honours level g env L ws
      (resultFromDurableState context jobStatus attemptStatus status) fun _ _ _ => True := by
  unfold resultFromDurableState
  split
  · exact Discipline.locks_throw
  · trivial

theorem locks_reconcileTerminal {phaseA current : ReconciliationAttemptContext}
    {status final : ReconciliationExecutorStatus} {job : LockedReconciliationJob}
    {attempt : LockedExecutionAttempt} {newer : Bool} :
    Tx.LocksInOrder honours level g env L ws
      (reconcileTerminal phaseA current status final job attempt newer) fun _ _ _ => True := by
  unfold reconcileTerminal
  dsimp only
  split
  · exact Discipline.locks_throw
  split
  · exact Discipline.locks_throw
  split
  · exact Discipline.locks_throw
  · exact locks_resultFromDurableState

/-! ### What is applied -/

section Reconciling

variable {phaseA current : ReconciliationAttemptContext} {status : ReconciliationExecutorStatus}
variable {job : LockedReconciliationJob} {attempt : LockedExecutionAttempt}
variable (hjob : .forUpdate (.calculationJob job.jobId) ∈ L)
variable (hattempt : .forUpdate (.executionAttempt attempt.id) ∈ L)
include hjob hattempt

/-- Attempt and job are updated under their locks. -/
theorem locks_reconcileToTerminal {expected : ExecutionAttemptStatus}
    {statuses : List CalculationJobStatus} :
    Tx.LocksInOrder honours level g env L ws
      (reconcileToTerminal env current status job attempt expected statuses)
      fun _ _ _ => True := by
  refine Discipline.locks_bind (locks_updateHeld hattempt fun L₁ _ _ hkept => ?_)
  refine Discipline.locks_bind (locks_updateHeld (hkept _ hjob) fun _ _ _ _ => ?_)
  split
  · exact Discipline.locks_throw
  · exact locks_resultFromDurableState

theorem locks_reconcileDispatching :
    Tx.LocksInOrder honours level g env L ws
      (reconcileDispatching env phaseA current status job attempt) fun _ _ _ => True := by
  unfold reconcileDispatching
  split
  · exact Discipline.locks_throw
  split
  · refine Discipline.locks_bind (locks_updateHeld hattempt fun L₁ _ _ hkept => ?_)
    refine Discipline.locks_bind (locks_updateHeld (hkept _ hjob) fun _ _ _ _ => ?_)
    split
    · exact Discipline.locks_throw
    · exact locks_resultFromDurableState
  · exact locks_reconcileToTerminal hjob hattempt

theorem locks_reconcileAccepted :
    Tx.LocksInOrder honours level g env L ws
      (reconcileAccepted env phaseA current status job attempt) fun _ _ _ => True := by
  unfold reconcileAccepted
  split
  · exact Discipline.locks_throw
  split
  · exact locks_resultFromDurableState
  · exact locks_reconcileToTerminal hjob hattempt

end Reconciling

/-- A reconciliation locks the job and the attempt that was asked about. -/
theorem locks_applyReconciliation {context : ReconciliationAttemptContext}
    {status : ReconciliationExecutorStatus} (hinv : Invariant honours g)
    (hdescribes : g.db.Describes context) :
    Tx.LocksInOrder honours level g env [] [] (applyReconciliation context status env)
      fun _ _ _ => True := by
  refine Discipline.locks_bind (locks_lockReconciliationJob hinv
    (fun _ => Discipline.locks_throw) fun job hjobId => ?_)
  have hof : ∀ a, g.db.executionAttempts.get? context.executionAttemptId = some a →
      a.calculationJobId = context.jobId := by
    intro a ha
    obtain ⟨a', ha', hjob, -⟩ := hdescribes.attempt
    obtain rfl := Option.some.inj (ha.symm.trans ha')
    exact hjob
  refine Discipline.locks_bind (locks_lockExecutionAttempt hinv hof
    (fun _ => Discipline.locks_throw) fun attempt hid => ?_)
  dsimp only
  split
  · exact Discipline.locks_throw
  split
  · exact Discipline.locks_throw
  refine Discipline.locks_bind (Discipline.locks_select fun g₁ _ _ => ?_)
  split
  · exact Discipline.locks_throw
  refine Discipline.locks_bind (Discipline.locks_select fun g₂ _ _ => ?_)
  have hjob : .forUpdate (.calculationJob job.jobId) ∈
      ([.forUpdate (.executionAttempt context.executionAttemptId),
        .forUpdate (.calculationJob context.jobId)] : List RowLock) := by
    rw [hjobId]
    simp
  have hattempt : .forUpdate (.executionAttempt attempt.id) ∈
      ([.forUpdate (.executionAttempt context.executionAttemptId),
        .forUpdate (.calculationJob context.jobId)] : List RowLock) := by
    rw [hid]
    simp
  split
  · exact locks_reconcileTerminal
  split
  · exact Discipline.locks_throw
  split
  · exact Discipline.locks_throw
  split
  · exact locks_reconcileDispatching hjob hattempt
  · exact locks_reconcileAccepted hjob hattempt
  · exact Discipline.locks_throw

/-! ## Retry -/

/-- A retry locks the version before the job, and the attempt it inserts is new. -/
theorem locks_prepareFailedCalculationJobRetry {state : CalculationJobRunRoutingState}
    (hinv : Invariant honours g) (hrouted : g.db.Routed state) :
    Tx.LocksInOrder honours level g env [] [] (prepareFailedCalculationJobRetry state env)
      fun _ _ _ => True := by
  obtain ⟨j, hj, hv⟩ := hrouted
  have hof : g.db.versionOf? (.calculationJob state.jobId) = some state.datasetVersionId :=
    hv ▸ Store.versionOf?_job hj
  refine Discipline.locks_bind (locks_lockOutputDatasetVersion hinv (fun _ _ => allBelow_nil)
    (fun _ => Discipline.locks_throw) fun d dataset hd => ?_)
  have hbelow : AllBelow level g.db env (lockRank 2 (3 * level d + 1) [])
      [.forUpdate (.datasetVersion state.datasetVersionId)] :=
    .cons (RowLock.below_of_rank (Store.lockRank?_version level hd) (lockRank_lt_place (by omega)))
      allBelow_nil
  dsimp only
  split
  · exact Discipline.locks_throw
  refine Discipline.locks_bind (Discipline.locks_select fun g₁ _ _ => ?_)
  split
  · split
    · exact Discipline.locks_throw
    refine Discipline.locks_bind (locks_lockSelectedCalculationJob
      (.next (hbelow.next (Store.lockRank?_job level hof hd)) (by simp))
      (fun _ => Discipline.locks_throw) fun job hid => ?_)
    dsimp only
    split
    · exact Discipline.locks_throw
    split
    · exact Discipline.locks_throw
    split
    · exact Discipline.locks_throw
    refine Discipline.locks_bind (Discipline.locks_select fun g₂ _ _ => ?_)
    split
    · split
      · exact Discipline.locks_throw
      · trivial
    · refine Discipline.locks_bind (Discipline.locks_select fun g₃ _ _ => ?_)
      exact Discipline.locks_bind (locks_insertPreparedExecutionAttempt (hid ▸ List.mem_cons_self)
        fun _ _ => trivial)
  · exact Discipline.locks_throw

end CostEngine
