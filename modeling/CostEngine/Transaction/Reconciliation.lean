import CostEngine.Transaction.Locking

/-! # `applyReconciliation`

The attempt was described and the executor asked before the transaction began. Both are
old news by the time the locks are granted, but an attempt and its run only move forward:
the description still names the attempt, and a final status is still the status of the
run. -/

namespace CostEngine

open Relational (Table)
open Concurrency (Outcome Txn Discipline)

/-! ## What is known before the transaction -/

structure Store.Describes (s : Store) (context : ReconciliationAttemptContext) : Prop where
  attempt : ∃ a, s.executionAttempts.get? context.executionAttemptId = some a
    ∧ a.calculationJobId = context.jobId ∧ a.attemptNumber = context.attemptNumber
    ∧ a.airflowDagId = context.airflowDagId ∧ a.airflowDagRunId = context.airflowDagRunId
    ∧ a.status ≠ .prepared
  job : ∃ j, s.calculationJobs.get? context.jobId = some j
    ∧ j.outputDatasetVersionId = context.datasetVersionId
  backed : isExecutorBackedAttemptStatus context.attemptStatus = true

theorem Store.Describes.grows {s s' : Store} {context : ReconciliationAttemptContext}
    (h : s.Describes context) (hg : s.Grows s') : s'.Describes context where
  attempt := by
    obtain ⟨a, ha, h₁, h₂, h₃, h₄, h₅⟩ := h.attempt
    obtain ⟨a', ha', hs⟩ := hg.attempt ha
    obtain ⟨-, i₁, i₂, i₃, i₄, -⟩ := attempt_columns hs
    exact ⟨a', ha', i₁.trans h₁, i₂.trans h₂, i₃.trans h₃, i₄.trans h₄,
      attempt_not_prepared hs h₅⟩
  job := by
    obtain ⟨j, hj, hv⟩ := h.job
    obtain ⟨j', hj', hs⟩ := hg.job hj
    exact ⟨j', hj', (job_columns hs).2.1.trans hv⟩
  backed := h.backed

/-- The executor has given the status for the identity, at a time when the attempt had the
local status `phaseA` or a later one. -/
def World.Observed (w : World) (identity : ExecutionIdentity)
    (phaseA : ExecutionAttemptStatus) : ReconciliationExecutorStatus → Prop
  | .running => (w.executor identity).runExists = true ∧ isTerminalAttemptStatus phaseA = false
  | .succeeded => w.executor identity = .succeeded
  | .failed => w.executor identity = .failed

theorem World.Observed.grows {w w' : World} {identity : ExecutionIdentity}
    {phaseA : ExecutionAttemptStatus} {executorStatus : ReconciliationExecutorStatus}
    (h : w.Observed identity phaseA executorStatus) (hw : w.Grows w') :
    w'.Observed identity phaseA executorStatus := by
  have hsteps := hw.executor identity
  cases executorStatus with
  | running => exact ⟨ExternalExecution.runExists_stays hsteps h.1, h.2⟩
  | succeeded =>
      have h : w.executor identity = .succeeded := h
      exact (ExternalExecution.settled_stays hsteps (h ▸ .succeeded)).trans h
  | failed =>
      have h : w.executor identity = .failed := h
      exact (ExternalExecution.settled_stays hsteps (h ▸ .failed)).trans h

theorem World.Observed.runExists {w : World} {identity : ExecutionIdentity}
    {phaseA : ExecutionAttemptStatus} {executorStatus : ReconciliationExecutorStatus}
    (h : w.Observed identity phaseA executorStatus) :
    (w.executor identity).runExists = true := by
  cases executorStatus with
  | running => exact h.1
  | succeeded => rw [show w.executor identity = .succeeded from h]; rfl
  | failed => rw [show w.executor identity = .failed from h]; rfl

/-! ## How it ends -/

/-- What a reconciliation may have changed. -/
structure ReconcileEffect (context : ReconciliationAttemptContext)
    (executorStatus : ReconciliationExecutorStatus) (s s' : Store) : Prop where
  attempts : ∀ id, id ≠ context.executionAttemptId →
    s'.executionAttempts.get? id = s.executionAttempts.get? id
  jobs : ∀ id, s'.calculationJobs.get? id ≠ s.calculationJobs.get? id →
    id = context.jobId ∧
      s.hasNewerExecutionAttempt context.jobId context.attemptNumber = false
  versions : s'.datasetVersions = s.datasetVersions
  final : executorStatus ≠ .running → ∃ a,
    s'.executionAttempts.get? context.executionAttemptId = some a
      ∧ a.status = executorStatus.attemptStatus

structure ReconcileSpec (honours : Prop) (context : ReconciliationAttemptContext)
    (executorStatus : ReconciliationExecutorStatus) (env : TxEnv) (g : Moment)
    (o : Ended CalculationJobReconciliationResult) : Prop where
  commit : ∀ r, o.result = .ok r → Commit honours env.now o.locks g (o.writes.foldl Store.apply g.db)
  effect : ∀ r, o.result = .ok r →
    ReconcileEffect context executorStatus g.db (o.writes.foldl Store.apply g.db)
  error : ∀ e, o.result = .error e → ∃ message, e = .calculationStateInvariant message
  returns : honours → ∃ r, o.result = .ok r

/-! ## The branches -/

section Branches

variable {honours : Prop} {g fl : Moment} {L : List RowLock} {env : TxEnv}
variable {context current : ReconciliationAttemptContext} {job : LockedReconciliationJob}
variable {executorStatus : ReconciliationExecutorStatus}
variable {j : CalculationJob} {a : ExecutionAttempt}

/-! ### The locked rows -/

/-- The locked rows, and what the description says about them. -/
structure Reconciling (honours : Prop) (g : Moment) (L : List RowLock)
    (context current : ReconciliationAttemptContext) (job : LockedReconciliationJob)
    (executorStatus : ReconciliationExecutorStatus) (j : CalculationJob)
    (a : ExecutionAttempt) : Prop where
  invariant : Invariant honours g
  jobRow : g.db.calculationJobs.get? j.id = some j
  attemptRow : g.db.executionAttempts.get? a.id = some a
  owner : a.calculationJobId = j.id
  jobHeld : Row.Held (.calculationJob j.id) L
  attemptHeld : Row.Held (.executionAttempt a.id) L
  attemptId : a.id = context.executionAttemptId
  jobId : j.id = context.jobId
  number : a.attemptNumber = context.attemptNumber
  job_id : job.jobId = j.id
  job_status : job.jobStatus = j.status
  not_draft : current.datasetStatus ≠ .draft
  observed : honours → g.world.Observed a.identity context.attemptStatus executorStatus

variable (h : Reconciling honours g L context current job executorStatus j a)
include h

omit h in
theorem wp_resultFromDurableState {jobStatus : CalculationJobStatus}
    {attemptStatus : ExecutionAttemptStatus} {ws : List Write}
    {post : Ended CalculationJobReconciliationResult → Prop}
    (hdraft : current.datasetStatus ≠ .draft)
    (hpost : ∀ r, post ⟨[], fl, .ok r, L, ws⟩) :
    (discipline honours).Wp g fl L ws
      (resultFromDurableState current jobStatus attemptStatus executorStatus) post := by
  unfold resultFromDurableState
  rw [if_neg hdraft]
  exact Discipline.wp_pure (hpost _)

theorem Reconciling.mem : a ∈ g.db.attemptsOf j.id :=
  h.owner ▸ Store.mem_attemptsOf_of_get? h.attemptRow

/-! ### What a reconciliation does to the rows -/

/-- The reply of a reconciliation that changes nothing. -/
theorem Reconciling.unchanged
    (hfinal : executorStatus ≠ .running → a.status = executorStatus.attemptStatus)
    (seen : List Moment) (last : Moment) (r : CalculationJobReconciliationResult) :
    ReconcileSpec honours context executorStatus env g ⟨seen, last, .ok r, L, []⟩ where
  commit _ _ := .refl h.invariant
  effect _ _ := ⟨fun _ _ => rfl, fun _ hne => absurd rfl hne, rfl,
    fun hr => ⟨a, h.attemptId ▸ h.attemptRow, hfinal hr⟩⟩
  error _ he := by cases he
  returns _ := ⟨r, rfl⟩

/-- An attempt that is not over moves to what the executor says, and its job with it. -/
theorem Reconciling.moved {a' : ExecutionAttempt} {j' : CalculationJob}
    (hstep : AttemptStepAt env.now a a') (hstepj : JobStep j j')
    (hres : j'.resolvedDependencyDefinitionVersionId = j.resolvedDependencyDefinitionVersionId)
    (hstatus : a'.status = executorStatus.attemptStatus)
    (hjob : j'.status = executorStatus.jobStatus)
    (hagrees : honours → a'.status.Agrees (g.world.executor a.identity))
    {L' : List RowLock} (hL' : ∀ r : Row, r.Held L → r.Held L') (seen : List Moment)
    (last : Moment) (r : CalculationJobReconciliationResult) :
    ReconcileSpec honours context executorStatus env g
      ⟨seen, last, .ok r, L', [.putExecutionAttempt a', .putCalculationJob j']⟩ := by
  obtain ⟨hid, -, -, hdag, hrun, -⟩ := hstep.step.columns
  have hjid : j'.id = j.id := hstepj.columns.1
  have hrow : g.db.executionAttempts.get? a'.id = some a := hid.symm ▸ h.attemptRow
  have hrowj : g.db.calculationJobs.get? j'.id = some j := hjid.symm ▸ h.jobRow
  have hidentity : a'.identity = a.identity := by
    simp [ExecutionAttempt.identity, hdag, hrun]
  refine ⟨fun _ _ => ?_, fun _ _ => ⟨fun id hne => ?_, fun id hne => ?_, rfl, fun _ => ?_⟩,
    fun e he => (by cases he), fun _ => ⟨r, rfl⟩⟩
  · -- The attempt is the last of its job, so the status of the job follows from its new status.
    refine Commit.of_put h.invariant (Store.Change.moveAttempt h.invariant.consistent hrow hstep
      hrowj (h.owner.trans hjid.symm) (.inr hstepj) hres ?_ ?_ ?_) rfl (hidentity ▸ hagrees)
    · intro init _
      rw [jobStatusOf_append, hjob, hstatus]
      cases executorStatus <;> rfl
    · exact hid ▸ hL' _ h.attemptHeld
    · exact hjid ▸ hL' _ h.jobHeld
  · exact Table.get?_put.trans (if_neg fun he => hne (he.symm.trans (hid.trans h.attemptId)))
  · -- The only job that changes is its own, and it is the newest attempt of that job.
    have hne' : j'.id = id := by
      by_contra hn
      exact hne (Table.get?_put.trans (if_neg hn))
    refine ⟨hne'.symm.trans (hjid.trans h.jobId), ?_⟩
    rw [← h.jobId, ← h.number]
    exact h.invariant.consistent.not_newer h.jobRow h.mem
      (ExecutionAttemptStatus.not_dead_of_active hstep.step.active)
  · refine ⟨a', ?_, hstatus⟩
    rw [← h.attemptId, ← hid]
    exact Table.get?_put.trans (by rw [if_pos rfl, hrow]; rfl)

/-! ### An attempt that is not final -/

theorem wp_reconcileToTerminal {expected : ExecutionAttemptStatus}
    {expectedStatuses : List CalculationJobStatus} (hs : a.status = expected) (hexpected : expected = .dispatching ∨ expected = .accepted)
    (hjob : j.status ∈ expectedStatuses) (hsucceeded : j.status ≠ .succeeded)
    (hfinal : executorStatus ≠ .running) :
    (discipline honours).Wp g fl L []
      (reconcileToTerminal env current executorStatus job a.asLocked expected
        expectedStatuses)
      (ReconcileSpec honours context executorStatus env g) := by
  refine Discipline.wp_bind
    (wp_updateAttempt h.attemptHeld h.attemptRow hs fun seen₁ last₁ _ _ => ?_)
  rw [Discipline.continues_ok, h.job_id]
  refine Discipline.wp_bind (wp_updateJob h.jobHeld.cons h.jobRow hjob fun seen₂ last₂ _ _ => ?_)
  -- Both updates find the rows that are locked.
  rw [Discipline.continues_ok, if_neg (by simp)]
  refine wp_resultFromDurableState h.not_draft fun r => ?_
  -- The two final answers are the two final statuses.
  have htarget : executorStatus.attemptStatus = .succeeded
      ∨ executorStatus.attemptStatus = .failed := by
    revert hfinal; cases executorStatus <;> decide
  have htarget' : executorStatus.jobStatus = .succeeded
      ∨ executorStatus.jobStatus = .failed := by
    revert hfinal; cases executorStatus <;> decide
  refine h.moved (.finished a _ (hexpected.imp hs.trans hs.trans) htarget)
    (.finished j env.now _ hsucceeded htarget') rfl rfl rfl (fun hho => ?_)
    (fun r hr => hr.cons.cons) _ _ r
  -- A final answer is what the executor has recorded of the run.
  have hobs := h.observed hho
  cases executorStatus with
  | running => exact absurd rfl hfinal
  | succeeded => exact hobs
  | failed => exact hobs

theorem wp_reconcileDispatching (hs : a.status = .dispatching) :
    (discipline honours).Wp g fl L []
      (reconcileDispatching env context current executorStatus job a.asLocked)
      (ReconcileSpec honours context executorStatus env g) := by
  -- The job of an attempt that is being dispatched waits, so the guard below never fires.
  have hwaits := (h.invariant.consistent.history _ j h.jobRow).waiting h.mem (.inr hs)
  have hjob : ¬ (job.jobStatus ≠ .pending ∧ job.jobStatus ≠ .failed) := by
    rw [h.job_status]
    rintro ⟨h₁, h₂⟩
    exact hwaits.elim h₁ h₂
  have hsucceeded : j.status ≠ .succeeded := by
    rcases hwaits with hw | hw <;> rw [hw] <;> decide
  unfold reconcileDispatching
  rw [if_neg hjob]
  by_cases hrunning : executorStatus = .running
  · subst hrunning
    rw [if_pos rfl]
    refine Discipline.wp_bind
      (wp_updateAttempt h.attemptHeld h.attemptRow hs fun seen₁ last₁ _ _ => ?_)
    rw [Discipline.continues_ok, h.job_id]
    refine Discipline.wp_bind (wp_updateJob h.jobHeld.cons h.jobRow ?_ fun seen₂ last₂ _ _ => ?_)
    · -- Accepted on the word of the executor: nothing is final yet.
      simpa using hwaits
    rw [Discipline.continues_ok, if_neg (by simp)]
    refine wp_resultFromDurableState h.not_draft fun r => ?_
    exact h.moved (.acceptedByReconciliation a hs) (.running j env.now hwaits) rfl rfl rfl
      (fun hho => (h.observed hho).runExists) (fun r hr => hr.cons.cons) _ _ r
  · rw [if_neg hrunning]
    exact wp_reconcileToTerminal h hs (.inl rfl) (by simpa using hwaits) hsucceeded hrunning

theorem wp_reconcileAccepted (hs : a.status = .accepted) :
    (discipline honours).Wp g fl L []
      (reconcileAccepted env context current executorStatus job a.asLocked)
      (ReconcileSpec honours context executorStatus env g) := by
  -- The job of an accepted attempt is running.
  have hjob : j.status = .running :=
    (h.invariant.consistent.history _ j h.jobRow).running_iff.mpr ⟨a, h.mem, hs⟩
  unfold reconcileAccepted
  rw [if_neg (not_not.mpr (h.job_status.trans hjob))]
  by_cases hrunning : executorStatus = .running
  · rw [if_pos hrunning]
    exact wp_resultFromDurableState h.not_draft fun r =>
      h.unchanged (fun hr => absurd hrunning hr) _ _ r
  · rw [if_neg hrunning]
    exact wp_reconcileToTerminal h hs (.inr rfl) (by simp [hjob]) (by simp [hjob]) hrunning

/-! ### A final attempt -/

/-- A final attempt was final before, or is what the executor says. -/
theorem wp_reconcileTerminal {finalStatus : ReconciliationExecutorStatus} {newer : Bool}
    (hs : ReconciliationExecutorStatus.ofAttemptStatus? a.status = some finalStatus)
    (hbacked : isExecutorBackedAttemptStatus context.attemptStatus = true)
    (hnewer : newer = g.db.hasNewerExecutionAttempt j.id a.attemptNumber) :
    (discipline honours).Wp g fl L []
      (reconcileTerminal context current executorStatus finalStatus job a.asLocked newer)
      (ReconcileSpec honours context executorStatus env g) := by
  have hterminal : a.status = finalStatus.attemptStatus ∧ finalStatus ≠ .running
      ∧ (a.status = .succeeded ∨ a.status = .failed) := by
    revert hs
    cases a.status <;> simp [ReconciliationExecutorStatus.ofAttemptStatus?] <;> rintro rfl <;>
      simp [ReconciliationExecutorStatus.attemptStatus]
  obtain ⟨hfinal, hnotrunning, hsf⟩ := hterminal
  unfold reconcileTerminal
  rw [if_neg h.not_draft]
  by_cases hcontra : executorStatus ≠ finalStatus ∧ ¬ (executorStatus = .running
      ∧ (context.attemptStatus = .dispatching ∨ context.attemptStatus = .accepted))
  · -- The executor would have said two different things.
    rw [if_pos hcontra]
    refine Discipline.wp_throw ⟨fun r hr => (by cases hr), fun r hr => (by cases hr),
      fun e he => ⟨_, (Except.error.inj he).symm⟩, fun hho => ?_⟩
    have hobs := h.observed hho
    have hagrees := h.invariant.agrees hho _ a h.attemptRow
    exfalso
    cases executorStatus with
    | running =>
        -- Running can only have been observed before the attempt was final, which the guard
        -- allows.
        refine hcontra.2 ⟨rfl, ?_⟩
        have hphase : isTerminalAttemptStatus context.attemptStatus = false := hobs.2
        revert hphase hbacked
        cases context.attemptStatus <;> decide
    | succeeded =>
        have hobs : g.world.executor a.identity = .succeeded := hobs
        -- The row says one final status and the executor the other.
        rw [hfinal, hobs] at hagrees
        cases finalStatus with
        | running => exact hnotrunning rfl
        | succeeded => exact hcontra.1 rfl
        | failed => cases hagrees
    | failed =>
        have hobs : g.world.executor a.identity = .failed := hobs
        rw [hfinal, hobs] at hagrees
        cases finalStatus with
        | running => exact hnotrunning rfl
        | succeeded => cases hagrees
        | failed => exact hcontra.1 rfl
  · rw [if_neg hcontra, if_neg]
    · refine wp_resultFromDurableState h.not_draft fun r => h.unchanged (fun hr => ?_) _ _ r
      -- No contradiction and a final answer: the row has it already.
      rw [hfinal]
      by_contra hne
      refine hcontra ⟨fun he => hne (by rw [he]), fun hh => hr hh.1⟩
    · rintro ⟨hnew, hne⟩
      -- Nothing is newer, so the job has the status of this attempt.
      rw [hnewer] at hnew
      obtain ⟨init, hinit⟩ :=
        h.invariant.consistent.newest_of_not_newer h.jobRow h.mem hnew
      have hh := h.invariant.consistent.history _ j h.jobRow
      rw [hinit] at hh
      exact hne (h.job_status ▸ hh.terminal_status hsf)

end Branches

/-! ## The transaction -/

variable {honours : Prop} {g fl : Moment} {L : List RowLock} {env : TxEnv}

/-! ### The job and its version -/

theorem wp_lockReconciliationJob {jobId : Uuid}
    {post : Ended (Option LockedReconciliationJob) → Prop}
    (hjob : fl.db.calculationJobs.get? jobId ≠ none)
    (hpost : ∀ g₁ last j v, Moment.Grows fl g₁ → (discipline honours).Later L g₁ g →
      g₁.db.datasetVersions.get? j.outputDatasetVersionId = some v → Moment.Grows g₁ last →
      (discipline honours).Later (.forUpdate (.calculationJob jobId) :: L) last g →
      g.db.calculationJobs.get? jobId = some j →
      post ⟨[g₁, last], last, .ok (some {
          jobId := j.id
          jobStatus := j.status
          datasetVersionId := j.outputDatasetVersionId
          datasetStatus := v.status }),
        .forUpdate (.calculationJob jobId) :: L, []⟩) :
    (discipline honours).Wp g fl L [] (lockReconciliationJob jobId) post := by
  refine Discipline.wp_selectJoinForUpdate ?_ ?_ ?_
  · intro x g₁ hl
    have hsame := (later_same hl Row.held_forUpdate).1
    exact (congrArg (Option.map _) hsame).symm
  · intro g₁ hle hinv _ hn
    -- The job was described, and jobs are never deleted.
    obtain ⟨j, hj⟩ := Option.ne_none_iff_exists'.mp hjob
    obtain ⟨j', hj', -⟩ := hle.db.job hj
    obtain ⟨v, -, -, hv, -⟩ := hinv.consistent.references.job _ j' hj'
    simp [hj', hv] at hn
  · intro g₁ v last hle hinv hl hx hle' hl'
    simp only [Option.bind_eq_bind, Option.bind_eq_some_iff] at hx
    obtain ⟨j₁, hj₁, hv⟩ := hx
    -- The job may have changed while the transaction waited, but not its version.
    obtain ⟨j, hj, hs⟩ := hl.le.db.job hj₁
    obtain ⟨-, hversion, -, -⟩ := job_columns hs
    have hv : g₁.db.datasetVersions.get? j.outputDatasetVersionId = some v := by
      rw [hversion]
      exact hv
    have := hpost g₁ last j v hle hl hv hle' hl' hj
    simpa [hj, (Table.get?_key hv : v.id = _)] using this

theorem wp_applyReconciliation {context : ReconciliationAttemptContext}
    {executorStatus : ReconciliationExecutorStatus} (hd : fl.db.Describes context)
    (hobserved : honours → fl.world.Observed ⟨context.airflowDagId, context.airflowDagRunId⟩
      context.attemptStatus executorStatus) :
    (discipline honours).Wp g fl [] [] (applyReconciliation context executorStatus env)
      (ReconcileSpec honours context executorStatus env g) := by
  obtain ⟨j₀, hj₀, -⟩ := hd.job
  refine Discipline.wp_bind (wp_lockReconciliationJob (Table.row_ne_none hj₀) ?_)
  intro g₁ last₁ j v₁ hle₁ hl₁ hv₁ hle₂ hl₂ hj
  rw [Discipline.continues_ok]
  dsimp only
  -- The description was of rows that are there and keep their identity.
  refine Discipline.wp_bind (wp_lockExecutionAttempt ?_ ?_)
  · obtain ⟨a₂, ha₂, -⟩ := (hd.grows (hle₁.trans hle₂).db).attempt
    exact Table.row_ne_none ha₂
  intro seen₃ last₃ a hle₃ hl₃ ha
  rw [Discipline.continues_ok]
  dsimp only
  have hinv : Invariant honours g := hl₂.inv
  have hgfl : Moment.Grows fl g := hle₁.trans hl₁.le
  obtain ⟨a', ha', haj, hnumber, hdag, hrun, hprepared⟩ := (hd.grows hgfl.db).attempt
  obtain rfl : a = a' := Option.some.inj (ha.symm.trans ha')
  obtain ⟨j', hj', hjv⟩ := (hd.grows hgfl.db).job
  obtain rfl : j = j' := Option.some.inj (hj.symm.trans hj')
  have hjid : j.id = context.jobId := Table.get?_key hj
  have haid : a.id = context.executionAttemptId := Table.get?_key ha
  -- The guards on the rows compare columns that never change.
  have howner : ¬ a.asLocked.calculationJobId ≠ j.id := not_not.mpr (haj.trans hjid.symm)
  rw [if_neg howner, if_neg (by simp [ExecutionAttempt.asLocked, hjv, hnumber, hdag, hrun])]
  have hjg : g.db.calculationJobs.get? j.id = some j := hjid.symm ▸ hj
  have hag : g.db.executionAttempts.get? a.id = some a := haid.symm ▸ ha
  have hmem : a ∈ g.db.attemptsOf j.id := by
    rw [hjid, ← haj]
    exact Store.mem_attemptsOf_of_get? ha
  have hLj : Row.Held (.calculationJob j.id) [.forUpdate (.executionAttempt
      context.executionAttemptId), .forUpdate (.calculationJob context.jobId)] :=
    hjid ▸ Row.held_forUpdate.cons
  have hLa : Row.Held (.executionAttempt a.id) [.forUpdate (.executionAttempt
      context.executionAttemptId), .forUpdate (.calculationJob context.jobId)] :=
    haid ▸ Row.held_forUpdate
  obtain ⟨v, hv, -, -⟩ := hinv.consistent.versionOf hj
  refine Discipline.wp_bind (Discipline.wp_select fun g₄ hle₄ hinv₄ hl₄ => ?_)
  rw [Discipline.continues_ok]
  -- The attempt and its job are read again as they are locked, the version as it was then.
  have hsame₄ := later_same hl₄ hLj
  have hj₄ : g₄.db.calculationJobs.get? j.id = some j := hsame₄.1 ▸ hjg
  have ha₄ : g₄.db.executionAttempts.get? a.id = some a := later_same hl₄ hLa ▸ hag
  obtain ⟨v₄, hv₄, -⟩ := hinv₄.consistent.versionOf hj₄
  have hjob₄ : g₄.db.calculationJobs.get? a.calculationJobId = some j := by
    rw [haj, ← hjid]
    exact hj₄
  have hload : ((machine honours).view g₄.db []).reconciliationAttemptContext? a.asLocked.id
      = some {
      executionAttemptId := a.id
      jobId := j.id
      jobStatus := j.status
      datasetVersionId := v₄.id
      datasetStatus := v₄.status
      attemptNumber := a.attemptNumber
      attemptStatus := a.status
      airflowDagId := a.airflowDagId
      airflowDagRunId := a.airflowDagRunId } := by
    simp [Store.reconciliationAttemptContext?, ExecutionAttempt.asLocked, ha₄, hjob₄, hv₄]
  -- An attempt stays an attempt of a frozen version.
  have hdraft : v₄.status ≠ .draft := by
    obtain ⟨w, hw, -, hwd, -⟩ := hinv₄.consistent.frozen_of_attempt hj₄ (hsame₄.2.1 ▸ hmem)
    obtain rfl := Option.some.inj (hv₄.symm.trans hw)
    exact hwd
  rw [hload]
  dsimp only
  refine Discipline.wp_bind (Discipline.wp_select fun g₅ hle₅ hinv₅ hl₅ => ?_)
  rw [Discipline.continues_ok]
  have hnewer : ((machine honours).view g₅.db []).hasNewerExecutionAttempt j.id
      a.asLocked.attemptNumber = g.db.hasNewerExecutionAttempt j.id a.attemptNumber := by
    have : g₅.db.attemptsOf j.id = g.db.attemptsOf j.id := (later_same hl₅ hLj).2.1.symm
    rw [Concurrency.Machine.view_nil]
    unfold Store.hasNewerExecutionAttempt
    rw [this]
    rfl
  rw [hnewer]
  -- What the executor said before the transaction began is still true at its end.
  have hobs : honours → g.world.Observed a.identity context.attemptStatus executorStatus := by
    intro hho
    have := (hobserved hho).grows hgfl.world
    rwa [← hdag, ← hrun] at this
  have hr : ∀ job current, job.jobId = j.id → job.jobStatus = j.status →
      current.datasetStatus ≠ .draft → Reconciling honours g [.forUpdate (.executionAttempt
        context.executionAttemptId), .forUpdate (.calculationJob context.jobId)] context current
        job executorStatus j a :=
    fun job current h₁ h₂ h₃ => ⟨hinv, hjg, hag, haj.trans hjid.symm, hLj, hLa, haid, hjid,
      hnumber, h₁, h₂, h₃, hobs⟩
  -- An attempt that is not final and not active was rejected, which no honest executor says
  -- of an identity that has a run.
  have hfail : ∀ seen last L ws message, a.status = .dispatchFailed →
      ReconcileSpec honours context executorStatus env g
        ⟨seen, last, .error (.calculationStateInvariant message), L, ws⟩ := by
    intro seen last L ws message hs
    refine ⟨fun r hr => (by cases hr), fun r hr => (by cases hr),
      fun e he => ⟨_, (Except.error.inj he).symm⟩, fun hho => ?_⟩
    have hrun := (hobs hho).runExists
    have hagrees := hinv.agrees hho _ a hag
    rw [hs] at hagrees
    rw [show g.world.executor a.identity = .rejected from hagrees] at hrun
    cases hrun
  -- The states seen on the way do not matter to what the transaction leaves.
  have hafter : ∀ {p : Tx CalculationJobReconciliationResult} {last L},
      (discipline honours).Wp g last L [] p (ReconcileSpec honours context executorStatus env g) →
      (discipline honours).Wp g last L [] p fun o => ReconcileSpec honours context
        executorStatus env g (Outcome.after [g₁, last₁] (Outcome.after seen₃
          (Outcome.after [g₄] (Outcome.after [g₅] o)))) :=
    fun h => Discipline.wp_mono h fun o ho => ⟨ho.commit, ho.effect, ho.error, ho.returns⟩
  have hstatus : a.asLocked.status = a.status := rfl
  rw [hstatus]
  cases hfinal : ReconciliationExecutorStatus.ofAttemptStatus? a.status with
  | some finalStatus =>
      exact hafter (wp_reconcileTerminal (hr _ _ rfl rfl hdraft) hfinal hd.backed rfl)
  | none =>
  dsimp only
  have hover : (a.status.isActive = true → False) → a.status = .dispatchFailed := by
    revert hfinal
    cases a.status <;> simp [ReconciliationExecutorStatus.ofAttemptStatus?,
      ExecutionAttemptStatus.isActive]
  by_cases hbuilding : v₄.status = .building
  swap
  · rw [if_pos hbuilding]
    -- An active attempt has a version that is being built.
    refine Discipline.wp_throw (hfail _ _ _ _ _ (hover fun hactive => ?_))
    obtain ⟨w, hw, -, hwb, -⟩ :=
      hinv₄.consistent.building_of_active hj₄ (hsame₄.2.1 ▸ hmem) hactive
    obtain rfl := Option.some.inj (hv₄.symm.trans hw)
    exact hbuilding hwb
  rw [if_neg (not_not.mpr hbuilding)]
  cases hnew : g.db.hasNewerExecutionAttempt j.id a.attemptNumber with
  | true =>
      rw [if_pos rfl]
      -- An active attempt is the newest of its job.
      refine Discipline.wp_throw (hfail _ _ _ _ _ (hover fun hactive => ?_))
      rw [hinv.consistent.not_newer hjg hmem
        (ExecutionAttemptStatus.not_dead_of_active hactive)] at hnew
      cases hnew
  | false =>
  rw [if_neg (by simp)]
  cases hs : a.status with
  | dispatching => exact hafter (wp_reconcileDispatching (hr _ _ rfl rfl hdraft) hs)
  | accepted => exact hafter (wp_reconcileAccepted (hr _ _ rfl rfl hdraft) hs)
  | dispatchFailed => exact Discipline.wp_throw (hfail _ _ _ _ _ hs)
  | prepared => exact absurd hs hprepared
  | _ => rw [hs] at hfinal; cases hfinal

end CostEngine
