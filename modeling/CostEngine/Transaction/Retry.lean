import CostEngine.Transaction.Attempts

/-! # `prepareFailedCalculationJobRetry`

Under the locks of the version and the job, a `FAILED` job of a version being built has
nothing left to contradict: its contract is frozen, and an active attempt is one that
another Run has prepared. -/

namespace CostEngine

open Relational (Table)
open Concurrency (Outcome Txn Discipline)

/-! ## Routing a job -/

/-- What the routing read has found out about a job. -/
def Store.Routed (s : Store) (state : CalculationJobRunRoutingState) : Prop :=
  ∃ j, s.calculationJobs.get? state.jobId = some j
    ∧ j.outputDatasetVersionId = state.datasetVersionId

theorem Store.Routed.grows {s s' : Store} {state : CalculationJobRunRoutingState}
    (h : s.Routed state) (hg : s.Grows s') : s'.Routed state := by
  obtain ⟨j, hj, hv⟩ := h
  obtain ⟨j', hj', hs⟩ := hg.job hj
  exact ⟨j', hj', (job_columns hs).2.1.trans hv⟩

/-! ## How a retry ends -/

/-- The errors of a transaction that prepares an attempt for a frozen version. -/
inductive PrepareConflict : ServiceError → Prop
  | jobNotRunnable (jobId : Uuid) : PrepareConflict (.jobNotRunnable jobId)
  | attemptRoutingRace : PrepareConflict .attemptRoutingRace
  | uuidTaken : PrepareConflict (.uniqueViolation "execution_attempts_pkey")

structure RetrySpec (honours : Prop) (state : CalculationJobRunRoutingState) (env : TxEnv)
    (g : Moment) (o : Ended DurableRunAttempt) : Prop where
  commit : ∀ d, o.result = .ok d → Commit honours env.now o.locks g (o.writes.foldl Store.apply g.db)
  durable : ∀ d, o.result = .ok d →
    (o.writes.foldl Store.apply g.db).Durable d ∧ d.jobId = state.jobId
  versions : ∀ d, o.result = .ok d →
    (o.writes.foldl Store.apply g.db).datasetVersions = g.db.datasetVersions
  error : ∀ e, o.result = .error e → PrepareConflict e

variable {honours : Prop} {g fl : Moment} {env : TxEnv}

/-! ## `prepareFailedCalculationJobRetry` -/

theorem wp_prepareFailedCalculationJobRetry {state : CalculationJobRunRoutingState}
    (hstate : fl.db.Routed state) (hinvfl : Invariant honours fl) :
    (discipline honours).Wp g fl [] [] (prepareFailedCalculationJobRetry state env)
      (RetrySpec honours state env g) := by
  have hfail : ∀ seen last L ws e, PrepareConflict e →
      RetrySpec honours state env g ⟨seen, last, .error e, L, ws⟩ := by
    intro seen last L ws e he
    exact ⟨fun d hd => (by cases hd), fun d hd => (by cases hd), fun d hd => (by cases hd),
      fun e' he' => Except.error.inj he' ▸ he⟩
  obtain ⟨j₀, hj₀, hjv₀⟩ := hstate
  obtain ⟨v₀, -, -, hv₀, -⟩ := hinvfl.consistent.references.job _ j₀ hj₀
  rw [hjv₀] at hv₀
  refine Discipline.wp_bind (wp_lockOutputDatasetVersion (Table.row_ne_none hv₀) ?_)
  intro seen₁ last₁ v hle₁ hl₁ hv
  rw [Discipline.continues_ok]
  dsimp only
  -- The version is read under its own lock.
  have hinv : Invariant honours g := hl₁.inv
  by_cases hbuilding : v.status = .building
  swap
  · rw [if_pos hbuilding]
    exact Discipline.wp_throw (hfail _ _ _ _ _ (.jobNotRunnable _))
  rw [if_neg (not_not.mpr hbuilding)]
  have hvid : v.id = state.datasetVersionId := Table.get?_key hv
  -- A version that is being built has been frozen.
  have hfrozen : g.db.Frozen state.datasetVersionId := by
    have hb := (hinv.consistent.version _ v hv).build
    unfold Store.Build at hb
    rw [hbuilding, hvid] at hb
    exact hb
  obtain ⟨b, hb, hfreeze, hcount⟩ := hinv.consistent.freezeState_of_frozen hv hfrozen
  refine Discipline.wp_bind (wp_readDatasetFreezeState Row.held_forUpdate fun last₂ hle₂ hl₂ => ?_)
  rw [Discipline.continues_ok, hfreeze]
  dsimp only
  rw [if_neg (by simp [hcount])]
  refine Discipline.wp_bind (wp_lockSelectedCalculationJob ?_ ?_)
  · intro g₃ hle₃ _ _
    obtain ⟨j₃, hj₃, -⟩ := (hle₁.trans (hle₂.trans hle₃)).db.job hj₀
    exact ⟨j₃, j₃, hj₃, hj₃, rfl⟩
  intro seen₃ last₃ j dag hle₃ hl₃ hj
  rw [Discipline.continues_ok]
  dsimp only
  have hj : g.db.calculationJobs.get? state.jobId = some j := hj
  have hjid : j.id = state.jobId := Table.get?_key hj
  -- A job stays with its version.
  have hjv : j.outputDatasetVersionId = state.datasetVersionId := by
    obtain ⟨j', hj', hs⟩ := (hle₁.trans hl₁.le).db.job hj₀
    obtain rfl := Option.some.inj (hj.symm.trans hj')
    exact (job_columns hs).2.1.trans hjv₀
  rw [if_neg (not_not.mpr hjv)]
  -- The job is no longer failed: another Run has prepared or finished an attempt.
  by_cases hfailed : j.status = .failed
  swap
  · rw [if_pos hfailed]
    exact Discipline.wp_throw (hfail _ _ _ _ _ .attemptRoutingRace)
  rw [if_neg (not_not.mpr hfailed)]
  have hjg : g.db.calculationJobs.get? j.id = some j := hjid.symm ▸ hj
  have hresolved : j.resolvedDependencyDefinitionVersionId ≠ none := by
    obtain ⟨b', -, hres⟩ := hfrozen
    obtain ⟨d, hd, -⟩ := hres j (Store.mem_jobsOf.mpr ⟨hjg, hjv⟩)
    exact Table.row_ne_none hd
  rw [if_neg hresolved]
  have hh := hinv.consistent.history _ j hjg
  have hLj : Row.Held (.calculationJob j.id) [.forUpdate (.calculationJob state.jobId),
      .forUpdate (.datasetVersion state.datasetVersionId)] := hjid ▸ Row.held_forUpdate
  refine Discipline.wp_bind (wp_findActiveExecutionAttempt hLj (fun _ => rfl) fun last₄ hle₄ hl₄ => ?_)
  rw [Discipline.continues_ok]
  cases hx : g.db.activeAttempt? j.id with
  | some x =>
      obtain ⟨a, ha, hactive, rfl⟩ := Store.of_activeAttempt? hx
      -- An active attempt of a failed job has not been accepted: its job would run.
      have hcond : ¬ (a.asActive.status ≠ .prepared ∧ a.asActive.status ≠ .dispatching) := by
        rintro ⟨h₁, h₂⟩
        have haccepted : a.status = .accepted := by
          revert hactive h₁ h₂
          show _ → a.status ≠ _ → a.status ≠ _ → _
          cases a.status <;> decide
        cases hfailed.symm.trans (hh.running_iff.mpr ⟨a, ha, haccepted⟩)
      dsimp only
      rw [if_neg hcond]
      -- The attempt that another Run prepared is the one to go on with.
      have ha := Store.mem_attemptsOf.mp ha
      exact Discipline.wp_pure ⟨fun _ _ => .refl hinv, fun d hd => Except.ok.inj hd ▸
        ⟨⟨⟨j, hjg, hjv⟩, ⟨b, hb, rfl⟩, a, ha.1, ha.2⟩, hjid⟩, fun _ _ => rfl,
        fun e he => (by cases he)⟩
  | none =>
      -- Every attempt is over, and the next number is prepared.
      have hinactive := Store.activeAttempt?_eq_none.mp hx
      refine Discipline.wp_bind (wp_allocateNextAttemptNumber hLj (fun _ => rfl) hjg hinv ?_)
      intro last₅ hle₅ hl₅
      rw [Discipline.continues_ok]
      refine Discipline.wp_bind (wp_insertPreparedExecutionAttempt hLj (fun _ => rfl) hjg hinv
        hinactive ?_ ?_)
      · intro seen last L'
        exact hfail _ _ _ _ _ .uuidTaken
      intro seen₆ last₆ hfree
      rw [Discipline.continues_ok]
      let L := [RowLock.keyShare (.calculationJob j.id), .forUpdate (.executionAttempt (env.uuid 1)),
        .forUpdate (.calculationJob state.jobId), .forUpdate (.datasetVersion state.datasetVersionId)]
      have hcommit := (Commit.refl (L := L) hinv).insertPrepared env dag rfl hfree hjg
        (hjv.symm ▸ hv) hbuilding (by simp [hfailed]) hinactive Row.held_forUpdate.cons
        hLj.cons.cons
      have hrow := insertPrepared_get? g.db (a := preparedAttempt env (env.uuid 1) j.id
        ((g.db.attemptsOf j.id).length + 1) dag (airflowDagRunIdOf (env.uuid 1))) hfree
      exact Discipline.wp_pure ⟨fun _ _ => hcommit, fun d hd => Except.ok.inj hd ▸
        ⟨⟨⟨j, hjg, hjv⟩, ⟨b, hb, rfl⟩, _, hrow, rfl⟩, hjid⟩, fun _ _ => rfl,
        fun e he => (by cases he)⟩

end CostEngine
