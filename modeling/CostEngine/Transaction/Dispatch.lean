import CostEngine.Transaction.Locking

/-! # `beginDispatch`

The version is read together with the job before the lock is granted, the active attempt
under the lock. The outcome therefore depends on two moments: the one the first statement
saw, and the one in which the transaction ends. -/

namespace CostEngine

open Relation (ReflTransGen)
open Relational (Table)
open Concurrency (Outcome Txn Discipline)

/-! ## What a Run knows about its attempt -/

structure Store.Durable (s : Store) (d : DurableRunAttempt) : Prop where
  job : ∃ j, s.calculationJobs.get? d.jobId = some j
    ∧ j.outputDatasetVersionId = d.datasetVersionId
  snapshot : ∃ b, s.snapshotsOf d.datasetVersionId = [b] ∧ b.id = d.datasetBuildSnapshotId
  attempt : ∃ a, s.executionAttempts.get? d.executionAttemptId = some a
    ∧ a.calculationJobId = d.jobId

theorem Store.Durable.grows {s s' : Store} {d : DurableRunAttempt} (h : s.Durable d)
    (hg : s.Grows s') : s'.Durable d where
  job := by
    obtain ⟨j, hj, hv⟩ := h.job
    obtain ⟨j', hj', hs⟩ := hg.job hj
    exact ⟨j', hj', (job_columns hs).2.1.trans hv⟩
  snapshot := by
    obtain ⟨b, hb, hid⟩ := h.snapshot
    exact ⟨b, (hg.snapshotsOf _ (by rw [hb]; simp)).trans hb, hid⟩
  attempt := by
    obtain ⟨a, ha, hj⟩ := h.attempt
    obtain ⟨a', ha', hs⟩ := hg.attempt ha
    exact ⟨a', ha', (attempt_columns hs).2.1.trans hj⟩

/-- The version is being built. -/
def Store.Building (s : Store) (datasetVersionId : Uuid) : Prop :=
  ∃ v, s.datasetVersions.get? datasetVersionId = some v ∧ v.status = .building

/-- The attempt is `PREPARED`, `DISPATCHING` or `ACCEPTED`. -/
def Store.Active (s : Store) (executionAttemptId : Uuid) : Prop :=
  ∃ a, s.executionAttempts.get? executionAttemptId = some a ∧ a.status.isActive = true

/-! ## The frozen inputs -/

variable {honours : Prop} {g fl g₁ : Moment} {L : List RowLock} {ws : List Write}

/-- Whenever a statement looks, a job that has been attempted has its definition published
and its snapshot in place. -/
theorem inputs_at {jobId : Uuid} {j : CalculationJob} {b : DatasetBuildSnapshot}
    {definitionId : Uuid} (hl : (discipline honours).Later L g₁ g) (hinv : Invariant honours g₁)
    (hheld : Row.Held (.calculationJob jobId) L)
    (hj : g.db.calculationJobs.get? jobId = some j) (hattempts : g.db.attemptsOf jobId ≠ [])
    (hb : g.db.snapshotsOf j.outputDatasetVersionId = [b])
    (hd : j.resolvedDependencyDefinitionVersionId = some definitionId) :
    g₁.db.requiredDomainsOf definitionId = g.db.requiredDomainsOf definitionId
      ∧ g₁.db.frozenDependencies b.id = g.db.frozenDependencies b.id
      ∧ g₁.db.Covers b.id definitionId
      ∧ ∃ d, g₁.db.dependencyDefinitions.get? d.id = some d ∧ d.status = .published
        ∧ d.id = definitionId := by
  obtain ⟨hsj, hsa, -⟩ := later_same hl hheld
  rw [hsj] at hj
  -- The attempts of the locked job are those at the end.
  rw [hsa] at hattempts
  obtain ⟨a, ha⟩ := List.exists_mem_of_ne_nil _ hattempts
  obtain ⟨b₁, hb₁, d, hres, hdef, hp, -, hcov⟩ := hinv.consistent.resolved_of_attempt hj ha
  have hsnap : g.db.snapshotsOf j.outputDatasetVersionId = [b₁] :=
    (hl.le.db.snapshotsOf _ (by rw [hb₁]; simp)).trans hb₁
  rw [hb] at hsnap
  obtain rfl : b = b₁ := by simpa using hsnap
  -- One snapshot and one definition, so what is read is what was frozen.
  rw [hd] at hres
  obtain rfl : definitionId = d.id := Option.some.inj hres
  have hbmem : b ∈ g₁.db.snapshotsOf j.outputDatasetVersionId := by rw [hb₁]; simp
  have hbget := Table.row_ne_none (Store.mem_snapshotsOf.mp hbmem).1
  refine ⟨(Store.requiredDomainsOf_grows hl.le.db hdef hp).symm, ?_, hcov, d, hdef, hp, rfl⟩
  exact (Store.frozenDependencies_grows hinv.consistent.references hl.le.db hbget).symm

/-! ### The command -/

/-- The command of a job whose inputs are frozen: the definition and the snapshot are read
again, and what is read is what was frozen. -/
theorem wp_dispatchCommand {context : LockedCalculationJobDispatchContext}
    {x : ActiveExecutionAttempt} {j : CalculationJob} {b : DatasetBuildSnapshot}
    {definitionId : Uuid} {post : Ended BeginDispatchResult → Prop}
    (hview : ∀ s : Store, ∀ id,
      (ws.foldl Store.apply s).requiredDomainsOf id = s.requiredDomainsOf id
        ∧ (ws.foldl Store.apply s).frozenDependencies id = s.frozenDependencies id)
    (hheld : Row.Held (.calculationJob j.id) L)
    (hj : g.db.calculationJobs.get? j.id = some j) (hattempts : g.db.attemptsOf j.id ≠ [])
    (hb : g.db.snapshotsOf j.outputDatasetVersionId = [b])
    (hd : j.resolvedDependencyDefinitionVersionId = some definitionId)
    (hpost : ∀ seen last upstream,
      List.Forall₂ (fun domain f =>
          (g.db.frozenDependencies b.id).filter (·.identity.domain = domain) = [f])
        (g.db.requiredDomainsOf definitionId) upstream →
      post ⟨seen, last, .ok (.dispatch {
        executionAttemptId := x.id
        attemptNumber := x.attemptNumber
        jobId := context.jobId
        datasetVersionId := context.datasetVersionId
        datasetBuildSnapshotId := b.id
        calculationTypeId := context.calculationTypeId
        calculationTypeCode := context.calculationTypeCode
        resolvedDependencyDefinitionVersionId := definitionId
        airflowDagId := x.airflowDagId
        airflowDagRunId := x.airflowDagRunId
        upstreamDatasetVersions := upstream }), L, ws⟩) :
    (discipline honours).Wp g fl L ws (dispatchCommand context b.id definitionId x) post := by
  refine Discipline.wp_bind (Discipline.wp_select fun g₂ _ hinv₂ hl₂ => ?_)
  obtain ⟨hdomains, -, -⟩ := inputs_at hl₂ hinv₂ hheld hj hattempts hb hd
  rw [Discipline.continues_ok]
  refine Discipline.wp_bind (Discipline.wp_select fun g₃ _ hinv₃ hl₃ => ?_)
  obtain ⟨hdomains₃, hfrozen, hcov, -⟩ := inputs_at hl₃ hinv₃ hheld hj hattempts hb hd
  rw [Discipline.continues_ok]
  -- The transaction has written no row that the command is made of.
  have h₂ : Store.requiredDomainsOf ((machine honours).view g₂.db ws) definitionId
      = g.db.requiredDomainsOf definitionId := (hview g₂.db definitionId).1.trans hdomains
  have h₃ : Store.frozenDependencies ((machine honours).view g₃.db ws) b.id
      = g.db.frozenDependencies b.id := (hview g₃.db b.id).2.trans hfrozen
  rw [h₂, h₃]
  unfold Store.Covers at hcov
  rw [hdomains₃, hfrozen] at hcov
  obtain ⟨upstream, hup, hall⟩ := Store.selectRelevant_eq context.jobId b.id hcov
  simp only [hup]
  exact Discipline.wp_pure (hpost _ _ upstream hall)

/-! ## The transaction -/

/-! ### How a dispatch begins -/

/-- A result that reports the attempt as accepted and the job as running. -/
def CalculationJobRunResult.IsAccepted (r : CalculationJobRunResult) : Prop :=
  r.attemptStatus = .accepted ∧ r.jobStatus = .running

/-- The message of `beginDispatch` for a version that is not `BUILDING`. -/
def DurableRunAttempt.notBuilding (d : DurableRunAttempt) (status : DatasetVersionStatus) :
    String :=
  s!"Active attempt {d.executionAttemptId} belongs to "
    ++ s!"non-BUILDING dataset version {d.datasetVersionId} "
    ++ s!"({status})"

/-- How `beginDispatch` ends in the store `s` with the changes `s'`, when its first statement
saw the store `s₁`. -/
inductive BeginDispatchEnds (d : DurableRunAttempt) (s₁ s s' : Store) :
    Except ServiceError BeginDispatchResult → Prop
  | dispatch (c : DispatchCalculationCommand) : s₁.Building d.datasetVersionId →
      s.Active d.executionAttemptId → s'.Dispatched c →
      c.executionAttemptId = d.executionAttemptId → c.jobId = d.jobId →
      BeginDispatchEnds d s₁ s s' (.ok (.dispatch c))
  | alreadyAccepted (r : CalculationJobRunResult) : s₁.Building d.datasetVersionId →
      s.Active d.executionAttemptId → s' = s → r.IsAccepted →
      BeginDispatchEnds d s₁ s s' (.ok (.alreadyAccepted r))
  | race : s₁.Building d.datasetVersionId → ¬ s.Active d.executionAttemptId →
      BeginDispatchEnds d s₁ s s' (.error .attemptRoutingRace)
  | notBuilding (status : DatasetVersionStatus) : ¬ s₁.Building d.datasetVersionId →
      BeginDispatchEnds d s₁ s s' (.error (.calculationStateInvariant (d.notBuilding status)))

structure BeginDispatchSpec (honours : Prop) (d : DurableRunAttempt) (env : TxEnv) (g : Moment)
    (o : Ended BeginDispatchResult) : Prop where
  ends : ∃ g₁ rest, o.seen = g₁ :: rest ∧
    BeginDispatchEnds d g₁.db g.db (o.writes.foldl Store.apply g.db) o.result
  commit : ∀ r, o.result = .ok r → Commit honours env.now o.locks g (o.writes.foldl Store.apply g.db)
  others : ∀ r, o.result = .ok r → ∀ id a, g.db.executionAttempts.get? id = some a →
    (o.writes.foldl Store.apply g.db).executionAttempts.get? id = some a
      ∨ id = d.executionAttemptId ∧ a.status = .prepared

/-! ### The command of the rows -/

/-- The command that the rows of a job and its attempt make up. -/
def commandOf (j : CalculationJob) (a : ExecutionAttempt) (ct : CalculationType)
    (b : DatasetBuildSnapshot) (definitionId : Uuid)
    (upstream : List FrozenUpstreamDatasetVersion) : DispatchCalculationCommand where
  executionAttemptId := a.id
  attemptNumber := a.attemptNumber
  jobId := j.id
  datasetVersionId := j.outputDatasetVersionId
  datasetBuildSnapshotId := b.id
  calculationTypeId := j.calculationTypeId
  calculationTypeCode := ct.code
  resolvedDependencyDefinitionVersionId := definitionId
  airflowDagId := a.airflowDagId
  airflowDagRunId := a.airflowDagRunId
  upstreamDatasetVersions := upstream

theorem dispatched_commandOf {s : Store} {j : CalculationJob} {a : ExecutionAttempt}
    {ct : CalculationType} {b : DatasetBuildSnapshot} {definition : DependencyDefinition}
    {upstream : List FrozenUpstreamDatasetVersion}
    (ha : s.executionAttempts.get? a.id = some a) (haj : a.calculationJobId = j.id)
    (hstatus : a.status ≠ .prepared) (hj : s.calculationJobs.get? j.id = some j)
    (hct : s.calculationTypes.get? j.calculationTypeId = some ct)
    (hres : j.resolvedDependencyDefinitionVersionId = some definition.id)
    (hdef : s.dependencyDefinitions.get? definition.id = some definition)
    (hpub : definition.status = .published)
    (hb : s.snapshotsOf j.outputDatasetVersionId = [b])
    (hup : List.Forall₂ (fun domain f =>
        (s.frozenDependencies b.id).filter (·.identity.domain = domain) = [f])
      (s.requiredDomainsOf definition.id) upstream) :
    s.Dispatched (commandOf j a ct b definition.id upstream) where
  attempt := ⟨a, ha, haj, rfl, rfl, rfl, hstatus⟩
  job := ⟨j, ct, hj, rfl, rfl, hres, hct, rfl⟩
  definition := ⟨definition, hdef, hpub, rfl⟩
  snapshot := ⟨b, hb, rfl⟩
  upstream := hup

theorem wp_beginDispatch {d : DurableRunAttempt} {env : TxEnv} (hd : fl.db.Durable d) :
    (discipline honours).Wp g fl [] [] (beginDispatch d env) (BeginDispatchSpec honours d env g) := by
  obtain ⟨j₀, hj₀, -⟩ := hd.job
  refine Discipline.wp_bind (wp_lockCalculationJobDispatchContext (Table.row_ne_none hj₀) ?_)
  intro g₁ last j v ct hle₁ hinv₁ hl₁ hv hle₂ hl₂ hj hct
  rw [Discipline.continues_ok]
  dsimp only
  have hinv : Invariant honours g := hl₂.inv
  have hdg : g.db.Durable d := hd.grows (hle₁.trans hl₁.le).db
  obtain ⟨j', hj', hjv⟩ := hdg.job
  obtain rfl : j = j' := Option.some.inj (hj.symm.trans hj')
  -- Routed for this job, whose version never changes.
  have hjid : j.id = d.jobId := Table.get?_key hj
  have hbuilding : g₁.db.Building d.datasetVersionId ↔ v.status = .building := by
    unfold Store.Building
    rw [← hjv, hv]
    simp
  by_cases hstatus : v.status = .building
  swap
  · -- The version has moved on since the job was routed.
    rw [if_pos hstatus, hjv]
    exact Discipline.wp_throw ⟨⟨g₁, _, rfl, .notBuilding v.status (by rwa [hbuilding])⟩, fun _ hr => (by cases hr),
      fun _ hr => (by cases hr)⟩
  rw [if_neg (not_not.mpr hstatus)]
  have hbuild := hbuilding.mpr hstatus
  -- What is frozen, and the attempt, as they are in the end.
  obtain ⟨a, ha, haj⟩ := hdg.attempt
  have haid : a.id = d.executionAttemptId := Table.get?_key ha
  have hmem : a ∈ g.db.attemptsOf d.jobId := haj ▸ Store.mem_attemptsOf_of_get? ha
  have hne : g.db.attemptsOf d.jobId ≠ [] := List.ne_nil_of_mem hmem
  have hactive : g.db.Active d.executionAttemptId ↔ a.status.isActive = true := by
    unfold Store.Active
    rw [ha]
    simp
  have hh := hinv.consistent.history _ j hj
  obtain ⟨b, hb, definition, hres, hdef, hpub, -, -⟩ := hinv.consistent.resolved_of_attempt hj hmem
  -- The snapshot the routing saw is the only one of the version.
  obtain ⟨b', hb', hbid⟩ := hdg.snapshot
  obtain rfl : b = b' := by
    rw [hjv] at hb
    simpa using hb.symm.trans hb'
  refine Discipline.wp_bind (Discipline.wp_select fun g₂ hle₃ hinv₃ hl₃ => ?_)
  rw [Discipline.continues_ok]
  have hsnap : Store.snapshotIds ((machine honours).view g₂.db []) j.outputDatasetVersionId
      = [b.id] := by
    obtain ⟨b₂, hb₂, hid₂⟩ := (hd.grows (hle₁.trans (hle₂.trans hle₃)).db).snapshot
    rw [Concurrency.Machine.view_nil, hjv, Store.snapshotIds_eq hb₂, hid₂, hbid]
  rw [hsnap, hres]
  dsimp only
  rw [if_neg (not_not.mpr hbid)]
  refine Discipline.wp_bind (wp_lockActiveExecutionAttempt (hjid ▸ Row.held_forUpdate) ?_ ?_)
  · intro seen last' hx hle₄ hl₄
    -- Nothing is active any more: another Run was faster.
    rw [Discipline.continues_ok]
    refine Discipline.wp_throw ⟨⟨g₁, _, rfl, .race hbuild ?_⟩, fun _ hr => (by cases hr),
      fun _ hr => (by cases hr)⟩
    rw [hactive, Store.activeAttempt?_eq_none.mp hx a (hjid ▸ hmem)]
    decide
  intro seen last' x hx hle₄ hl₄
  obtain ⟨a', ha', hact, rfl⟩ := Store.of_activeAttempt? hx
  rw [Discipline.continues_ok]
  dsimp only [ExecutionAttempt.asActive]
  by_cases hid : a'.id = d.executionAttemptId
  swap
  · -- What is active now is not the attempt that was routed to.
    rw [if_pos hid]
    refine Discipline.wp_throw ⟨⟨g₁, _, rfl, .race hbuild fun hn => hid ?_⟩, fun _ hr => (by cases hr),
      fun _ hr => (by cases hr)⟩
    rw [hh.eq_of_active (hjid ▸ ha') hmem hact (hactive.mp hn), haid]
  rw [if_neg (not_not.mpr hid)]
  obtain rfl : a' = a := by
    have := (Store.mem_attemptsOf.mp ha').1
    rw [hid, ha] at this
    exact (Option.some.inj this).symm
  by_cases haccepted : a'.status = .accepted
  · -- Another Run has dispatched the attempt, and its answer is recorded.
    rw [if_pos haccepted]
    have hrunning : j.status = .running := hh.running_iff.mpr ⟨a', hmem, haccepted⟩
    rw [if_neg (not_not.mpr hrunning)]
    exact Discipline.wp_pure ⟨⟨g₁, _, rfl, .alreadyAccepted _ hbuild (hactive.mpr hact) rfl
      ⟨rfl, rfl⟩⟩, fun _ _ => .refl hinv, fun _ _ _ _ ha => .inl ha⟩
  rw [if_neg haccepted]
  have hwaits : a'.status = .prepared ∨ a'.status = .dispatching := by
    revert hact haccepted
    cases a'.status <;> decide
  -- An attempt that waits has a job that waits.
  have hjob : ¬ (j.status ≠ .pending ∧ j.status ≠ .failed) := by
    rcases hh.waiting hmem hwaits with h | h <;> simp [h]
  rw [if_neg hjob]
  -- The command of the rows as they are after the transition, if there is one.
  obtain ⟨ct', hct', -, hcode⟩ := hl₁.le.db.type hct
  have hjob' : g.db.calculationJobs.get? j.id = some j := hjid.symm ▸ hj
  have hanyof : g.db.attemptsOf j.id ≠ [] := hjid.symm ▸ hne
  -- The attempt goes from `PREPARED` to `DISPATCHING` before the command is sent.
  by_cases hprepared : a'.status = .prepared
  · rw [if_pos hprepared]
    refine Discipline.wp_bind (wp_updateAttempt Row.held_forUpdate ?_ hprepared ?_)
    · exact haid.symm ▸ ha
    intro seen₅ last₅ hle₅ hl₅
    rw [Discipline.continues_ok, if_pos rfl]
    refine wp_dispatchCommand (fun _ _ => ⟨rfl, rfl⟩) ?_ hjob' hanyof hb hres ?_
    · exact hjid ▸ Row.held_forUpdate.cons.cons
    intro seen₆ last₆ upstream hall
    have hstep : AttemptStepAt env.now a' (a'.dispatching env.now) := .dispatching a' hprepared
    have hrow : g.db.executionAttempts.get? (a'.dispatching env.now).id = some a' :=
      haid.symm ▸ ha
    refine ⟨⟨g₁, _, rfl, .dispatch _ hbuild (hactive.mpr hact) ?_ hid hjid⟩, fun _ _ => ?_,
      fun _ _ id b hb => ?_⟩
    · rw [← hcode]
      refine dispatched_commandOf (a := a'.dispatching env.now) ?_ (haj.trans hjid.symm)
        hstep.step.not_prepared hjob' hct' hres hdef hpub hb hall
      exact Table.get?_put.trans (by rw [if_pos rfl, hrow]; rfl)
    · refine Commit.of_put hinv (Store.Change.moveAttemptOnly hinv.consistent hrow hstep
        (haj.symm ▸ hj) (.inl hprepared) (.inl rfl) ?_ ?_) rfl fun _ => trivial
      · exact Row.held_noKeyUpdate
      · exact haj.symm ▸ hjid ▸ Row.held_forUpdate.cons.cons
    · by_cases hne : a'.id = id
      · subst hne
        obtain rfl := Option.some.inj (hrow.symm.trans hb)
        exact .inr ⟨hid, hprepared⟩
      · exact .inl (Table.get?_put.trans ((if_neg hne).trans hb))
  · -- Another Run has begun the dispatch, and the same command is sent again.
    rw [if_neg hprepared]
    refine wp_dispatchCommand (fun _ _ => ⟨rfl, rfl⟩) ?_ hjob' hanyof hb hres ?_
    · exact hjid ▸ Row.held_forUpdate.cons
    intro seen₆ last₆ upstream hall
    refine ⟨⟨g₁, _, rfl, .dispatch _ hbuild (hactive.mpr hact) ?_ hid hjid⟩, fun _ _ => ?_,
      fun _ _ _ _ ha => .inl ha⟩
    · rw [← hcode]
      exact dispatched_commandOf (haid.symm ▸ ha) (haj.trans hjid.symm) hprepared hjob' hct' hres
        hdef hpub hb hall
    · exact .refl hinv

end CostEngine
