import CostEngine.Transaction.Locking

/-! # The lifecycle commands

Submit for validation, publish or reject, and abandon. Under the lock of the version its
status decides the branch; the jobs and attempts, locked one by one, then decide whether the
version may move. The checks for corruption never fire. -/

namespace CostEngine

open Relational (Table)
open Concurrency (Outcome Txn Discipline)

variable {honours : Prop} {g fl : Moment} {L : List RowLock} {env : TxEnv}

/-! ## The rows of a version -/

/-- The columns that a lifecycle command returns. -/
def DatasetVersion.asLifecycle (v : DatasetVersion) : LockedLifecycleDataset where
  datasetSeriesId := v.datasetSeriesId
  datasetVersionId := v.id
  version := v.version
  datasetStatus := v.status

def CalculationJob.asLifecycle (j : CalculationJob) : LockedLifecycleJob where
  id := j.id
  status := j.status

def ExecutionAttempt.asLifecycle (a : ExecutionAttempt) : LockedLifecycleAttempt where
  id := a.id
  calculationJobId := a.calculationJobId
  status := a.status

/-! ## Locking the jobs and the attempts -/

/-- Rows locked one after the other are read as they are at the end. -/
theorem wp_lockRows {α : Type} {rowOf : Uuid → Row} {find : Uuid → Store → Option α}
    {ids : List Uuid} {post : Ended (List α) → Prop} (hle : Moment.Grows fl g)
    (hfind : ∀ id s s', (rowOf id).Same s s' → find id s' = find id s)
    (hpost : ∀ seen last L', Moment.Grows fl last → Moment.Grows last g →
      (∀ r : Row, r.Held L → r.Held L') → (∀ id ∈ ids, (rowOf id).Held L') →
      post ⟨seen, last, .ok (ids.filterMap fun id => find id g.db), L', []⟩) :
    (discipline honours).Wp g fl L [] (lockRows (fun id => .forUpdate (rowOf id)) find ids)
      post := by
  induction ids generalizing fl L post with
  | nil => exact Discipline.wp_pure (hpost _ _ _ .refl hle (fun _ h => h) (by simp))
  | cons id ids ih =>
      refine Discipline.wp_bind (Discipline.wp_lock fun g₁ hle₁ hl₁ => ?_)
      rw [Discipline.continues_ok]
      refine Discipline.wp_bind (Discipline.wp_select fun g₂ hle₂ _ hl₂ => ?_)
      rw [Discipline.continues_ok]
      have hrow : find id g₂.db = find id g.db :=
        (hfind id _ _ (later_same hl₂ Row.held_forUpdate)).symm
      -- The rest is locked from a later state, with this lock held as well.
      refine Discipline.wp_bind (ih hl₂.le fun seen₃ last₃ L' hle₃ hg₃ hL hheld => ?_)
      rw [Discipline.continues_ok, Concurrency.Machine.view_nil, hrow]
      have hcons : (find id g.db).toList ++ ids.filterMap (fun id => find id g.db)
          = (id :: ids).filterMap fun id => find id g.db := by
        rw [List.filterMap_cons]
        cases find id g.db <;> rfl
      rw [hcons]
      refine Discipline.wp_pure (hpost _ last₃ L' (Moment.Grows.trans hle₁
        (Moment.Grows.trans hle₂ hle₃)) hg₃ (fun r hr => hL r hr.cons) ?_)
      intro id' hid'
      rcases List.mem_cons.mp hid' with rfl | hid'
      · exact hL _ Row.held_forUpdate
      · exact hheld id' hid'

/-- The version fixes the ids of its jobs. -/
theorem lifecycleJobIds_eq {s s' : Store} {v : Uuid} (h : (Row.datasetVersion v).Same s s') :
    s'.lifecycleJobIds v = s.lifecycleJobIds v := by
  have hids := congrArg (List.map (·.1)) h.2.2
  rw [List.map_map, List.map_map] at hids
  unfold Store.lifecycleJobIds
  exact congrArg (orderBy _) hids

theorem mem_lifecycleJobIds {s : Store} {v id : Uuid} :
    id ∈ s.lifecycleJobIds v ↔ ∃ j ∈ s.jobsOf v, j.id = id := by
  unfold Store.lifecycleJobIds
  rw [mem_orderBy, List.mem_map]

theorem mem_lifecycleAttemptIds {s : Store} {v id : Uuid} :
    id ∈ s.lifecycleAttemptIds v ↔
      ∃ j ∈ s.jobsOf v, ∃ a ∈ s.attemptsOf j.id, a.id = id := by
  unfold Store.lifecycleAttemptIds
  simp only [List.mem_flatMap, List.mem_map, List.mem_insertionSort, mem_lifecycleJobIds]
  constructor
  · rintro ⟨_, ⟨j, hj, rfl⟩, a, ha, rfl⟩
    exact ⟨j, hj, a, ha, rfl⟩
  · rintro ⟨j, hj, a, ha, rfl⟩
    exact ⟨j.id, ⟨j, hj, rfl⟩, a, ha, rfl⟩

/-- The jobs of a locked version, each under its own lock. -/
theorem wp_lockLifecycleJobs {v : Uuid} {post : Ended (List LockedLifecycleJob) → Prop}
    (hheld : Row.Held (.datasetVersion v) L)
    (hpost : ∀ seen last L' jobs, Moment.Grows fl last → Moment.Grows last g →
      (∀ r : Row, r.Held L → r.Held L') →
      (∀ j ∈ g.db.jobsOf v, Row.Held (.calculationJob j.id) L') →
      (∀ x, x ∈ jobs ↔ ∃ j ∈ g.db.jobsOf v, j.asLifecycle = x) →
      post ⟨seen, last, .ok jobs, L', []⟩) :
    (discipline honours).Wp g fl L [] (lockLifecycleJobs v) post := by
  refine Discipline.wp_bind (Discipline.wp_select fun g₁ hle₁ _ hl₁ => ?_)
  rw [Discipline.continues_ok, Concurrency.Machine.view_nil,
    ← lifecycleJobIds_eq (later_same hl₁ hheld)]
  -- The jobs a locked version has are fixed, so the ids that were read are those at the end.
  refine wp_lockRows hl₁.le ?_ ?_
  · intro id s s' h
    rw [h.1]
  intro seen₂ last₂ L' hle₂ hg₂ hL hrows
  refine hpost _ last₂ L' _ (Moment.Grows.trans hle₁ hle₂) hg₂ hL ?_ ?_
  · exact fun j hj => hrows j.id (mem_lifecycleJobIds.mpr ⟨j, hj, rfl⟩)
  intro x
  simp only [List.mem_filterMap, mem_lifecycleJobIds, Option.map_eq_some_iff,
    Option.filter_eq_some_iff, decide_eq_true_eq]
  constructor
  · -- An id names one row, and only the row at the end is read under its lock.
    rintro ⟨_, ⟨j, hj, rfl⟩, cj, ⟨hcj, -⟩, rfl⟩
    obtain rfl := Option.some.inj ((Store.mem_jobsOf.mp hj).1.symm.trans hcj)
    exact ⟨j, hj, rfl⟩
  · rintro ⟨j, hj, rfl⟩
    exact ⟨j.id, ⟨j, hj, rfl⟩, j, Store.mem_jobsOf.mp hj, rfl⟩

/-- The attempts of the locked jobs, each under its own lock. -/
theorem wp_lockLifecycleAttempts {v : Uuid}
    {post : Ended (List LockedLifecycleAttempt) → Prop}
    (hheld : Row.Held (.datasetVersion v) L)
    (hjobs : ∀ j ∈ g.db.jobsOf v, Row.Held (.calculationJob j.id) L)
    (hpost : ∀ seen last L' attempts, Moment.Grows fl last → Moment.Grows last g →
      (∀ r : Row, r.Held L → r.Held L') →
      (∀ x, x ∈ attempts ↔ ∃ j ∈ g.db.jobsOf v, ∃ a ∈ g.db.attemptsOf j.id,
        a.asLifecycle = x) →
      post ⟨seen, last, .ok attempts, L', []⟩) :
    (discipline honours).Wp g fl L [] (lockLifecycleAttempts v) post := by
  refine Discipline.wp_bind (Discipline.wp_select fun g₁ hle₁ _ hl₁ => ?_)
  have hids : g₁.db.lifecycleAttemptIds v = g.db.lifecycleAttemptIds v := by
    unfold Store.lifecycleAttemptIds
    rw [← lifecycleJobIds_eq (later_same hl₁ hheld)]
    -- The ids of the jobs are fixed by the version, those of the attempts by each job.
    refine List.flatMap_congr fun id hid => ?_
    obtain ⟨j, hj, rfl⟩ := mem_lifecycleJobIds.mp hid
    rw [(later_same hl₁ (hjobs j hj)).2.1]
  rw [Discipline.continues_ok, Concurrency.Machine.view_nil, hids]
  refine wp_lockRows hl₁.le ?_ ?_
  · intro id s s' h
    have h : _ = _ := h
    rw [h]
  intro seen₂ last₂ L' hle₂ hg₂ hL _
  refine hpost _ last₂ L' _ (Moment.Grows.trans hle₁ hle₂) hg₂ hL fun x => ?_
  simp only [List.mem_filterMap, mem_lifecycleAttemptIds, Option.map_eq_some_iff]
  constructor
  · -- As for the jobs: an id names one row, which is the one at the end.
    rintro ⟨_, ⟨j, hj, a, ha, rfl⟩, ea, hea, rfl⟩
    obtain rfl := Option.some.inj ((Store.mem_attemptsOf.mp ha).1.symm.trans hea)
    exact ⟨j, hj, a, ha, rfl⟩
  · rintro ⟨j, hj, a, ha, rfl⟩
    exact ⟨a.id, ⟨j, hj, a, ha, rfl⟩, a, (Store.mem_attemptsOf.mp ha).1, rfl⟩

/-! ## How a command ends -/

/-- The errors of a command whose version exists. -/
inductive LifecycleConflict : ServiceError → Prop
  | notReadyForValidation : LifecycleConflict .datasetNotReadyForValidation
  | activeExecution : LifecycleConflict .datasetHasActiveExecution
  | stateConflict : LifecycleConflict .datasetStateConflict

/-- The end of a command, by what the version is when it ends. -/
inductive LifecycleEnds (target : LifecycleTarget) (now : Time) (v : DatasetVersion) :
    Except ServiceError LockedLifecycleDataset → List Write → Prop
  | holds : v.status = target.status → LifecycleEnds target now v (.ok v.asLifecycle) []
  | moves : v.status ∈ target.sources → LifecycleEnds target now v
      (.ok (target.columns now v).asLifecycle) [.putDatasetVersion (target.columns now v)]
  | refused (e : ServiceError) (ws : List Write) : v.status ≠ target.status →
      LifecycleConflict e → LifecycleEnds target now v (.error e) ws

/-- The version may be missing only when the command looks for it. -/
structure LifecycleSpec (honours : Prop) (id : Uuid) (target : LifecycleTarget) (env : TxEnv)
    (g : Moment) (o : Ended LockedLifecycleDataset) : Prop where
  commit : ∀ d, o.result = .ok d → Commit honours env.now o.locks g (o.writes.foldl Store.apply g.db)
  ends : (∃ v, g.db.datasetVersions.get? id = some v
      ∧ LifecycleEnds target env.now v o.result o.writes)
    ∨ o.result = .error (.datasetVersionNotFound id)
      ∧ ∃ g₁ ∈ o.seen, g₁.db.datasetVersions.get? id = none

namespace LifecycleSpec

variable {id : Uuid} {target : LifecycleTarget} {v : DatasetVersion} {seen : List Moment}
variable {last : Moment} {ws : List Write}

theorem of_holds (hinv : Invariant honours g) (hv : g.db.datasetVersions.get? id = some v)
    (hstatus : v.status = target.status) :
    LifecycleSpec honours id target env g ⟨seen, last, .ok v.asLifecycle, L, []⟩ :=
  ⟨fun _ _ => .refl hinv, .inl ⟨v, hv, .holds hstatus⟩⟩

theorem of_refused (hv : g.db.datasetVersions.get? id = some v)
    (hstatus : v.status ≠ target.status) {e : ServiceError} (he : LifecycleConflict e) :
    LifecycleSpec honours id target env g ⟨seen, last, .error e, L, ws⟩ :=
  ⟨fun _ hd => (by cases hd), .inl ⟨v, hv, .refused e ws hstatus he⟩⟩

theorem of_moves (hv : g.db.datasetVersions.get? id = some v)
    (hsource : v.status ∈ target.sources)
    (hcommit : Commit honours env.now L g
      (g.db.apply (.putDatasetVersion (target.columns env.now v)))) :
    LifecycleSpec honours id target env g ⟨seen, last,
      .ok (target.columns env.now v).asLifecycle, L,
      [.putDatasetVersion (target.columns env.now v)]⟩ :=
  ⟨fun _ _ => hcommit, .inl ⟨v, hv, .moves hsource⟩⟩

end LifecycleSpec

/-! ## The commands -/

/-! ### The version under its lock -/

theorem wp_lockLifecycleDataset {id : Uuid}
    {post : Ended (Option LockedLifecycleDataset) → Prop}
    (hnone : ∀ g₁, Moment.Grows fl g₁ → g₁.db.datasetVersions.get? id = none →
      post ⟨[g₁], g₁, .ok none, L, []⟩)
    (hsome : ∀ seen last v, Moment.Grows fl last →
      (discipline honours).Later (.forUpdate (.datasetVersion id) :: L) last g →
      g.db.datasetVersions.get? id = some v →
      post ⟨seen, last, .ok (some v.asLifecycle), .forUpdate (.datasetVersion id) :: L, []⟩) :
    (discipline honours).Wp g fl L [] (lockLifecycleDataset id) post := by
  refine Discipline.wp_selectForUpdate ?_ ?_ ?_
  · intro g₁ hl
    have hsame := (later_same hl Row.held_forUpdate).1
    exact (congrArg (Option.map _) hsame).symm
  · intro g₁ hle _ _ hn
    exact hnone g₁ hle (Option.map_eq_none_iff.mp hn)
  · intro g₁ row last hle hrow hle' hl
    obtain ⟨v₁, hv₁, -⟩ := Option.map_eq_some_iff.mp hrow
    obtain ⟨v, hv, -⟩ := (Moment.Grows.trans hle' hl.le).db.version hv₁
    -- Versions are never deleted, so the row that was found is there at the end.
    have hview : ((machine honours).view g.db []).lifecycleDataset? id = some v.asLifecycle :=
      congrArg (Option.map DatasetVersion.asLifecycle) hv
    rw [hview]
    exact hsome _ last v (Moment.Grows.trans hle hle') hl hv

/-! ### The guarded update -/

/-- Under the lock of the version, and in a state it may move from, it moves. -/
theorem wp_applyTransition {id : Uuid} {target : LifecycleTarget} {v : DatasetVersion}
    {post : Ended LockedLifecycleDataset → Prop}
    (hheld : Row.Held (.datasetVersion id) L)
    (hv : g.db.datasetVersions.get? id = some v) (hsource : v.status ∈ target.sources)
    (hpost : ∀ seen last, post ⟨seen, last, .ok (target.columns env.now v).asLifecycle,
      .noKeyUpdate (.datasetVersion id) :: L,
      [.putDatasetVersion (target.columns env.now v)]⟩) :
    (discipline honours).Wp g fl L [] (applyTransition env v.asLifecycle target) post := by
  obtain rfl : v.id = id := Table.get?_key hv
  have hfind : ∀ g₁, (discipline honours).Later L g₁ g →
      (g₁.db.datasetVersions.get? v.id).filter (·.status ∈ target.sources) = some v := by
    intro g₁ hl
    rw [← (later_same hl hheld).1, hv]
    simp [Option.filter, hsource]
  have hfind' : (g.db.datasetVersions.get? v.id).filter (·.status ∈ target.sources)
      = some v := by
    rw [hv]
    simp [Option.filter, hsource]
  refine Discipline.wp_bind (Discipline.wp_bind (Discipline.wp_updateReturning ?_ ?_ ?_ ?_))
  · -- Under the lock the guard of the update holds from first to last.
    intro g₁ hl
    exact (hfind g₁ (hl.mono fun l hl => List.mem_cons_of_mem _ hl)).trans hfind'.symm
  · intro g₁ _ _ hl hn
    exact Table.no_row hn (hfind g₁ hl)
  · intro seen last _ _ hn
    exact Table.no_row hn hfind'
  · intro seen last row hle hl hr
    obtain rfl := Option.some.inj (hfind'.symm.trans hr)
    refine Discipline.wp_pure (Discipline.wp_pure ?_)
    cases target <;> exact hpost _ _

/-- Nothing but the version has changed, so agreement with the executor is kept. -/
theorem Commit.moveVersion (hinv : Invariant honours g) {target : LifecycleTarget}
    {v : DatasetVersion}
    (h : g.db.Change env.now L (g.db.apply (.putDatasetVersion (target.columns env.now v)))) :
    Commit honours env.now L g (g.db.apply (.putDatasetVersion (target.columns env.now v))) :=
  .of_change hinv h fun _ _ _ ha => .inl ha

/-! ### `submitDatasetValidation` -/

/-- A version has jobs. -/
theorem jobs_isEmpty (hinv : Invariant honours g) {id : Uuid} {v : DatasetVersion}
    (hv : g.db.datasetVersions.get? id = some v) {jobs : List LockedLifecycleJob}
    (hjobs : ∀ x, x ∈ jobs ↔ ∃ j ∈ g.db.jobsOf id, j.asLifecycle = x) :
    jobs.isEmpty = false := by
  -- Every version was created with a job.
  have hid : v.id = id := Table.get?_key hv
  obtain ⟨j, hj⟩ := List.exists_mem_of_ne_nil _ (hinv.consistent.version _ v hv).jobs
  rw [hid] at hj
  exact List.isEmpty_eq_false_iff_exists_mem.mpr ⟨_, (hjobs _).mpr ⟨j, hj, rfl⟩⟩

theorem wp_submitDatasetValidation {id : Uuid} :
    (discipline honours).Wp g fl [] [] (submitDatasetValidation id env)
      (LifecycleSpec honours id .validating env g) := by
  refine Discipline.wp_bind (wp_lockLifecycleDataset ?_ ?_)
  · intro g₁ _ hnone
    rw [Discipline.continues_ok]
    exact Discipline.wp_throw ⟨fun _ hd => (by cases hd), .inr ⟨rfl, g₁, by simp [Outcome.after], hnone⟩⟩
  intro seen₁ last₁ v hle₁ hl₁ hv
  rw [Discipline.continues_ok]
  dsimp only
  have hinv : Invariant honours g := hl₁.inv
  have hid : v.id = id := Table.get?_key hv
  have hstatus : v.asLifecycle.datasetStatus = v.status := rfl
  rw [hstatus]
  -- Submitting twice is one submission.
  by_cases hvalidating : v.status = .validating
  · rw [if_pos hvalidating]
    exact Discipline.wp_pure (.of_holds hinv hv hvalidating)
  rw [if_neg hvalidating]
  have hvalidating : v.status ≠ LifecycleTarget.validating.status := hvalidating
  by_cases hdraft : v.status = .draft
  · rw [if_pos hdraft]
    exact Discipline.wp_throw (.of_refused hv hvalidating .notReadyForValidation)
  rw [if_neg hdraft]
  -- Neither building nor validating: it is over, or was decided.
  by_cases hbuilding : v.status = .building
  swap
  · rw [if_pos hbuilding]
    exact Discipline.wp_throw (.of_refused hv hvalidating .stateConflict)
  rw [if_neg (not_not.mpr hbuilding)]
  refine Discipline.wp_bind (wp_lockLifecycleJobs Row.held_forUpdate ?_)
  intro seen₂ last₂ L₂ jobs hle₂ hg₂ hL₂ hjobs₂ hjobs
  rw [Discipline.continues_ok]
  rw [if_neg (by simp [jobs_isEmpty hinv hv hjobs])]
  refine Discipline.wp_bind (wp_lockLifecycleAttempts (hL₂ _ Row.held_forUpdate) hjobs₂ ?_)
  intro seen₃ last₃ L₃ attempts hle₃ hg₃ hL₃ hattempts
  rw [Discipline.continues_ok]
  -- A succeeded job has no active attempt.
  have hfind : attempts.find? (fun attempt => attempt.calculationJobId
      ∈ (jobs.filter (·.status = .succeeded)).map (·.id) ∧ attempt.status.isActive = true)
        = none := by
    refine List.find?_eq_none.mpr fun x hx hc => ?_
    obtain ⟨j, hj, a, ha, rfl⟩ := (hattempts x).mp hx
    rw [decide_eq_true_eq, List.mem_map] at hc
    obtain ⟨⟨y, hy, hyid⟩, hactive⟩ := hc
    rw [List.mem_filter, decide_eq_true_eq] at hy
    obtain ⟨j', hj', rfl⟩ := (hjobs y).mp hy.1
    have haj : a.calculationJobId = j.id := (Store.mem_attemptsOf.mp ha).2
    have hjj : j'.id = j.id := hyid.trans haj
    have hget := (Store.mem_jobsOf.mp hj').1
    have hh := hinv.consistent.history _ j' hget
    -- The final attempt of a succeeded job is its only one that is not dead.
    rw [hjj] at hh
    obtain ⟨b, hb, hbs⟩ := hh.succeeded_iff.mp hy.2
    have := hh.eq_of_not_dead ha hb (ExecutionAttemptStatus.not_dead_of_active hactive)
      (by rw [hbs]; rfl)
    have hactive : a.status.isActive = true := hactive
    rw [this, hbs] at hactive
    cases hactive
  rw [hfind]
  dsimp only
  split
  · exact Discipline.wp_throw (.of_refused hv hvalidating .notReadyForValidation)
  rename_i hall
  have hsource : v.status ∈ LifecycleTarget.validating.sources := by
    rw [hbuilding]
    exact List.mem_singleton_self _
  refine wp_applyTransition (hL₃ _ (hL₂ _ Row.held_forUpdate)) hv hsource fun seen last => ?_
  refine .of_moves hv hsource (.moveVersion hinv (.moveVersion hinv.consistent hv _ _ hsource ?_ ?_ ?_ ?_ ?_))
  · -- No job passed the test for one that is not succeeded.
    intro _ j hj
    by_contra hs
    refine hall (List.any_eq_true.mpr ⟨j.asLifecycle, (hjobs _).mpr ⟨j, hj, rfl⟩, ?_⟩)
    exact decide_eq_true hs
  · intro h; cases h
  · exact Row.held_noKeyUpdate
  · exact fun h => absurd rfl h
  · exact fun _ j hj => (hL₃ _ (hjobs₂ j hj)).cons

/-! ### The terminal decision -/

/-- The version belongs to the series, for good. -/
def Store.InSeries (s : Store) (id seriesId : Uuid) : Prop :=
  ∃ v, s.datasetVersions.get? id = some v ∧ v.datasetSeriesId = seriesId

theorem Store.InSeries.grows {s s' : Store} {id seriesId : Uuid} (h : s.InSeries id seriesId)
    (hg : s.Grows s') : s'.InSeries id seriesId := by
  obtain ⟨v, hv, hs⟩ := h
  obtain ⟨v', hv', hsteps⟩ := hg.version hv
  exact ⟨v', hv', (version_columns hsteps).2.1.trans hs⟩

theorem wp_lockTerminalDecisionDataset {id seriesId : Uuid}
    {post : Ended LockedLifecycleDataset → Prop} (hinvfl : Invariant honours fl)
    (hseries : fl.db.InSeries id seriesId)
    (hpost : ∀ seen last v L', Moment.Grows fl last →
      (discipline honours).Later L' last g → g.db.datasetVersions.get? id = some v →
      Row.Held (.datasetVersion id) L' → Row.Held (.datasetSeries v.datasetSeriesId) L' →
      post ⟨seen, last, .ok v.asLifecycle, L', []⟩) :
    (discipline honours).Wp g fl [] [] (lockTerminalDecisionDataset id seriesId) post := by
  obtain ⟨v₀, hv₀, rfl⟩ := hseries
  obtain ⟨r₀, hr₀, -⟩ := hinvfl.consistent.references.version _ v₀ hv₀
  refine Discipline.wp_bind (Discipline.wp_bind (Discipline.wp_selectForUpdate ?_ ?_ ?_))
  · exact fun g₁ hl => (later_same hl Row.held_forUpdate).1.symm
  · intro g₁ hle _ _ hn
    obtain ⟨r₁, hr₁, -⟩ := hle.db.seriesRow hr₀
    exact Table.no_row hn hr₁
  intro g₁ _ last₁ hle₁ _ hle₁' hl₁
  have hle : Moment.Grows fl last₁ := Moment.Grows.trans hle₁ hle₁'
  obtain ⟨r, hr, -⟩ := (hle.trans hl₁.le).db.seriesRow hr₀
  rw [Discipline.continues_ok]
  refine Discipline.wp_pure ?_
  have hview : ((machine honours).view g.db []).datasetSeries.get? v₀.datasetSeriesId
      = some r := hr
  rw [hview]
  show (discipline honours).Wp g last₁ _ [] (if true = false then _ else _) _
  rw [if_neg (by decide)]
  -- The series does not let go of its version.
  obtain ⟨v₁, hv₁, -⟩ := hle.db.version hv₀
  refine Discipline.wp_bind (wp_lockLifecycleDataset ?_ ?_)
  · intro g₂ hle₂ hnone
    obtain ⟨v₂, hv₂, -⟩ := hle₂.db.version hv₁
    exact Table.no_row hnone hv₂
  intro seen₂ last₂ v hle₂ hl₂ hv
  rw [Discipline.continues_ok]
  dsimp only
  -- A version stays in its series, so the guard compares equal ids.
  have hvs : v.asLifecycle.datasetSeriesId = v₀.datasetSeriesId := by
    obtain ⟨v', hv', hs⟩ := (hle.trans (hle₂.trans hl₂.le)).db.version hv₀
    obtain rfl := Option.some.inj (hv.symm.trans hv')
    exact (version_columns hs).2.1
  rw [if_neg (not_not.mpr hvs)]
  exact Discipline.wp_pure (hpost _ last₂ v _ (hle.trans hle₂) hl₂ hv Row.held_forUpdate
    (hvs ▸ Row.held_forUpdate.cons))

theorem wp_decideValidatedDataset {id seriesId : Uuid} {decision : TerminalDecision}
    (hinvfl : Invariant honours fl) (hseries : fl.db.InSeries id seriesId) :
    (discipline honours).Wp g fl [] [] (decideValidatedDataset id seriesId decision env)
      (LifecycleSpec honours id decision.target env g) := by
  refine Discipline.wp_bind (wp_lockTerminalDecisionDataset hinvfl hseries ?_)
  intro seen last v L hle hl hv hheld hheld'
  rw [Discipline.continues_ok]
  have hinv : Invariant honours g := hl.inv
  have hstatus : v.asLifecycle.datasetStatus = v.status := rfl
  rw [hstatus]
  -- Taking the same decision again is no conflict.
  by_cases hholds : v.status = decision.target.status
  · rw [if_pos hholds]
    exact Discipline.wp_pure (.of_holds hinv hv hholds)
  rw [if_neg hholds]
  -- The other decision has been taken, or nothing was submitted.
  by_cases hvalidating : v.status = .validating
  swap
  · rw [if_pos hvalidating]
    exact Discipline.wp_throw (.of_refused hv hholds .stateConflict)
  rw [if_neg (not_not.mpr hvalidating)]
  have hsource : v.status ∈ decision.target.sources := by
    rw [hvalidating]
    cases decision <;> exact List.mem_singleton_self _
  refine wp_applyTransition hheld hv hsource fun seen last => ?_
  refine .of_moves hv hsource (.moveVersion hinv
    (.moveVersion hinv.consistent hv _ _ hsource ?_ ?_ hheld.cons (fun _ => hheld'.cons) ?_))
  all_goals cases decision <;> simp [TerminalDecision.target]

/-! ### `abandonDatasetVersion` -/

theorem wp_abandonDatasetVersion {id seriesId : Uuid} (hinvfl : Invariant honours fl)
    (hseries : fl.db.InSeries id seriesId) :
    (discipline honours).Wp g fl [] [] (abandonDatasetVersion id seriesId env)
      (LifecycleSpec honours id .abandoned env g) := by
  refine Discipline.wp_bind (wp_lockTerminalDecisionDataset hinvfl hseries ?_)
  intro seen₁ last₁ v L hle₁ hl₁ hv hheld hheld'
  rw [Discipline.continues_ok]
  have hinv : Invariant honours g := hl₁.inv
  have hid : v.id = id := Table.get?_key hv
  have hstatus : v.asLifecycle.datasetStatus = v.status := rfl
  rw [hstatus]
  by_cases habandoned : v.status = .abandoned
  · rw [if_pos habandoned]
    exact Discipline.wp_pure (.of_holds hinv hv habandoned)
  rw [if_neg habandoned]
  have habandoned : v.status ≠ LifecycleTarget.abandoned.status := habandoned
  -- A version that was submitted can only be published or rejected.
  by_cases hopen : v.status ≠ .draft ∧ v.status ≠ .building
  · rw [if_pos hopen]
    exact Discipline.wp_throw (.of_refused hv habandoned .stateConflict)
  rw [if_neg hopen]
  have hsource : v.status ∈ LifecycleTarget.abandoned.sources := by
    show v.status ∈ [.draft, .building]
    revert hopen
    cases v.status <;> decide
  refine Discipline.wp_bind (wp_lockLifecycleJobs hheld ?_)
  intro seen₂ last₂ L₂ jobs hle₂ hg₂ hL₂ hjobs₂ hjobs
  rw [Discipline.continues_ok, if_neg (by simp [jobs_isEmpty hinv hv hjobs])]
  refine Discipline.wp_bind (wp_lockLifecycleAttempts (hL₂ _ hheld) hjobs₂ ?_)
  intro seen₃ last₃ L₃ attempts hle₃ hg₃ hL₃ hattempts
  rw [Discipline.continues_ok]
  -- A running job has its accepted attempt.
  have hfind : jobs.find? (fun job => job.status = .running
      ∧ ¬ attempts.any fun attempt =>
        attempt.calculationJobId = job.id ∧ attempt.status = .accepted) = none := by
    refine List.find?_eq_none.mpr fun y hy hc => ?_
    obtain ⟨j, hj, rfl⟩ := (hjobs y).mp hy
    rw [decide_eq_true_eq] at hc
    obtain ⟨hrunning, hnone⟩ := hc
    have hh := hinv.consistent.history _ j (Store.mem_jobsOf.mp hj).1
    obtain ⟨a, ha, hs⟩ := hh.running_iff.mp hrunning
    refine hnone (List.any_eq_true.mpr ⟨a.asLifecycle, (hattempts _).mpr ⟨j, hj, a, ha, rfl⟩, ?_⟩)
    rw [decide_eq_true_eq]
    exact ⟨(Store.mem_attemptsOf.mp ha).2, hs⟩
  rw [hfind]
  dsimp only
  split
  · exact Discipline.wp_throw (.of_refused hv habandoned .activeExecution)
  rename_i hover
  refine wp_applyTransition (hL₃ _ (hL₂ _ hheld)) hv hsource fun seen last => ?_
  refine .of_moves hv hsource (.moveVersion hinv
    (.moveVersion hinv.consistent hv _ _ hsource (fun h => (by cases h)) ?_
      (hL₃ _ (hL₂ _ hheld)).cons (fun _ => (hL₃ _ (hL₂ _ hheld')).cons)
      fun _ j hj => (hL₃ _ (hjobs₂ j hj)).cons))
  -- No attempt passed the test for one that is active.
  intro _ j hj a ha
  by_contra hactive
  refine hover (List.any_eq_true.mpr ⟨a.asLifecycle, (hattempts _).mpr ⟨j, hj, a, ha, rfl⟩, ?_⟩)
  exact Bool.not_eq_false _ |>.mp hactive

end CostEngine
