import CostEngine.Invariant.Creation
import CostEngine.Transaction.Resolving

/-! # `createDatasetVersion`

The series of an identity is found or inserted, and locked. Under that lock the number of
the new version is free and no other version is active; what may be taken is a UUID. -/

namespace CostEngine

open Relational (Table)
open Concurrency (Outcome Txn Discipline)

variable {honours : Prop} {g fl : Moment} {L : List RowLock} {ws : List Write}
variable {env : TxEnv}

/-! ## The series -/

/-- The writes so far: none, or the row of a new series. -/
structure SeriesLocked (honours : Prop) (input : SeriesIdentity) (g : Moment)
    (r : DatasetSeries) (L : List RowLock) (ws : List Write) : Prop where
  change : ∀ now, g.db.Change now L (ws.foldl Store.apply g.db)
  row : ∀ g₁, (discipline honours).Later L g₁ g →
    (ws.foldl Store.apply g₁.db).datasetSeries.get? r.id = some r
  identity : r.identity = input
  others : ∀ s : Store, ∃ series, ws.foldl Store.apply s = { s with datasetSeries := series }
  held : Row.Held (.datasetSeries r.id) L

theorem SeriesLocked.of_found {r : DatasetSeries} (hinv : Invariant honours g)
    (hr : g.db.datasetSeries.get? r.id = some r) (hheld : Row.Held (.datasetSeries r.id) L) :
    SeriesLocked honours r.identity g r L [] where
  change _ := .refl hinv.consistent
  row _ hl := (later_same hl hheld).1.symm.trans hr
  identity := rfl
  others s := ⟨s.datasetSeries, rfl⟩
  held := hheld

theorem SeriesLocked.of_inserted {r : DatasetSeries} (hinv : Invariant honours g)
    (hnew : g.db.datasetSeries.get? r.id = none) (hident : g.db.seriesWith? r.identity = none)
    (hcounter : r.lastAllocatedVersion = 0) (hheld : Row.Held (.datasetSeries r.id) L)
    (hheld' : Row.Held (.seriesIdentity r.identity) L) :
    SeriesLocked honours r.identity g r L [.insertDatasetSeries r] where
  change _ := .insertSeries hinv.consistent hnew hident hcounter hheld hheld'
  row _ hl := (Table.get?_insert ((later_same hl hheld).1.symm.trans hnew)).trans (if_pos rfl)
  identity := rfl
  others s := ⟨s.datasetSeries.insert r, rfl⟩
  held := hheld

/-! ### Lookups by identity -/

/-- A series that is there is there later, under the same id. -/
theorem seriesWith?_later {s s' : Store} (hs' : s'.Consistent) (hg : s.Grows s')
    {identity : SeriesIdentity} {r : DatasetSeries} (hr : s.seriesWith? identity = some r) :
    ∃ r', s'.seriesWith? identity = some r' ∧ s'.datasetSeries.get? r'.id = some r'
      ∧ r'.id = r.id := by
  obtain ⟨hget, hid⟩ := seriesWith?_eq_some hr
  obtain ⟨r', hr', hident⟩ := hg.seriesRow hget
  cases hfind : s'.seriesWith? identity with
  | none =>
      have := List.find?_eq_none.mp hfind r' (Table.get?_mem hr')
      simp [hident, hid] at this
  | some r'' =>
      obtain ⟨hget'', hid''⟩ := seriesWith?_eq_some hfind
      exact ⟨r'', rfl, hget'', hs'.series.identity _ _ r'' r' hget'' hr'
        (hid''.trans (hident.trans hid).symm)⟩

/-- One's own new series is found. -/
theorem seriesWith?_insert {s : Store} {r : DatasetSeries}
    (hnew : s.datasetSeries.get? r.id = none) (hident : s.seriesWith? r.identity = none) :
    (s.apply (.insertDatasetSeries r)).seriesWith? r.identity = some r := by
  show List.find? _ (s.datasetSeries.insert r).rows = some r
  rw [Table.rows_insert hnew, List.find?_append]
  have hident : s.datasetSeries.rows.find? (fun x => x.identity = r.identity) = none := hident
  rw [hident]
  simp

/-! ### `findOrCreateAndLockDatasetSeries` -/

/-- The end of `findOrCreateAndLockDatasetSeries`, once the series is there. -/
def lockCanonicalSeries (input : SeriesIdentity) : Tx LockedDatasetSeries := do
  match ← Txn.select (·.seriesWith? input) with
  | none => Tx.throw (.error "Failed to acquire the canonical dataset series row")
  | some found => do
      Txn.lock (.forUpdate (.datasetSeries found.id))
      match ← Txn.select (·.datasetSeries.get? found.id) with
      | none => Tx.throw (.error "Failed to acquire the canonical dataset series row")
      | some row => pure { id := row.id, lastAllocatedVersion := row.lastAllocatedVersion }

theorem wp_findOrCreateAndLockDatasetSeries {input : SeriesIdentity} {newSeriesId : Uuid}
    {post : Ended LockedDatasetSeries → Prop}
    (htaken : ∀ seen last L' ws',
      post ⟨seen, last, .error (.uniqueViolation "dataset_series_pkey"), L', ws'⟩)
    (hpost : ∀ seen last r L' ws', (discipline honours).Later L' last g →
      SeriesLocked honours input g r L' ws' →
      post ⟨seen, last, .ok ⟨r.id, r.lastAllocatedVersion⟩, L', ws'⟩) :
    (discipline honours).Wp g fl [] [] (findOrCreateAndLockDatasetSeries input newSeriesId)
      post := by
  -- From a state where the series is there: it is found again, perhaps as a later row, and its
  -- row under the lock is the one at the end.
  have hfound : ∀ g₀ : Moment, ∀ seen L r, g₀.db.seriesWith? input = some r →
      (discipline honours).Continues g (fun _ => lockCanonicalSeries input) post
        ⟨seen, g₀, .ok (), L, []⟩ := by
    intro g₀ seen L r hr
    rw [Discipline.continues_ok]
    refine Discipline.wp_bind (Discipline.wp_select fun g₁ hle₁ hinv₁ hl₁ => ?_)
    obtain ⟨r₁, hr₁, hget₁, -⟩ := seriesWith?_later hinv₁.consistent hle₁.db hr
    obtain ⟨-, hid₁⟩ := seriesWith?_eq_some hr₁
    rw [Discipline.continues_ok, Concurrency.Machine.view_nil, hr₁]
    refine Discipline.wp_bind (Discipline.wp_lock fun g₂ hle₂ hl₂ => ?_)
    rw [Discipline.continues_ok]
    refine Discipline.wp_bind (Discipline.wp_select fun g₃ hle₃ _ hl₃ => ?_)
    obtain ⟨r', hr', hident⟩ := hl₁.le.db.seriesRow hget₁
    have hid : r'.id = r₁.id := Table.get?_key hr'
    have hsame : g₃.db.datasetSeries.get? r₁.id = some r' :=
      (later_same hl₃ Row.held_forUpdate).1.symm.trans hr'
    rw [Discipline.continues_ok, Concurrency.Machine.view_nil, hsame]
    refine Discipline.wp_pure (hpost _ g₃ r' _ _ hl₃ ?_)
    -- The lock is on the id that was found, and the row has that id.
    have hlocked := SeriesLocked.of_found hl₃.inv (hid.symm ▸ hr')
      (L := .forUpdate (.datasetSeries r₁.id) :: L) (by rw [hid]; exact Row.held_forUpdate)
    rw [hident.trans hid₁] at hlocked
    exact hlocked
  refine Discipline.wp_bind (Discipline.wp_bind (Discipline.wp_select fun g₁ hle₁ hinv₁ hl₁ => ?_))
  rw [Discipline.continues_ok, Concurrency.Machine.view_nil]
  cases hr₁ : g₁.db.seriesWith? input with
  | some r => exact Discipline.wp_pure (hfound g₁ _ [] r hr₁)
  | none =>
      refine Discipline.wp_bind (Discipline.wp_lock fun g₂ hle₂ hl₂ => ?_)
      rw [Discipline.continues_ok]
      refine Discipline.wp_bind (Discipline.wp_select fun g₃ hle₃ hinv₃ hl₃ => ?_)
      rw [Discipline.continues_ok, Concurrency.Machine.view_nil]
      cases hr₃ : g₃.db.seriesWith? input with
      -- Inserted by another transaction while this one waited for the identity.
      | some r => exact Discipline.wp_pure (hfound g₃ _ _ r hr₃)
      | none =>
          refine Discipline.wp_insertRow ?_ ?_
          · -- The identity is still free under its lock, so only the primary key can be
            -- violated.
            intro e g₄ _ _ _ hviol
            split at hviol
            · cases hviol
              exact htaken _ _ _ _
            · cases hviol
          intro g₄ hle₄ hinv₄ hl₄ hviol
          -- The row and its identity are free to the end, under the two locks.
          have hnone : ∀ g₅, (discipline honours).Later [.forUpdate (.datasetSeries newSeriesId),
              .forUpdate (.seriesIdentity input)] g₅ g → g₅.db.seriesWith? input = none := by
            intro g₅ hl₅
            have h₃ : _ = _ := later_same hl₃ (r := .seriesIdentity input) Row.held_forUpdate
            have h₅ : _ = _ := later_same hl₅ (r := .seriesIdentity input) Row.held_forUpdate.cons
            rw [hr₃] at h₃
            rw [h₃] at h₅
            exact Option.map_eq_none_iff.mp h₅.symm
          have hnew₄ : g₄.db.datasetSeries.get? newSeriesId = none := by
            rw [Concurrency.Machine.view_nil] at hviol
            by_contra hne
            rw [if_pos (Option.isSome_iff_ne_none.mpr hne)] at hviol
            cases hviol
          have hnew : g.db.datasetSeries.get? newSeriesId = none :=
            (later_same hl₄ Row.held_forUpdate).1.trans hnew₄
          have hview : ∀ g₅, (discipline honours).Later [.forUpdate (.datasetSeries newSeriesId),
              .forUpdate (.seriesIdentity input)] g₅ g →
              ((machine honours).view g₅.db
                [.insertDatasetSeries ⟨newSeriesId, input, 0⟩]).seriesWith? input
                  = some ⟨newSeriesId, input, 0⟩ := by
            intro g₅ hl₅
            exact seriesWith?_insert ((later_same hl₅ Row.held_forUpdate).1.symm.trans hnew)
              (hnone g₅ hl₅)
          have hlocked : SeriesLocked honours input g ⟨newSeriesId, input, 0⟩
              [.forUpdate (.datasetSeries newSeriesId), .forUpdate (.datasetSeries newSeriesId),
                .forUpdate (.seriesIdentity input)]
              [.insertDatasetSeries ⟨newSeriesId, input, 0⟩] :=
            .of_inserted (r := ⟨newSeriesId, input, 0⟩) hl₄.inv hnew
              (hnone g (.refl hl₄.inv)) rfl Row.held_forUpdate Row.held_forUpdate.cons.cons
          show (discipline honours).Wp g g₄ [.forUpdate (.datasetSeries newSeriesId),
            .forUpdate (.seriesIdentity input)] [.insertDatasetSeries ⟨newSeriesId, input, 0⟩] _ _
          refine Discipline.wp_bind (Discipline.wp_select fun g₅ hle₅ _ hl₅ => ?_)
          -- The transaction finds its own row, locks it and reads it.
          rw [Discipline.continues_ok, hview g₅ hl₅]
          refine Discipline.wp_bind (Discipline.wp_lock fun g₆ _ hl₆ => ?_)
          rw [Discipline.continues_ok]
          refine Discipline.wp_bind (Discipline.wp_select fun g₇ _ _ hl₇ => ?_)
          rw [Discipline.continues_ok]
          have hrow : ((machine honours).view g₇.db
              [.insertDatasetSeries ⟨newSeriesId, input, 0⟩]).datasetSeries.get? newSeriesId
                = some ⟨newSeriesId, input, 0⟩ := hlocked.row g₇ hl₇
          rw [hrow]
          exact Discipline.wp_pure (hpost _ g₇ _ _ _ hl₇ hlocked)

/-! ## The new version -/

namespace SeriesLocked

variable {input : SeriesIdentity} {r : DatasetSeries}

/-- The versions of the series, in a later state with the row on top, as at the end. -/
theorem visible (h : SeriesLocked honours input g r L ws)
    (hl : (discipline honours).Later L g₁ g) :
    ((ws.foldl Store.apply g₁.db).versionsOf r.id).map DatasetVersion.visible
      = (g.db.versionsOf r.id).map DatasetVersion.visible := by
  obtain ⟨series, hs⟩ := h.others g₁.db
  rw [hs, (later_same hl h.held).2]
  rfl

theorem cons (h : SeriesLocked honours input g r L ws) {l : RowLock} :
    SeriesLocked honours input g r (l :: L) ws where
  change now := (h.change now).mono fun _ hr => hr.cons
  row g₁ hl := h.row g₁ (hl.mono fun _ hm => List.mem_cons_of_mem _ hm)
  identity := h.identity
  others := h.others
  held := h.held.cons

/-- The next number is above every number in use. -/
theorem number_free (h : SeriesLocked honours input g r L ws) (hinv : Invariant honours g) :
    -- The number of a version is at most the counter of the series it refers to.
    ∀ v ∈ g.db.versionsOf r.id, v.version ≤ r.lastAllocatedVersion := by
  intro v hv
  obtain ⟨series, hs⟩ := h.others g.db
  obtain ⟨hget, howner⟩ := Store.mem_versionsOf.mp hv
  have hv' : (ws.foldl Store.apply g.db).datasetVersions.get? v.id = some v := by
    rw [hs]
    exact hget
  obtain ⟨r', hr', hle⟩ := (h.change 0).consistent.references.version _ v hv'
  rw [howner, h.row g (.refl hinv)] at hr'
  obtain rfl := Option.some.inj hr'
  exact hle

end SeriesLocked

/-! ## The jobs of the version -/

/-- The row that `insertPendingCalculationJobs` inserts. -/
def CalculationJobInsert.row (env : TxEnv) (datasetVersionId : Uuid)
    (job : CalculationJobInsert) : CalculationJob where
  id := job.id
  outputDatasetVersionId := datasetVersionId
  calculationTypeId := job.calculationTypeId
  status := .pending
  createdAt := env.now

/-- The columns that `insertPendingCalculationJobs` returns. -/
def CalculationJobInsert.created (job : CalculationJobInsert) : CreatedCalculationJob where
  jobId := job.id
  calculationTypeId := job.calculationTypeId
  calculationTypeCode := job.calculationTypeCode
  jobStatus := .pending

/-! ### Jobs under their locks -/

/-- Jobs of the version `v`, inserted under their locks. -/
structure JobsInserted (g : Moment) (v : Uuid) (L : List RowLock) (jobs : List CalculationJob) :
    Prop where
  fresh : ∀ j ∈ jobs, g.db.calculationJobs.get? j.id = none
  nodup : (jobs.map (·.id)).Nodup
  owner : ∀ j ∈ jobs, j.outputDatasetVersionId = v
  held : ∀ j ∈ jobs, Row.Held (.calculationJob j.id) L

namespace JobsInserted

variable {v : Uuid} {jobs : List CalculationJob}

theorem nil : JobsInserted g v L [] := ⟨by simp, by simp, by simp, by simp⟩

theorem concat (h : JobsInserted g v L jobs) {j : CalculationJob} {L' : List RowLock}
    (hL : ∀ r : Row, r.Held L → r.Held L') (hfresh : g.db.calculationJobs.get? j.id = none)
    (hnew : ∀ i ∈ jobs, i.id ≠ j.id) (howner : j.outputDatasetVersionId = v)
    (hheld : Row.Held (.calculationJob j.id) L') : JobsInserted g v L' (jobs ++ [j]) where
  fresh i hi := by
    rcases List.mem_append.mp hi with hi | hi
    · exact h.fresh i hi
    · rwa [List.mem_singleton.mp hi]
  nodup := by
    rw [List.map_append, List.map_singleton]
    refine List.nodup_append.mpr ⟨h.nodup, by simp, ?_⟩
    intro a ha b hb hab
    obtain ⟨i, hi, rfl⟩ := List.mem_map.mp ha
    exact hnew i hi (hab.trans (List.mem_singleton.mp hb))
  owner i hi := by
    rcases List.mem_append.mp hi with hi | hi
    · exact h.owner i hi
    · rwa [List.mem_singleton.mp hi]
  held i hi := by
    rcases List.mem_append.mp hi with hi | hi
    · exact hL _ (h.held i hi)
    · rwa [List.mem_singleton.mp hi]

/-- What is found on top of a later state, under the locks. -/
theorem view (h : JobsInserted g v L jobs) (hl : (discipline honours).Later L g₁ g)
    {pre : List Write}
    (hpre : ∀ s : Store, (pre.foldl Store.apply s).calculationJobs = s.calculationJobs) :
    (∀ id, ((pre ++ jobs.map Write.insertCalculationJob).foldl Store.apply g₁.db).calculationJobs.get?
        id = (g₁.db.calculationJobs.get? id).or (jobs.find? fun j => j.id = id))
      ∧ ((pre ++ jobs.map Write.insertCalculationJob).foldl Store.apply g₁.db).jobsOf v
        = g₁.db.jobsOf v ++ jobs := by
  -- A UUID that is free at the end is free in every state under its lock.
  have hfresh : ∀ j ∈ jobs, g₁.db.calculationJobs.get? j.id = none := by
    intro j hj
    rw [← (later_same hl (h.held j hj)).1]
    exact h.fresh j hj
  have hfold : ((pre ++ jobs.map Write.insertCalculationJob).foldl Store.apply g₁.db).calculationJobs
      = jobs.foldl Table.insert g₁.db.calculationJobs := by
    rw [List.foldl_append, Store.foldl_insertCalculationJob, ← hpre g₁.db]
  refine ⟨fun id => ?_, ?_⟩
  · rw [hfold]
    exact Table.get?_foldl_insert h.nodup hfresh
  · unfold Store.jobsOf
    rw [hfold, Table.select_foldl_insert h.nodup hfresh]
    refine congrArg _ (List.filter_eq_self.mpr fun j hj => ?_)
    rw [h.owner j hj]
    simp

end JobsInserted

/-! ### `insertPendingCalculationJobs` -/

/-- Either a UUID is taken, or every job is inserted. -/
theorem wp_insertPendingCalculationJobs {v : Uuid} {jobs : List CalculationJobInsert}
    {pre : List Write} {done : List CalculationJob}
    {post : Ended (List CreatedCalculationJob) → Prop}
    (hws : ws = pre ++ done.map Write.insertCalculationJob)
    (hpre : ∀ s : Store, (pre.foldl Store.apply s).calculationJobs = s.calculationJobs)
    (hheld : Row.Held (.datasetVersion v) L) (hnil : g.db.jobsOf v = [])
    (hdone : JobsInserted g v L done)
    (htypes : (done.map (·.calculationTypeId) ++ jobs.map (·.calculationTypeId)).Nodup)
    (htaken : ∀ seen last L' ws',
      post ⟨seen, last, .error (.uniqueViolation "calculation_jobs_pkey"), L', ws'⟩)
    (hpost : ∀ seen last L', (∀ l ∈ L, l ∈ L') →
      JobsInserted g v L' (done ++ jobs.map (·.row env v)) →
      post ⟨seen, last, .ok (jobs.map (·.created)), L',
        pre ++ (done ++ jobs.map (·.row env v)).map .insertCalculationJob⟩) :
    (discipline honours).Wp g fl L ws (insertPendingCalculationJobs env v jobs) post := by
  subst hws
  induction jobs generalizing fl L done post with
  | nil =>
      rw [List.map_nil, List.append_nil] at hpost
      exact Discipline.wp_pure (hpost _ _ L (fun _ h => h) hdone)
  | cons job jobs ih =>
      refine Discipline.wp_bind (Discipline.wp_insertRow ?_ ?_)
      · -- Only the primary key can be violated: the types of the jobs are distinct.
        -- A type in use would be one of a job inserted before: the version had none.
        intro e g₁ _ _ hl hviol
        split at hviol
        · cases hviol
          exact htaken _ _ _ _
        · split at hviol
          · rename_i _ hany
            obtain ⟨i, hi, htype⟩ := List.any_eq_true.mp hany
            have hview := (hdone.view (hl.mono fun l h => List.mem_cons_of_mem _ h) hpre).2
            have hsame := (later_same hl hheld.cons).2.2
            rw [hnil, List.map_nil] at hsame
            have hi : i ∈ g₁.db.jobsOf v ++ done := hview ▸ hi
            rw [List.map_eq_nil_iff.mp hsame.symm, List.nil_append] at hi
            refine absurd (of_decide_eq_true htype) (List.nodup_append.mp htypes |>.2.2 _ ?_ _ ?_)
            · exact List.mem_map_of_mem hi
            · simp
          · cases hviol
      · intro g₁ hle₁ _ hl₁ hviol
        -- The UUID is free of the committed jobs and of those inserted before.
        have hview := (hdone.view (hl₁.mono fun l h => List.mem_cons_of_mem _ h) hpre).1 job.id
        have hnone : (g₁.db.calculationJobs.get? job.id).or
            (done.find? fun j => j.id = job.id) = none := by
          rw [← hview]
          by_contra hne
          exact Table.no_row hviol (if_pos (Option.isSome_iff_ne_none.mpr hne))
        obtain ⟨hg₁, hfind⟩ := Option.or_eq_none_iff.mp hnone
        have hfresh : g.db.calculationJobs.get? job.id = none :=
          (later_same hl₁ Row.held_forUpdate).1.trans hg₁
        have hnew : ∀ i ∈ done, i.id ≠ job.id := by
          intro i hi he
          simpa [he] using List.find?_eq_none.mp hfind i hi
        rw [Discipline.continues_ok]
        refine Discipline.wp_bind (Discipline.wp_lock fun g₂ _ _ => ?_)
        rw [Discipline.continues_ok]
        refine Discipline.wp_bind (Discipline.wp_lock fun g₃ _ _ => ?_)
        rw [Discipline.continues_ok]
        have hdone' : JobsInserted g v (.keyShare (.calculationType job.calculationTypeId) ::
            .keyShare (.datasetVersion v) :: .forUpdate (.calculationJob job.id) :: L)
            (done ++ [job.row env v]) :=
          hdone.concat (fun r hr => hr.cons.cons.cons) hfresh hnew rfl
            Row.held_forUpdate.cons.cons
        have hwrites : pre ++ done.map Write.insertCalculationJob
              ++ [.insertCalculationJob (job.row env v)]
            = pre ++ (done ++ [job.row env v]).map .insertCalculationJob := by
          simp
        refine Discipline.wp_bind ?_
        show (discipline honours).Wp g g₃ _ (pre ++ done.map Write.insertCalculationJob
          ++ [.insertCalculationJob (job.row env v)]) _ _
        rw [hwrites]
        -- The job inserted here goes over to the jobs that are done.
        refine ih hheld.cons.cons.cons hdone' (by simpa [CalculationJobInsert.row] using htypes)
          (fun seen last L' ws' => htaken _ last L' ws') ?_
        intro seen last L' hL hdone''
        rw [List.append_assoc] at hdone''
        rw [List.append_assoc, Discipline.continues_ok]
        exact Discipline.wp_pure (hpost _ last L' (fun l hl => hL l (by simp [hl])) hdone'')

/-! ## What a creation leaves -/

/-- The errors of `createDatasetVersion`. Of the unique constraints only the primary keys
can be violated, by a UUID that is taken. -/
inductive CreationFailure (input : SeriesIdentity) (g : Moment) (seen : List Moment) :
    ServiceError → Prop
  | activeDatasetVersionExists (r v) : g.db.datasetSeries.get? r.id = some r →
      r.identity = input → v ∈ g.db.versionsOf r.id → v.status.isActive = true →
      CreationFailure input g seen .activeDatasetVersionExists
  | calculationTypeNotConfigured (g₁) : g₁ ∈ seen →
      g₁.db.activeCalculationTypes input.domain = [] →
      CreationFailure input g seen .calculationTypeNotConfigured
  | uuidTaken (constraint) : constraint ∈ ["dataset_series_pkey", "dataset_versions_pkey",
      "calculation_jobs_pkey"] → CreationFailure input g seen (.uniqueViolation constraint)

/-- What a version that was created is like. The types are those of the state that one of
the statements saw. -/
structure Created (honours : Prop) (input : SeriesIdentity) (g : Moment)
    (o : Ended CreateDatasetVersionResult) (r : DatasetSeries) (v : DatasetVersion)
    (jobs : List CalculationJob) (pre : List Write) : Prop where
  series : SeriesLocked honours input g r o.locks pre
  writes : o.writes = pre ++ Store.creation r v jobs
  draft : (pre.foldl Store.apply g.db).Draft r v jobs
  types : ∃ g₁ ∈ o.seen, jobs.map (·.calculationTypeId)
    = (g₁.db.activeCalculationTypes input.domain).map (·.id)
  result : ∀ result, o.result = .ok result → result.datasetSeriesId = r.id
    ∧ result.datasetVersionId = v.id ∧ result.version = v.version
    ∧ result.datasetStatus = .draft
    ∧ result.calculationJobs.map (·.jobId) = jobs.map (·.id)

structure CreateSpec (honours : Prop) (input : SeriesIdentity) (env : TxEnv) (g : Moment)
    (o : Ended CreateDatasetVersionResult) : Prop where
  commit : ∀ result, o.result = .ok result →
    Commit honours env.now o.locks g (o.writes.foldl Store.apply g.db)
  created : ∀ result, o.result = .ok result →
    ∃ r v jobs pre, Created honours input g o r v jobs pre
  error : ∀ e, o.result = .error e → CreationFailure input g o.seen e

namespace SeriesLocked

variable {input : SeriesIdentity} {r : DatasetSeries}

/-- A version of the series has the series row in the database already. -/
theorem found (h : SeriesLocked honours input g r L ws) (hinv : Invariant honours g)
    {v : DatasetVersion} (hv : v ∈ g.db.versionsOf r.id) :
    ∃ r', g.db.datasetSeries.get? r'.id = some r' ∧ r'.identity = input ∧ r'.id = r.id := by
  obtain ⟨hget, howner⟩ := Store.mem_versionsOf.mp hv
  obtain ⟨r', hr', -⟩ := hinv.consistent.references.version _ v hget
  rw [howner] at hr'
  have hid : r'.id = r.id := Table.get?_key hr'
  obtain ⟨r'', hr'', hident⟩ := (h.change 0).grows.seriesRow hr'
  rw [h.row g (.refl hinv)] at hr''
  obtain rfl := Option.some.inj hr''
  exact ⟨r', hid.symm ▸ hr', hident.symm.trans h.identity, hid⟩

/-- The row of the next version, if its UUID is free. -/
theorem violation_eq (h : SeriesLocked honours input g r L ws) (hinv : Invariant honours g)
    (hinactive : ∀ v ∈ g.db.versionsOf r.id, v.status.isActive = false)
    (hl : (discipline honours).Later L g₁ g) :
    (((ws.foldl Store.apply g₁.db).versionsOf r.id).any
        (·.version = r.lastAllocatedVersion + 1)) = false
      ∧ (((ws.foldl Store.apply g₁.db).versionsOf r.id).any (·.status.isActive)) = false := by
  -- Under the lock of the series its versions have the columns that they have at the end.
  have hcolumns : ∀ v₁ ∈ (ws.foldl Store.apply g₁.db).versionsOf r.id,
      ∃ v ∈ g.db.versionsOf r.id, v.version = v₁.version
        ∧ v.status.isActive = v₁.status.isActive := by
    intro v₁ hv₁
    have hmem : v₁.visible ∈ (g.db.versionsOf r.id).map DatasetVersion.visible := by
      rw [← h.visible hl]
      exact List.mem_map_of_mem hv₁
    obtain ⟨v, hv, he⟩ := List.mem_map.mp hmem
    simp only [DatasetVersion.visible, Prod.mk.injEq] at he
    exact ⟨v, hv, he.2.2.1, he.2.2.2.1⟩
  refine ⟨List.any_eq_false.mpr fun v₁ hv₁ => ?_, List.any_eq_false.mpr fun v₁ hv₁ => ?_⟩
  · obtain ⟨v, hv, hnumber, -⟩ := hcolumns v₁ hv₁
    -- Every number in use is at most the counter.
    have hle := h.number_free hinv v hv
    simp only [decide_eq_true_eq]
    omega
  · obtain ⟨v, hv, -, hactive⟩ := hcolumns v₁ hv₁
    rw [← hactive, hinactive v hv]
    decide

end SeriesLocked

/-! ### `insertDraftDatasetVersion` -/

/-- The row that `insertDraftDatasetVersion` inserts. -/
def draftVersion (env : TxEnv) (id : Uuid) (r : DatasetSeries) : DatasetVersion where
  id := id
  datasetSeriesId := r.id
  version := r.lastAllocatedVersion + 1
  status := .draft
  createdAt := env.now

/-- The number is allocated and the draft inserted, unless its UUID is taken. -/
theorem wp_insertDraftDatasetVersion {input : SeriesIdentity} {r : DatasetSeries} {id : Uuid}
    {post : Ended Unit → Prop} (h : SeriesLocked honours input g r L ws)
    (hinv : Invariant honours g)
    (hinactive : ∀ v ∈ g.db.versionsOf r.id, v.status.isActive = false)
    (htaken : ∀ seen last L' ws',
      post ⟨seen, last, .error (.uniqueViolation "dataset_versions_pkey"), L', ws'⟩)
    (hpost : ∀ seen last L', g.db.datasetVersions.get? id = none →
      Row.Held (.datasetVersion id) L' → (∀ l ∈ L, l ∈ L') →
      post ⟨seen, last, .ok (), L',
        ws ++ [.putDatasetSeries r.allocated] ++ [.insertDatasetVersion (draftVersion env id r)]⟩) :
    (discipline honours).Wp g fl L (ws ++ [.putDatasetSeries r.allocated])
      (insertDraftDatasetVersion env id r.id (r.lastAllocatedVersion + 1)) post := by
  -- The updated series row does not show in the versions.
  have hput : ∀ s : Store, ((machine honours).view s
      (ws ++ [.putDatasetSeries r.allocated])).datasetVersions
        = ((machine honours).view s ws).datasetVersions := by
    intro s
    rw [Concurrency.Machine.view_append_singleton]
    rfl
  have hversionsOf : ∀ s : Store, ((machine honours).view s
      (ws ++ [.putDatasetSeries r.allocated])).versionsOf r.id
        = (ws.foldl Store.apply s).versionsOf r.id := fun s =>
    congrArg (Table.select · _) (hput s)
  refine Discipline.wp_bind (Discipline.wp_insertRow ?_ ?_)
  · intro e g₁ _ _ hl hviol
    obtain ⟨hnumber, hactive⟩ := h.violation_eq hinv hinactive
      (hl.mono fun l h => List.mem_cons_of_mem _ h)
    simp only [hversionsOf, hnumber, hactive, Bool.false_eq_true, if_false] at hviol
    split at hviol
    · cases hviol
      exact htaken _ _ _ _
    · cases hviol
  · intro g₁ _ _ hl hviol
    have hnone : g₁.db.datasetVersions.get? id = none := by
      obtain ⟨series, hs⟩ := h.others g₁.db
      have hview := (hput g₁.db).trans (congrArg Store.datasetVersions hs)
      rw [hview] at hviol
      by_contra hne
      exact Table.no_row hviol (if_pos (Option.isSome_iff_ne_none.mpr hne))
    have hfresh : g.db.datasetVersions.get? id = none :=
      -- The UUID was free before its lock was taken, and is to the end.
      (later_same hl Row.held_forUpdate).1.trans hnone
    rw [Discipline.continues_ok]
    refine Discipline.wp_lock fun g₂ _ _ => ?_
    exact hpost _ g₂ _ hfresh Row.held_forUpdate.cons
      fun l hl => List.mem_cons_of_mem _ (List.mem_cons_of_mem _ hl)

/-! ### The active version and the next number -/

/-- The search for an active version finds one exactly when there is one at the end. -/
theorem wp_findActiveDatasetVersion {input : SeriesIdentity} {r : DatasetSeries}
    {post : Ended (Option Uuid) → Prop} (h : SeriesLocked honours input g r L ws)
    (hactive : ∀ seen last id v, v ∈ g.db.versionsOf r.id → v.status.isActive = true →
      post ⟨seen, last, .ok (some id), L, ws⟩)
    (hinactive : ∀ seen last, (∀ v ∈ g.db.versionsOf r.id, v.status.isActive = false) →
      post ⟨seen, last, .ok none, L, ws⟩) :
    (discipline honours).Wp g fl L ws (findActiveDatasetVersion r.id) post := by
  refine Discipline.wp_select fun g₁ _ _ hl => ?_
  have hview : ((machine honours).view g₁.db ws).versionsOf r.id
      = (ws.foldl Store.apply g₁.db).versionsOf r.id := rfl
  rw [hview]
  cases hfind : ((ws.foldl Store.apply g₁.db).versionsOf r.id).find? (·.status.isActive) with
  | some v₁ =>
      -- What the statement sees of a version it has at the end as well.
      have hmem : v₁.visible ∈ (g.db.versionsOf r.id).map DatasetVersion.visible := by
        rw [← h.visible hl]
        exact List.mem_map_of_mem (List.mem_of_find?_eq_some hfind)
      obtain ⟨v, hv, he⟩ := List.mem_map.mp hmem
      simp only [DatasetVersion.visible, Prod.mk.injEq] at he
      exact hactive _ _ _ v hv (he.2.2.2.1.trans (by simpa using List.find?_some hfind))
  | none =>
      refine hinactive _ _ fun v hv => ?_
      have hmem : v.visible ∈ ((ws.foldl Store.apply g₁.db).versionsOf r.id).map
          DatasetVersion.visible := by
        rw [h.visible hl]
        exact List.mem_map_of_mem hv
      obtain ⟨v₁, hv₁, he⟩ := List.mem_map.mp hmem
      simp only [DatasetVersion.visible, Prod.mk.injEq] at he
      rw [← he.2.2.2.1]
      simpa using List.find?_eq_none.mp hfind v₁ hv₁

theorem wp_allocateNextDatasetVersion {input : SeriesIdentity} {r : DatasetSeries}
    {post : Ended Nat → Prop} (h : SeriesLocked honours input g r L ws)
    (hinv : Invariant honours g)
    (hpost : ∀ seen last, post ⟨seen, last, .ok (r.lastAllocatedVersion + 1),
      .noKeyUpdate (.datasetSeries r.id) :: L, ws ++ [.putDatasetSeries r.allocated]⟩) :
    (discipline honours).Wp g fl L ws (allocateNextDatasetVersion r.id) post := by
  have hend := h.row g (.refl hinv)
  refine Discipline.wp_bind (Discipline.wp_updateReturning ?_ ?_ ?_ ?_)
  · intro g₁ hl
    exact (h.row g₁ (hl.mono fun l h => List.mem_cons_of_mem _ h)).trans hend.symm
  · intro g₁ _ _ hl hn
    exact Table.no_row hn (h.row g₁ hl)
  · intro seen last _ _ hn
    exact Table.no_row hn hend
  · intro seen last row _ _ hrow
    -- The row read is the row under the lock, so the counter goes up by one from there.
    obtain rfl : r = row := Option.some.inj (hend.symm.trans hrow)
    refine Discipline.wp_pure ?_
    simpa [Outcome.after, DatasetSeries.allocated] using hpost seen last

/-! ## The types -/

/-- The types, as jobs to insert. -/
def jobInserts (env : TxEnv) (types : List ActiveCalculationType) : List CalculationJobInsert :=
  types.mapIdx fun i calculationType =>
    { id := env.uuid (2 + i)
      calculationTypeId := calculationType.id
      calculationTypeCode := calculationType.code }

theorem jobInserts_types (env : TxEnv) (types : List ActiveCalculationType) :
    (jobInserts env types).map (·.calculationTypeId) = types.map (·.id) := by
  refine List.ext_getElem? fun i => ?_
  rw [List.getElem?_map, jobInserts, List.getElem?_mapIdx, List.getElem?_map, Option.map_map]
  rfl

theorem Store.activeCalculationTypes_nodup (s : Store) (domain : String) :
    ((s.activeCalculationTypes domain).map (·.id)).Nodup := by
  have hrows : ((s.calculationTypes.select fun ct =>
      ct.domain = domain ∧ ct.isActive = true).map (·.id)).Nodup :=
    s.calculationTypes.nodup.sublist (List.filter_sublist.map _)
  exact ((orderBy_perm _ _).map _).nodup_iff.mpr hrows

theorem Store.mem_activeCalculationTypes {s : Store} {domain : String} {ct : CalculationType} :
    ct ∈ s.activeCalculationTypes domain ↔ s.calculationTypes.get? ct.id = some ct
      ∧ ct.domain = domain ∧ ct.isActive = true := by
  rw [activeCalculationTypes, mem_orderBy, Table.mem_select, Table.mem_rows]
  simp

/-! ## The transaction -/

theorem SeriesLocked.draft {input : SeriesIdentity} {r : DatasetSeries} {id : Uuid}
    {inserts : List CalculationJobInsert} {L' : List RowLock}
    (h : SeriesLocked honours input g r L ws) (hinv : Invariant honours g)
    (hinactive : ∀ v ∈ g.db.versionsOf r.id, v.status.isActive = false)
    (hfresh : g.db.datasetVersions.get? id = none) (hne : inserts ≠ [])
    (hjobs : JobsInserted g id L' (inserts.map (·.row env id)))
    (htypes : ∀ i ∈ inserts, ∃ ct, g.db.calculationTypes.get? i.calculationTypeId = some ct
      ∧ ct.domain = input.domain) :
    (ws.foldl Store.apply g.db).Draft r (draftVersion env id r)
      (inserts.map (·.row env id)) := by
  have hrow := h.row g (.refl hinv)
  obtain ⟨series, hs⟩ := h.others g.db
  rw [hs] at hrow ⊢
  -- The new row is a draft with no stamps and no snapshot.
  refine ⟨hrow, rfl, rfl, rfl, ⟨fun _ => rfl, ?_, ?_, ?_, ?_, ?_⟩, hinactive, hfresh,
    by simpa using hne, hjobs.fresh, hjobs.nodup, ?_, ?_⟩
  · rintro (h | h) <;> cases h
  all_goals try exact ⟨fun h => (by cases h), fun h => (by cases h)⟩
  · intro j hj
    obtain ⟨i, -, rfl⟩ := List.mem_map.mp hj
    exact ⟨rfl, rfl, rfl⟩
  · intro j hj
    obtain ⟨i, hi, rfl⟩ := List.mem_map.mp hj
    rw [h.identity]
    exact htypes i hi

/-! ### The end of a creation -/

/-- The end of a creation. -/
theorem SeriesLocked.createSpec {input : SeriesIdentity} {r : DatasetSeries} {v : DatasetVersion}
    {jobs : List CalculationJob} {L' : List RowLock} {seen : List Moment} {last : Moment}
    {result : CreateDatasetVersionResult}
    (h : SeriesLocked honours input g r L ws) (hinv : Invariant honours g)
    (hL : ∀ l ∈ L, l ∈ L')
    (hdraft : (ws.foldl Store.apply g.db).Draft r v jobs) (hnow : v.createdAt = env.now)
    (hheld : Row.Held (.datasetVersion v.id) L') (hjobs : JobsInserted g v.id L' jobs)
    (htypes : ∃ g₁ ∈ seen, jobs.map (·.calculationTypeId)
      = (g₁.db.activeCalculationTypes input.domain).map (·.id))
    (hresult : result.datasetSeriesId = r.id ∧ result.datasetVersionId = v.id
      ∧ result.version = v.version ∧ result.datasetStatus = .draft
      ∧ result.calculationJobs.map (·.jobId) = jobs.map (·.id)) :
    CreateSpec honours input env g
      ⟨seen, last, .ok result, L', ws ++ Store.creation r v jobs⟩ where
  commit _ _ := by
    obtain ⟨series, hs⟩ := h.others g.db
    have hchange : g.db.Change env.now L' _ := (h.change _).mono fun row hrow => hrow.mono hL
    have hcreate := Store.Change.create (h.change env.now).consistent hdraft hnow (h.held.mono hL) hheld
      hjobs.held
    rw [List.foldl_append]
    refine .of_change hinv (hchange.trans hcreate (by rw [hs]) (.inl (by rw [hs]))) ?_
    intro _ id a ha
    rw [Store.foldl_creation, hs] at ha
    exact .inl ha
  created _ hr := by
    cases hr
    -- The jobs are inserted last: no row of another table changes.
    refine ⟨r, v, jobs, ws, ⟨⟨?_, fun g₁ hl₁ => h.row g₁ (hl₁.mono hL), h.identity, h.others,
      h.held.mono hL⟩, rfl, hdraft, htypes, ?_⟩⟩
    · exact fun now => (h.change now).mono fun row hrow => hrow.mono hL
    · intro _ he
      cases he
      exact hresult
  error _ he := by cases he

theorem wp_createDatasetVersion {input : SeriesIdentity} (hinv : Invariant honours g) :
    (discipline honours).Wp g fl [] [] (createDatasetVersion input env)
      (CreateSpec honours input env g) := by
  -- An error rolls the transaction back, so only its cause is left to say.
  have hfails : ∀ e seen last L' ws', CreationFailure input g seen e →
      CreateSpec honours input env g ⟨seen, last, .error e, L', ws'⟩ := by
    intro e seen last L' ws' he
    exact ⟨fun _ h => (by cases h), fun _ h => (by cases h), fun _ h => (by cases h; exact he)⟩
  refine Discipline.wp_bind (wp_findOrCreateAndLockDatasetSeries
    (fun _ _ _ _ => hfails _ _ _ _ _ (.uuidTaken _ (by simp))) fun seen last r L pre hl hr => ?_)
  rw [Discipline.continues_ok]
  refine Discipline.wp_bind (wp_findActiveDatasetVersion hr ?_ ?_)
  · intro _ _ _ v hv hactive
    -- The active version was there before, so the series row is not a new one.
    obtain ⟨r', hget, hident, hid⟩ := hr.found hinv hv
    exact Discipline.wp_throw (hfails _ _ _ _ _
      (.activeDatasetVersionExists r' v hget hident (hid ▸ hv) hactive))
  intro seen₁ last₁ hinactive
  rw [Discipline.continues_ok]
  refine Discipline.wp_bind (wp_allocateNextDatasetVersion hr hinv fun seen₂ last₂ => ?_)
  rw [Discipline.continues_ok]
  refine Discipline.wp_bind (wp_insertDraftDatasetVersion hr.cons hinv hinactive ?_ ?_)
  · exact fun _ _ _ _ => hfails _ _ _ _ _ (.uuidTaken _ (by simp))
  intro seen₃ last₃ L₃ hfresh hheld hL₃
  rw [Discipline.continues_ok]
  refine Discipline.wp_bind (Discipline.wp_select fun g₄ _ _ hl₄ => ?_)
  rw [Discipline.continues_ok]
  -- The rows written so far are a series and a version.
  have hpre : ∀ s : Store, ∃ series versions,
      (pre ++ [Write.putDatasetSeries r.allocated]
        ++ [Write.insertDatasetVersion (draftVersion env (env.uuid 1) r)]).foldl Store.apply s
        = { s with datasetSeries := series, datasetVersions := versions } := by
    intro s
    obtain ⟨series, hs⟩ := hr.others s
    rw [List.foldl_append, List.foldl_append, hs]
    exact ⟨_, _, rfl⟩
  have hview : ((machine honours).view g₄.db (pre ++ [.putDatasetSeries r.allocated]
        ++ [.insertDatasetVersion (draftVersion env (env.uuid 1) r)])).activeCalculationTypes
      input.domain = g₄.db.activeCalculationTypes input.domain := by
    obtain ⟨series, versions, hs⟩ := hpre g₄.db
    exact congrArg (·.activeCalculationTypes input.domain) hs
  rw [hview]
  generalize htypes : (g₄.db.activeCalculationTypes input.domain).map
    (fun ct => ({ id := ct.id, code := ct.code } : ActiveCalculationType)) = types
  have hids : types.map (·.id) = (g₄.db.activeCalculationTypes input.domain).map (·.id) := by
    rw [← htypes, List.map_map]
    rfl
  by_cases hnil : types = []
  · -- No type of the domain is active in the state this statement saw.
    rw [if_pos hnil]
    refine Discipline.wp_throw (hfails _ _ _ _ _ (.calculationTypeNotConfigured g₄ ?_ ?_))
    · simp [Outcome.after]
    · rw [hnil] at htypes
      exact List.map_eq_nil_iff.mp htypes
  rw [if_neg hnil]
  have hjobsOf := hinv.consistent.references.jobsOf_eq_nil hfresh
  refine Discipline.wp_bind ?_
  show (discipline honours).Wp g g₄ L₃ _
    (insertPendingCalculationJobs env (env.uuid 1) (jobInserts env types)) _
  refine wp_insertPendingCalculationJobs (List.append_nil _).symm ?_ hheld hjobsOf .nil ?_ ?_ ?_
  · intro s
    obtain ⟨_, _, hs⟩ := hpre s
    rw [hs]
  · -- The types are rows of a table with distinct ids.
    rw [jobInserts_types, hids]
    exact Store.activeCalculationTypes_nodup _ _
  · exact fun _ _ _ _ => hfails _ _ _ _ _ (.uuidTaken "calculation_jobs_pkey" (by simp))
  intro seen₅ last₅ L₅ hL₅ hjobs
  rw [Discipline.continues_ok]
  refine Discipline.wp_pure ?_
  have hinserts : jobInserts env types ≠ [] := by simpa [jobInserts] using hnil
  have hdraft := hr.draft hinv hinactive hfresh hinserts hjobs (fun i hi => ?_)
  · have htypes₅ : ∃ g' ∈ seen ++ (seen₁ ++ (seen₂ ++ (seen₃ ++ (g₄ :: seen₅)))),
        ((jobInserts env types).map (·.row env (env.uuid 1))).map (·.calculationTypeId)
          = (g'.db.activeCalculationTypes input.domain).map (·.id) := by
      refine ⟨g₄, by simp, ?_⟩
      rw [← hids, ← jobInserts_types env, List.map_map]
      rfl
    have hL : ∀ l ∈ L, l ∈ L₅ := fun l hl => hL₅ l (hL₃ l (List.mem_cons_of_mem _ hl))
    have hspec : CreateSpec honours input env g ⟨_, last₅, .ok ⟨r.id, env.uuid 1,
        r.lastAllocatedVersion + 1, .draft, (jobInserts env types).map (·.created)⟩, L₅, _⟩ :=
      hr.createSpec hinv hL hdraft rfl (hheld.mono hL₅) hjobs htypes₅
        ⟨rfl, rfl, rfl, rfl, by simp [CalculationJobInsert.row, CalculationJobInsert.created]⟩
    simpa [Outcome.after, Store.creation] using hspec
  · -- The type of a job is one of the types read, and keeps its domain to the end.
    have hmem : i.calculationTypeId ∈ types.map (·.id) := by
      rw [← jobInserts_types env]
      exact List.mem_map_of_mem hi
    rw [hids] at hmem
    obtain ⟨ct, hct, hid⟩ := List.mem_map.mp hmem
    obtain ⟨hct, hdomain, -⟩ := Store.mem_activeCalculationTypes.mp hct
    obtain ⟨ct', hct', hdomain', -⟩ := hl₄.le.db.type hct
    exact ⟨ct', hid ▸ hct', hdomain'.trans hdomain⟩

end CostEngine
