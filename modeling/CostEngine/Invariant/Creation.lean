import CostEngine.Invariant.Changes

/-! # Creating a version

Two changes: the row of a new series, and a draft version with its jobs. -/

namespace CostEngine

open Relation (ReflTransGen)
open Relational (Table)

namespace Store

variable {s : Store} {L : List RowLock} {now : Time}

/-! ## Rows of what is not there -/

/-- A missing row is referred to by none. -/
theorem References.versionsOf_eq_nil (h : s.References) {r : Uuid}
    (hr : s.datasetSeries.get? r = none) : s.versionsOf r = [] := by
  refine List.eq_nil_iff_forall_not_mem.mpr fun v hv => ?_
  obtain ⟨hv, hvr⟩ := mem_versionsOf.mp hv
  obtain ⟨r', hr', -⟩ := h.version _ v hv
  rw [hvr] at hr'
  exact Table.no_row hr hr'

theorem References.jobsOf_eq_nil (h : s.References) {v : Uuid}
    (hv : s.datasetVersions.get? v = none) : s.jobsOf v = [] := by
  refine List.eq_nil_iff_forall_not_mem.mpr fun j hj => ?_
  obtain ⟨hj, hjv⟩ := mem_jobsOf.mp hj
  obtain ⟨w, -, -, hw, -⟩ := h.job _ j hj
  rw [hjv] at hw
  exact Table.no_row hv hw

theorem References.snapshotsOf_eq_nil (h : s.References) {v : Uuid}
    (hv : s.datasetVersions.get? v = none) : s.snapshotsOf v = [] := by
  refine List.eq_nil_iff_forall_not_mem.mpr fun b hb => ?_
  obtain ⟨hb, hbv⟩ := mem_snapshotsOf.mp hb
  exact absurd (hbv ▸ hv) (h.snapshot _ b hb)

theorem References.attemptsOf_eq_nil (h : s.References) {j : Uuid}
    (hj : s.calculationJobs.get? j = none) : s.attemptsOf j = [] := by
  refine List.eq_nil_iff_forall_not_mem.mpr fun a ha => ?_
  obtain ⟨ha, haj⟩ := mem_attemptsOf.mp ha
  exact absurd (haj ▸ hj) (h.attempt _ a ha).1

theorem References.dependenciesOf_eq_nil (h : s.References) {b : Uuid}
    (hb : s.datasetBuildSnapshots.get? b = none) : s.dependenciesOf b = [] := by
  refine List.eq_nil_iff_forall_not_mem.mpr fun d hd => ?_
  obtain ⟨hd, hdb⟩ := mem_dependenciesOf.mp hd
  exact absurd (hdb ▸ hb) (h.dependency _ d hd).1

/-! ## A new series -/

/-- The series row of `INSERT … ON CONFLICT DO NOTHING`, when there was no conflict. -/
theorem Change.insertSeries (h : s.Consistent) {r : DatasetSeries}
    (hnew : s.datasetSeries.get? r.id = none) (hidentity : s.seriesWith? r.identity = none)
    (hcounter : r.lastAllocatedVersion = 0)
    (hL : Row.Held (.datasetSeries r.id) L) (hL' : Row.Held (.seriesIdentity r.identity) L) :
    s.Change now L (s.apply (.insertDatasetSeries r)) := by
  have hg : s.Grows (s.apply (.insertDatasetSeries r)) := Grows.refl.insertDatasetSeries
  have hget : ∀ id, (s.apply (.insertDatasetSeries r)).datasetSeries.get? id
      = if r.id = id then some r else s.datasetSeries.get? id := fun id => Table.get?_insert hnew
  -- Nobody had the identity before.
  have hother : ∀ id r', s.datasetSeries.get? id = some r' → r'.identity ≠ r.identity := by
    intro id r' hr' he
    have := List.find?_eq_none.mp hidentity r' (Table.get?_mem hr')
    simp [he] at this
  refine ⟨⟨?_, ⟨?_, ?_, h.series.number, h.series.active⟩, h.history, ?_⟩, hg, ?_, ?_⟩
  · refine h.references.grows hg ?_ ?_ ?_ ?_ ?_
    all_goals exact fun id v h₁ h₂ => Table.no_row h₁ h₂
  · intro id r' hr'
    -- The new series has no versions, and its counter says so.
    rw [hget] at hr'
    split at hr'
    · rename_i hid
      cases hr'
      show (s.versionsOf id).map _ = _
      rw [← hid, h.references.versionsOf_eq_nil hnew, hcounter]
      rfl
    · exact h.series.numbered id r' hr'
  · -- Two series with one identity would be an old one and the new one.
    intro id id' r₁ r₂ h₁ h₂ he
    rw [hget] at h₁ h₂
    split at h₁ <;> split at h₂
    · rename_i e₁ e₂; exact e₁.symm.trans e₂
    · cases h₁; exact absurd he.symm (hother id' r₂ h₂)
    · cases h₂; exact absurd he (hother id r₁ h₁)
    · exact h.series.identity id id' r₁ r₂ h₁ h₂ he
  · intro id v hv
    have hid : v.id = id := Table.get?_key hv
    exact (h.version id v hv).grows h.references hg (hid.symm ▸ Table.row_ne_none hv)
      fun _ => ⟨rfl, rfl, fun _ _ => rfl⟩
  · exact fun row hr => same_insertDatasetSeries hnew (fun he => hr (he ▸ hL))
      fun he => hr (he ▸ hL')
  · exact .of_eq rfl rfl

/-! ## The writes of a creation -/

/-- The writes of a new version: the number is allocated, the version inserted, and then
its jobs. -/
def creation (r : DatasetSeries) (v : DatasetVersion) (jobs : List CalculationJob) :
    List Write :=
  [.putDatasetSeries r.allocated, .insertDatasetVersion v] ++ jobs.map .insertCalculationJob

theorem foldl_insertCalculationJob (jobs : List CalculationJob) (s : Store) :
    (jobs.map Write.insertCalculationJob).foldl Store.apply s
      = { s with calculationJobs := jobs.foldl Table.insert s.calculationJobs } := by
  induction jobs generalizing s with
  | nil => rfl
  | cons j jobs ih => rw [List.map_cons, List.foldl_cons, ih]; rfl

theorem foldl_creation (r : DatasetSeries) (v : DatasetVersion)
    (jobs : List CalculationJob) (s : Store) :
    (creation r v jobs).foldl Store.apply s = { s with
      datasetSeries := s.datasetSeries.put r.allocated
      datasetVersions := s.datasetVersions.insert v
      calculationJobs := jobs.foldl Table.insert s.calculationJobs } := by
  rw [creation, List.foldl_append, foldl_insertCalculationJob]
  rfl

/-! ## What a new version is like -/

/-- What a new version has to be like. -/
structure Draft (s : Store) (r : DatasetSeries) (v : DatasetVersion)
    (jobs : List CalculationJob) : Prop where
  series : s.datasetSeries.get? r.id = some r
  owner : v.datasetSeriesId = r.id
  number : v.version = r.lastAllocatedVersion + 1
  status : v.status = .draft
  timed : v.Timed
  inactive : ∀ w ∈ s.versionsOf r.id, w.status.isActive = false
  fresh : s.datasetVersions.get? v.id = none
  jobs_ne_nil : jobs ≠ []
  jobs_fresh : ∀ j ∈ jobs, s.calculationJobs.get? j.id = none
  jobs_nodup : (jobs.map (·.id)).Nodup
  jobs_pending : ∀ j ∈ jobs, j.outputDatasetVersionId = v.id ∧ j.status = .pending
    ∧ j.resolvedDependencyDefinitionVersionId = none
  jobs_type : ∀ j ∈ jobs, ∃ ct, s.calculationTypes.get? j.calculationTypeId = some ct
    ∧ ct.domain = r.identity.domain

/-! ## A new version -/

theorem Change.create (h : s.Consistent) {r : DatasetSeries} {v : DatasetVersion}
    {jobs : List CalculationJob} (hd : s.Draft r v jobs) (hnow : v.createdAt = now)
    (hL : Row.Held (.datasetSeries r.id) L) (hL' : Row.Held (.datasetVersion v.id) L)
    (hjobs : ∀ j ∈ jobs, Row.Held (.calculationJob j.id) L) :
    s.Change now L ((creation r v jobs).foldl Store.apply s) := by
  rw [foldl_creation]
  have hnil := h.references.jobsOf_eq_nil hd.fresh
  -- The series row as a growth step, then version and jobs; jobs only of the new version.
  have hrow : ∀ id, (s.datasetSeries.put r.allocated).get? id
      = if r.id = id then some r.allocated else s.datasetSeries.get? id := by
    intro id
    refine Table.get?_put.trans ?_
    show (if r.id = id then _ else _) = _
    split
    · rename_i he
      rw [← he, hd.series]
      rfl
    · rfl
  have hver : ∀ id, (s.datasetVersions.insert v).get? id
      = if v.id = id then some v else s.datasetVersions.get? id :=
    fun id => Table.get?_insert hd.fresh
  have hjob : ∀ id, (jobs.foldl Table.insert s.calculationJobs).get? id
      = (s.calculationJobs.get? id).or (jobs.find? fun j => j.id = id) :=
    fun id => Table.get?_foldl_insert hd.jobs_nodup hd.jobs_fresh
  have hjobsOf : ∀ id, ((jobs.foldl Table.insert s.calculationJobs).select
      fun j => j.outputDatasetVersionId = id)
      = s.jobsOf id ++ jobs.filter fun j => j.outputDatasetVersionId = id :=
    fun id => Table.select_foldl_insert hd.jobs_nodup hd.jobs_fresh
  have hjobsOf_old : ∀ id, id ≠ v.id → ((jobs.foldl Table.insert s.calculationJobs).select
      fun j => j.outputDatasetVersionId = id) = s.jobsOf id := by
    intro id hne
    rw [hjobsOf, List.filter_eq_nil_iff.mpr, List.append_nil]
    intro j hj
    simp [(hd.jobs_pending j hj).1, hne.symm]
  have hjobsOf_new : ((jobs.foldl Table.insert s.calculationJobs).select
      fun j => j.outputDatasetVersionId = v.id) = jobs := by
    rw [hjobsOf, hnil, List.nil_append, List.filter_eq_self.mpr]
    intro j hj
    simp [(hd.jobs_pending j hj).1]
  -- Growth only: a counter that goes up, a new version and jobs of that version.
  have hg : s.Grows { s with
      datasetSeries := s.datasetSeries.put r.allocated
      datasetVersions := s.datasetVersions.insert v
      calculationJobs := jobs.foldl Table.insert s.calculationJobs } :=
    { Grows.refl with
      series := Table.grows_put (show s.datasetSeries.get? r.allocated.id = some r from
        hd.series) (.allocated r)
      versions := Table.grows_insert
      jobs := fun id j hj => ⟨j, by rw [hjob, hj, Option.some_or], .refl⟩
      jobsOf := fun id hid => congrArg _ (hjobsOf_old id fun e => hid (e ▸ hd.fresh)) }
  refine ⟨⟨?_, ⟨?_, ?_, ?_, ?_⟩, ?_, ?_⟩, hg, ?_, ?_⟩
  · refine h.references.grows hg ?_ ?_ ?_ ?_ ?_
    · -- The version is the new one, below the new counter of its series.
      intro id w h₁ h₂
      rw [hver] at h₂
      split at h₂
      · cases h₂
        refine ⟨r.allocated, ?_, ?_⟩
        · rw [hrow, if_pos hd.owner.symm]
        · rw [hd.number]
          exact Nat.le_refl _
      · exact Table.no_row h₁ h₂
    · -- A new job belongs to the new version, and its type to the domain of the series.
      intro id j h₁ h₂
      rw [hjob, h₁, Option.none_or] at h₂
      have hj := List.mem_of_find?_eq_some h₂
      obtain ⟨ct, hct, hdomain⟩ := hd.jobs_type j hj
      refine ⟨v, r.allocated, ct, ?_, ?_, hct, hdomain⟩
      · rw [(hd.jobs_pending j hj).1, hver, if_pos rfl]
      · rw [hrow, if_pos hd.owner.symm]
    all_goals exact fun id v h₁ h₂ => Table.no_row h₁ h₂
  · intro id r' hr'
    rw [hrow] at hr'
    split at hr'
    · -- The new version comes last and has the next number.
      rename_i hid
      cases hr'
      subst hid
      show ((s.datasetVersions.insert v).select _).map _ = _
      rw [Table.select_insert hd.fresh, List.filter_cons_of_pos (by simp [hd.owner]),
        List.filter_nil, List.map_append]
      show (s.versionsOf r.id).map _ ++ _ = _
      rw [h.series.numbered _ r hd.series, List.map_singleton, hd.number]
      show _ = List.range' 1 (r.lastAllocatedVersion + 1)
      rw [List.range'_concat, Nat.one_mul, Nat.add_comm]
    · rename_i hid
      show ((s.datasetVersions.insert v).select _).map _ = _
      rw [Table.select_insert_of_not (by simpa [hd.owner] using hid)]
      exact h.series.numbered id r' hr'
  · intro id id' r₁ r₂ h₁ h₂ he
    -- The counter is all that changes of a series.
    have hback : ∀ id r', (s.datasetSeries.put r.allocated).get? id = some r' →
        ∃ r₀, s.datasetSeries.get? id = some r₀ ∧ r₀.identity = r'.identity := by
      intro id r' hr'
      rw [hrow] at hr'
      split at hr'
      · rename_i hid
        cases hr'
        exact ⟨r, hid ▸ hd.series, rfl⟩
      · exact ⟨r', hr', rfl⟩
    obtain ⟨r₁', h₁', e₁⟩ := hback id r₁ h₁
    obtain ⟨r₂', h₂', e₂⟩ := hback id' r₂ h₂
    exact h.series.identity id id' r₁' r₂' h₁' h₂' (by rw [e₁, e₂, he])
  · -- The new number is above every number of the series.
    have hbelow : ∀ id w, s.datasetVersions.get? id = some w →
        w.datasetSeriesId = v.datasetSeriesId → w.version ≠ v.version := by
      intro id w hw hs he
      obtain ⟨r', hr', hle⟩ := h.references.version id w hw
      rw [hs, hd.owner, hd.series] at hr'
      obtain rfl := Option.some.inj hr'
      rw [he, hd.number] at hle
      exact absurd hle (Nat.not_succ_le_self _)
    intro id id' v₁ v₂ h₁ h₂ hs he
    rw [hver] at h₁ h₂
    split at h₁ <;> split at h₂
    · rename_i e₁ e₂; exact e₁.symm.trans e₂
    · cases h₁; exact absurd he.symm (hbelow id' v₂ h₂ hs.symm)
    · cases h₂; exact absurd he (hbelow id v₁ h₁ hs)
    · exact h.series.number id id' v₁ v₂ h₁ h₂ hs he
  · -- The series had no active version.
    have hinactive : ∀ id w, s.datasetVersions.get? id = some w →
        w.datasetSeriesId = v.datasetSeriesId → w.status.isActive = false := by
      intro id w hw hs
      exact hd.inactive w (mem_versionsOf.mpr
        ⟨(Table.get?_key hw).symm ▸ hw, hs.trans hd.owner⟩)
    intro id id' v₁ v₂ h₁ h₂ hs ha ha'
    rw [hver] at h₁ h₂
    split at h₁ <;> split at h₂
    · rename_i e₁ e₂; exact e₁.symm.trans e₂
    · cases h₁; rw [hinactive id' v₂ h₂ hs.symm] at ha'; cases ha'
    · cases h₂; rw [hinactive id v₁ h₁ hs] at ha; cases ha
    · exact h.series.active id id' v₁ v₂ h₁ h₂ hs ha ha'
  · -- New jobs have no attempts, the others have those they had.
    intro id j hj
    rw [hjob] at hj
    show History (s.attemptsOf id) _
    cases ho : s.calculationJobs.get? id with
    | some j₀ =>
        rw [ho, Option.some_or] at hj
        cases hj
        exact h.history id j ho
    | none =>
        rw [ho, Option.none_or] at hj
        have hmem := List.mem_of_find?_eq_some hj
        rw [h.references.attemptsOf_eq_nil ho, (hd.jobs_pending j hmem).2.1]
        exact .nil
  · intro id w hw
    rw [hver] at hw
    split at hw
    · cases hw
      refine ⟨hd.timed, ?_, ?_⟩
      · show Table.select _ _ ≠ []
        rw [hjobsOf_new]
        exact hd.jobs_ne_nil
      · -- A draft: nothing is resolved, nothing prepared, nothing frozen.
        unfold Store.Build
        rw [hd.status]
        refine ⟨h.references.snapshotsOf_eq_nil hd.fresh, fun j hj => ?_⟩
        have hj : j ∈ jobs := hjobsOf_new ▸ hj
        exact ⟨(hd.jobs_pending j hj).2.2,
          h.references.attemptsOf_eq_nil (hd.jobs_fresh j hj)⟩
    · rename_i hne
      -- The jobs of the other versions are as they were.
      have hid : w.id = id := Table.get?_key hw
      refine (h.version id w hw).grows h.references hg (hid.symm ▸ Table.row_ne_none hw) ?_
      exact fun _ => ⟨rfl, hjobsOf_old _ fun e => hne (e.symm.trans hid), fun _ _ => rfl⟩
  · intro row hr
    cases row with
    | datasetSeries id =>
        have hne : r.id ≠ id := fun e => hr (e ▸ hL)
        refine ⟨?_, ?_⟩
        · show (s.datasetSeries.put r.allocated).get? id = _
          rw [hrow, if_neg hne]
        · -- The new version belongs to another series.
          refine congrArg _ (Table.select_insert_of_not ?_)
          simpa [hd.owner] using hne
    | datasetVersion id =>
        have hne : v.id ≠ id := fun e => hr (e ▸ hL')
        refine ⟨?_, rfl, congrArg _ (hjobsOf_old id (Ne.symm hne))⟩
        show (s.datasetVersions.insert v).get? id = _
        rw [hver, if_neg hne]
    | calculationJob id =>
        have hnone : jobs.find? (fun j => j.id = id) = none := by
          refine List.find?_eq_none.mpr fun j hj he => ?_
          rw [decide_eq_true_eq] at he
          exact hr (he ▸ hjobs j hj)
        have hget : (jobs.foldl Table.insert s.calculationJobs).get? id
            = s.calculationJobs.get? id := by rw [hjob, hnone, Option.or_none]
        refine ⟨hget, rfl, ?_⟩
        show ((jobs.foldl Table.insert s.calculationJobs).get? id).bind _
          = (s.calculationJobs.get? id).bind _
        rw [hget]
        -- A job that is there belongs to a version that is there, which is not the new one.
        cases hj : s.calculationJobs.get? id with
        | none => rfl
        | some j =>
            obtain ⟨w, -, -, hw, -⟩ := h.references.job id j hj
            show ((s.datasetVersions.insert v).get? _).bind _
              = (s.datasetVersions.get? j.outputDatasetVersionId).bind _
            rw [Table.get?_insert_of_some hw, hw]
    | seriesIdentity identity =>
        have hold : s.datasetSeries.get? r.allocated.id = some r := hd.series
        exact same_putDatasetSeries hold rfl (r := .seriesIdentity identity) (by simp)
    | _ => trivial
  · refine ⟨Single.refl.attempts, fun id w hw => ⟨w, Table.get?_insert_of_some hw, .inl rfl⟩,
      Single.refl.newAttempts, fun id w hn hw => ?_⟩
    rcases Table.of_get?_insert hw with hw | rfl
    · exact Table.no_row hn hw
    · exact ⟨hd.status, hnow⟩

end Store

end CostEngine
