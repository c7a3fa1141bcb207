import CostEngine.Migration.Preflights

/-! # `down` undoes `up`, row by row

A job is rewritten in the light of its version, its series and its type, so its round trip
needs what the preflight says about them: a validation or rejection stands on both rows or
on none. -/

namespace CostEngine

open Relational

/-! ## Series and versions -/

namespace LegacyDatabase

theorem upSeries_eq_ok {run : MigrationRun} {s : LegacySeries} {r : DatasetSeriesRow} :
    upSeries run s = .ok r ↔ 0 < integer (splitPart s.businessKey 2) ∧
      ∃ period : DatasetPeriod, splitPart s.businessKey 3 = toString period ∧
        r = ⟨⟨s.id, ⟨s.domain, splitPart s.businessKey 1, integer (splitPart s.businessKey 2),
          period⟩, s.lastVersion⟩, some s.businessKey, run.now⟩ := by
  simp only [upSeries, bind_eq_ok, exists_checked, require_eq_ok, present_eq_ok, pure_eq_ok,
    DatasetPeriod.ofText?_eq_some, eq_comm (b := r)]

theorem upSeries_undone {run : MigrationRun} {s : LegacySeries} {r : DatasetSeriesRow}
    (h : upSeries run s = .ok r) : V2Database.downSeries r = .ok s := by
  obtain ⟨-, period, -, rfl⟩ := upSeries_eq_ok.mp h
  rfl

theorem upVersion_eq_ok {v : LegacyVersion} {w : DatasetVersion} : upVersion v = .ok w ↔
    ∃ status, v.status.v2? = some status ∧ w = ⟨v.id, v.datasetSeriesId, v.version, status,
      v.createdAt, none, none, v.publishedAt, none, none⟩ := by
  simp only [upVersion, bind_eq_ok, present_eq_ok, pure_eq_ok, eq_comm (b := w)]

theorem legacy_of_v2 {old : LegacyVersionStatus} {new : DatasetVersionStatus}
    (h : old.v2? = some new) : new.legacy? = some old := by
  cases old <;> cases h <;> rfl

theorem upVersion_undone {v : LegacyVersion} {w : DatasetVersion} (h : upVersion v = .ok w) :
    V2Database.downVersion w = .ok v := by
  obtain ⟨status, hstatus, rfl⟩ := upVersion_eq_ok.mp h
  simp only [V2Database.downVersion, legacy_of_v2 hstatus, bind_eq_ok, present_eq_ok, pure_eq_ok,
    Option.some.injEq, exists_eq_left']

/-! ## The joins -/

variable {db : LegacyDatabase} {run : MigrationRun} {db' : V2Database}

theorem Constraints.versionOf (h : db.Constraints) {j : LegacyJob} (hj : j ∈ db.calculationJobs) :
    ∃ v ∈ db.datasetVersions, db.versionOf? j = some v ∧ v.id = j.outputDatasetVersionId
      ∧ v.datasetSeriesId = j.datasetSeriesId := by
  obtain ⟨v, hv, hseries, hid⟩ := h.jobVersion j hj
  exact ⟨v, hv, (find_key h.versionId).mpr ⟨hv, hid⟩, hid, hseries⟩

theorem Constraints.seriesOf (h : db.Constraints) {v : LegacyVersion}
    (hv : v ∈ db.datasetVersions) :
    ∃ s ∈ db.datasetSeries, db.seriesOf? v = some s ∧ s.id = v.datasetSeriesId := by
  obtain ⟨s, hs, hid⟩ := h.versionSeries v hv
  exact ⟨s, hs, (find_key h.seriesId).mpr ⟨hs, hid⟩, hid⟩

theorem Constraints.domainOf (h : db.Constraints) {j : LegacyJob} (hj : j ∈ db.calculationJobs) :
    ∃ domain, db.domainOf? j = some domain := by
  obtain ⟨v, hv, hversion, -⟩ := h.versionOf hj
  obtain ⟨s, -, hseries, -⟩ := h.seriesOf hv
  exact ⟨s.domain, by simp [domainOf?, hversion, hseries]⟩

theorem mem_bridgeTypes {t : CalculationTypeRow} : t ∈ db.bridgeTypes run ↔
    ∃ j ∈ db.calculationJobs, ∃ domain, db.domainOf? j = some domain ∧ t = bridgeType run domain := by
  simp only [bridgeTypes, List.mem_map, List.mem_dedup, List.mem_filterMap]
  constructor
  · rintro ⟨domain, ⟨j, hj, hdomain⟩, rfl⟩
    exact ⟨j, hj, domain, hdomain, rfl⟩
  · rintro ⟨j, hj, domain, hdomain, rfl⟩
    exact ⟨domain, ⟨j, hj, hdomain⟩, rfl⟩

theorem bridgeTypes_domainCode :
    ((db.bridgeTypes run).map fun t => (t.domain, t.code)).Nodup := by
  rw [bridgeTypes, List.map_map]
  refine (List.nodup_dedup _).map fun a b hab => ?_
  exact (Prod.mk.inj hab).1

/-- The type of a job is the compatibility type of its domain. -/
theorem typeOf_bridgeTypes {j : LegacyJob} (hj : j ∈ db.calculationJobs) {domain : String}
    (hdomain : db.domainOf? j = some domain) :
    db.typeOf? (db.bridgeTypes run) j = some (bridgeType run domain) := by
  rw [typeOf?, hdomain]
  exact (find_key bridgeTypes_domainCode).mpr
    ⟨mem_bridgeTypes.mpr ⟨j, hj, domain, hdomain, rfl⟩, rfl⟩

/-! ## Validations and rejections -/

/-- A job and its version are validating together, and rejected together. -/
structure Paired (job : LegacyJobStatus) (version : LegacyVersionStatus) : Prop where
  validating : job = .validating ↔ version = .validating
  rejected : job = .rejected ↔ version = .rejected

theorem Migratable.paired (h : db.Migratable) {j : LegacyJob} (hj : j ∈ db.calculationJobs)
    {v : LegacyVersion} (hv : v ∈ db.datasetVersions) (hversion : db.versionOf? j = some v)
    (hid : v.id = j.outputDatasetVersionId) : Paired j.status v.status := by
  have hjob := h.jobs j hj
  have hdiffers := h.versions v hv
  have hmem : j ∈ db.jobsOf v := List.mem_filter.mpr ⟨hj, decide_eq_true hid.symm⟩
  rw [versionDiffers, hversion] at hjob
  -- the preflight's first query goes from the job to the version, its second one back
  have hback {status : LegacyJobStatus} (hstatus : v.status.onJob? = some status) :
      j.status = status := by
    rw [jobDiffers, hstatus] at hdiffers
    simp only [Bool.or_eq_false_iff, List.any_eq_false, decide_eq_true_eq, ne_eq,
      Decidable.not_not] at hdiffers
    exact hdiffers.2 j hmem
  simp only [Option.any_some, Bool.or_eq_false_iff, Bool.and_eq_false_imp, decide_eq_true_eq,
    decide_eq_false_iff_not, ne_eq, Decidable.not_not] at hjob
  exact
    { validating := ⟨hjob.1, fun hstatus => hback (by rw [hstatus]; rfl)⟩
      rejected := ⟨hjob.2, fun hstatus => hback (by rw [hstatus]; rfl)⟩ }

/-- A paired status is completed to one that v2 has. -/
theorem completedStatus_eq {j : LegacyJob} {v : LegacyVersion} (hversion : db.versionOf? j = some v)
    (hpaired : Paired j.status v.status) : db.completedStatus j
      = if j.status = .validating ∨ j.status = .rejected then .succeeded else j.status := by
  rw [completedStatus, hversion]
  simp only [← hpaired.validating, ← hpaired.rejected, and_self]

theorem completedStatus_v2 {j : LegacyJob} {v : LegacyVersion} (hversion : db.versionOf? j = some v)
    (hpaired : Paired j.status v.status) : ∃ status, (db.completedStatus j).v2? = some status := by
  rw [completedStatus_eq hversion hpaired]
  cases j.status <;> simp [LegacyJobStatus.v2?]

/-- Going back, the status of the version tells which completed jobs were validating or
rejected. -/
theorem status_undone {old : LegacyJobStatus} {version : LegacyVersionStatus}
    {new : CalculationJobStatus} {version' : DatasetVersionStatus} (hpaired : Paired old version)
    (hnew : (if old = .validating ∨ old = .rejected then LegacyJobStatus.succeeded else old).v2?
      = some new) (hversion : version.v2? = some version') :
    V2Database.restoredStatus version' new = old := by
  obtain ⟨hvalidating, hrejected⟩ := hpaired
  cases old <;> cases version <;> first
    | exact absurd (hvalidating.mpr rfl) (by decide)
    | exact absurd (hvalidating.mp rfl) (by decide)
    | exact absurd (hrejected.mpr rfl) (by decide)
    | exact absurd (hrejected.mp rfl) (by decide)
    | cases hversion <;> cases hnew <;> rfl

/-! ## Jobs -/

theorem upJob_eq_ok {types : List CalculationTypeRow} {j : LegacyJob} {k : CalculationJob} :
    db.upJob types j = .ok k ↔ ∃ type, db.typeOf? types j = some type ∧
      ∃ status, (db.completedStatus j).v2? = some status ∧
        k = ⟨j.id, j.outputDatasetVersionId, type.id, status, none, j.createdAt, j.startedAt,
          j.finishedAt⟩ := by
  simp only [upJob, bind_eq_ok, present_eq_ok, pure_eq_ok, eq_comm (b := k)]

/-- **A job comes back as it was.** -/
theorem Migrates.upJob_undone (m : db.Migrates run db') (h : db.Constraints) {j : LegacyJob}
    (hj : j ∈ db.calculationJobs) {k : CalculationJob}
    (hk : db.upJob db'.calculationTypes j = .ok k) : db'.downJob k = .ok j := by
  obtain ⟨v, hv, hversion, hid, hseries⟩ := h.versionOf hj
  have hpaired := m.migratable.paired hj hv hversion hid
  obtain ⟨type, htype, status, hstatus, rfl⟩ := upJob_eq_ok.mp hk
  rw [completedStatus_eq hversion hpaired] at hstatus
  -- the version of the migrated job is the migrated version
  obtain ⟨w, hw, hup⟩ := rewrite_find (q := fun w => w.id = j.outputDatasetVersionId) m.versions
    (fun a _ b hab => by obtain ⟨_, _, rfl⟩ := upVersion_eq_ok.mp hab; rfl) hversion
  obtain ⟨status', hstatus', rfl⟩ := upVersion_eq_ok.mp hup
  have hback := status_undone hpaired hstatus hstatus'
  simp only [V2Database.downJob, V2Database.versionOf?, hw, present, bind_eq_ok, pure_eq_ok,
    Except.ok.injEq, exists_eq_left', hback, hseries]

/-! ## Rows after `up` -/

namespace Migrates

theorem of_series (m : db.Migrates run db') {r : DatasetSeriesRow} (hr : r ∈ db'.datasetSeries) :
    ∃ s ∈ db.datasetSeries, ∃ period : DatasetPeriod,
      splitPart s.businessKey 3 = toString period ∧
        r = ⟨⟨s.id, ⟨s.domain, splitPart s.businessKey 1, integer (splitPart s.businessKey 2),
          period⟩, s.lastVersion⟩, some s.businessKey, run.now⟩ := by
  obtain ⟨s, hs, hup⟩ := rewrite_mem m.series hr
  obtain ⟨-, period, hperiod, rfl⟩ := upSeries_eq_ok.mp hup
  exact ⟨s, hs, period, hperiod, rfl⟩

theorem of_version (m : db.Migrates run db') {w : DatasetVersion} (hw : w ∈ db'.datasetVersions) :
    ∃ v ∈ db.datasetVersions, ∃ status, v.status.v2? = some status ∧ w = ⟨v.id,
      v.datasetSeriesId, v.version, status, v.createdAt, none, none, v.publishedAt, none, none⟩ := by
  obtain ⟨v, hv, hup⟩ := rewrite_mem m.versions hw
  exact ⟨v, hv, upVersion_eq_ok.mp hup⟩

theorem seriesIds (m : db.Migrates run db') :
    db'.datasetSeries.map (·.id) = db.datasetSeries.map (·.id) :=
  rewrite_map m.series fun _ _ _ h => by obtain ⟨-, _, -, rfl⟩ := upSeries_eq_ok.mp h; rfl

theorem versionKeys (m : db.Migrates run db') :
    db'.datasetVersions.map (fun w => (w.id, w.datasetSeriesId, w.version))
      = db.datasetVersions.map fun v => (v.id, v.datasetSeriesId, v.version) :=
  rewrite_map m.versions fun _ _ _ h => by obtain ⟨_, -, rfl⟩ := upVersion_eq_ok.mp h; rfl

theorem jobKeys (m : db.Migrates run db') :
    db'.calculationJobs.map (fun k => (k.id, k.outputDatasetVersionId))
      = db.calculationJobs.map fun j => (j.id, j.outputDatasetVersionId) :=
  rewrite_map m.jobs fun _ _ _ h => by obtain ⟨_, -, _, -, rfl⟩ := upJob_eq_ok.mp h; rfl

theorem versionIds (m : db.Migrates run db') :
    db'.datasetVersions.map (·.id) = db.datasetVersions.map (·.id) := by
  have := congrArg (List.map Prod.fst) m.versionKeys
  rwa [List.map_map, List.map_map] at this

theorem outputs (m : db.Migrates run db') :
    db'.calculationJobs.map (·.outputDatasetVersionId)
      = db.calculationJobs.map (·.outputDatasetVersionId) := by
  have := congrArg (List.map Prod.snd) m.jobKeys
  rwa [List.map_map, List.map_map] at this

/-- The domain of a job, by its version and series, is what it was. -/
theorem domainOf (m : db.Migrates run db') {j : LegacyJob} {k : CalculationJob}
    (hk : db.upJob db'.calculationTypes j = .ok k) {domain : String}
    (hdomain : db.domainOf? j = some domain) : db'.domainOf? k = some domain := by
  obtain ⟨_, -, _, -, rfl⟩ := upJob_eq_ok.mp hk
  simp only [LegacyDatabase.domainOf?, Option.bind_eq_bind, Option.bind_eq_some_iff,
    Option.pure_def, Option.some.injEq] at hdomain
  obtain ⟨v, hv, s, hs, rfl⟩ := hdomain
  obtain ⟨w, hw, hup⟩ := rewrite_find (q := fun w => w.id = j.outputDatasetVersionId) m.versions
    (fun a _ b hab => by obtain ⟨_, -, rfl⟩ := upVersion_eq_ok.mp hab; rfl) hv
  obtain ⟨_, -, rfl⟩ := upVersion_eq_ok.mp hup
  obtain ⟨r, hr, hup⟩ := rewrite_find (q := fun r => r.id = v.datasetSeriesId) m.series
    (fun a _ b hab => by obtain ⟨-, _, -, rfl⟩ := upSeries_eq_ok.mp hab; rfl) hs
  obtain ⟨-, _, -, rfl⟩ := upSeries_eq_ok.mp hup
  simp only [V2Database.domainOf?, V2Database.versionOf?, V2Database.seriesOf?, hw, hr,
    Option.bind_eq_bind, Option.bind_some, Option.pure_def]

/-- A migrated job has the compatibility type of its domain. -/
theorem typeOf (m : db.Migrates run db') {j : LegacyJob} (hj : j ∈ db.calculationJobs)
    {k : CalculationJob} (hk : db.upJob db'.calculationTypes j = .ok k) {domain : String}
    (hdomain : db.domainOf? j = some domain) :
    k.calculationTypeId = run.typeId domain ∧ db'.typeOf? k = some (bridgeType run domain) := by
  obtain ⟨type, htype, _, -, rfl⟩ := upJob_eq_ok.mp hk
  rw [m.types, typeOf_bridgeTypes hj hdomain] at htype
  cases htype
  refine ⟨rfl, (find_key m.typeId).mpr ⟨?_, rfl⟩⟩
  rw [m.types]
  exact mem_bridgeTypes.mpr ⟨j, hj, domain, hdomain, rfl⟩

theorem of_job (m : db.Migrates run db') (h : db.Constraints) {k : CalculationJob}
    (hk : k ∈ db'.calculationJobs) : ∃ j ∈ db.calculationJobs, ∃ domain,
      db.upJob db'.calculationTypes j = .ok k ∧ db.domainOf? j = some domain := by
  obtain ⟨j, hj, hup⟩ := rewrite_mem m.jobs hk
  obtain ⟨domain, hdomain⟩ := h.domainOf hj
  exact ⟨j, hj, domain, hup, hdomain⟩

theorem mem_bridges (m : db.Migrates run db') (h : db.Constraints) {id : Uuid} :
    id ∈ db'.bridges ↔ ∃ j ∈ db.calculationJobs, ∃ domain, db.domainOf? j = some domain ∧
      id = run.typeId domain := by
  rw [m.bridges, List.mem_dedup, List.mem_filterMap, m.types]
  constructor
  · rintro ⟨j, hj, hid⟩
    obtain ⟨domain, hdomain⟩ := h.domainOf hj
    rw [typeOf_bridgeTypes hj hdomain] at hid
    exact ⟨j, hj, domain, hdomain, (Option.some.inj hid).symm⟩
  · rintro ⟨j, hj, domain, hdomain, rfl⟩
    exact ⟨j, hj, by rw [typeOf_bridgeTypes hj hdomain]; rfl⟩

end Migrates

end LegacyDatabase

end CostEngine
