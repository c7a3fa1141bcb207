import CostEngine.Migration.Undoing

/-! # What `up` makes of a database that was rolled back

The other way round: a row that went back to the original schema and comes again is the row
it was, but for what a run of `up` generates. -/

namespace CostEngine

open Relational

namespace V2Database

variable {db : V2Database} {legacy : LegacyDatabase} {run : MigrationRun}

/-! ## Rows -/

theorem downSeries_eq_ok {r : DatasetSeriesRow} {s : LegacySeries} : downSeries r = .ok s ↔
    ∃ key, r.legacyBusinessKey = some key ∧
      s = ⟨r.id, r.identity.domain, key, r.lastAllocatedVersion⟩ := by
  simp only [downSeries, bind_eq_ok, present_eq_ok, pure_eq_ok, eq_comm (b := s)]

theorem downVersion_eq_ok {w : DatasetVersion} {v : LegacyVersion} : downVersion w = .ok v ↔
    ∃ status, w.status.legacy? = some status ∧
      v = ⟨w.id, w.datasetSeriesId, w.version, status, w.createdAt, w.publishedAt⟩ := by
  simp only [downVersion, bind_eq_ok, present_eq_ok, pure_eq_ok, eq_comm (b := v)]

theorem downJob_eq_ok {k : CalculationJob} {j : LegacyJob} : db.downJob k = .ok j ↔
    ∃ w, db.versionOf? k = some w ∧ j = ⟨k.id, w.datasetSeriesId, k.outputDatasetVersionId,
      restoredStatus w.status k.status, k.createdAt, k.startedAt, k.finishedAt⟩ := by
  simp only [downJob, bind_eq_ok, present_eq_ok, pure_eq_ok, eq_comm (b := j)]

theorem v2_of_legacy {new : DatasetVersionStatus} {old : LegacyVersionStatus}
    (h : new.legacy? = some old) : old.v2? = some new := by
  cases new <;> cases h <;> rfl

/-! ## Active jobs -/

/-- The last query of the preflight foresees which jobs will be active in the original schema. -/
theorem activeSeries_eq {k : CalculationJob} {j : LegacyJob} (h : db.downJob k = .ok j) :
    (if j.status.isActive then some j.datasetSeriesId else none) = db.activeSeries? k := by
  obtain ⟨w, hw, rfl⟩ := downJob_eq_ok.mp h
  simp only [activeSeries?, hw, Option.bind_eq_bind, Option.bind_some]
  cases w.status <;> cases k.status <;> rfl

theorem active_eq {jobs : List LegacyJob} (h : rewrite db.downJob db.calculationJobs = .ok jobs) :
    (jobs.filter (·.status.isActive)).map (·.datasetSeriesId)
      = db.calculationJobs.filterMap db.activeSeries? := by
  rw [← List.filterMap_eq_map', List.filterMap_filter]
  exact rewrite_filterMap h fun k _ j hj => activeSeries_eq hj

/-! ## The joins -/

theorem Constraints.versionOf (h : db.Constraints) {k : CalculationJob}
    (hk : k ∈ db.calculationJobs) : ∃ w ∈ db.datasetVersions, db.versionOf? k = some w
      ∧ w.id = k.outputDatasetVersionId := by
  obtain ⟨w, hw, hid⟩ := h.jobVersion k hk
  exact ⟨w, hw, (find_key h.versionId).mpr ⟨hw, hid⟩, hid⟩

theorem Constraints.domainOf (h : db.Constraints) {k : CalculationJob}
    (hk : k ∈ db.calculationJobs) : ∃ domain, db.domainOf? k = some domain := by
  obtain ⟨w, hw, hversion, -⟩ := h.versionOf hk
  obtain ⟨s, hs, hid⟩ := h.versionSeries w hw
  have hseries : db.seriesOf? w = some s := (find_key h.seriesId).mpr ⟨hs, hid⟩
  exact ⟨s.identity.domain, by simp [domainOf?, hversion, hseries]⟩

/-- A quiet preflight has seen that the type of a job is the compatibility type of its domain. -/
theorem Representable.typeOf (hr : db.Representable) (h : db.Constraints) {k : CalculationJob}
    (hk : k ∈ db.calculationJobs) : ∃ t ∈ db.calculationTypes, t.id = k.calculationTypeId
      ∧ db.typeOf? k = some t ∧ db.domainOf? k = some t.domain := by
  obtain ⟨t, ht, hid⟩ := h.jobType k hk
  obtain ⟨domain, hdomain⟩ := h.domainOf hk
  have htype : db.typeOf? k = some t := (find_key h.typeId).mpr ⟨ht, hid⟩
  have hother := hr.jobTypes k hk
  simp only [hasOtherType, htype, hdomain, Option.any_some, Bool.or_eq_false_iff,
    decide_eq_false_iff_not, ne_eq, Decidable.not_not] at hother
  exact ⟨t, ht, hid, htype, hother.2 ▸ hdomain⟩

/-- And that every type is an unmodified bridge which some job needs. -/
theorem Representable.type (hr : db.Representable) (h : db.Constraints) {t : CalculationTypeRow}
    (ht : t ∈ db.calculationTypes) :
    t = ⟨⟨t.id, t.domain, "LEGACY_DEFAULT", legacyDagId t.domain, false⟩, 0, t.createdAt⟩ ∧
      ∃ k ∈ db.calculationJobs, k.calculationTypeId = t.id ∧ db.domainOf? k = some t.domain := by
  have hmodified := hr.bridges t.id (hr.types t ht)
  rw [(find_key h.typeId).mpr ⟨ht, rfl⟩] at hmodified
  simp only [isModified, Option.any_some, Bool.or_eq_false_iff, decide_eq_false_iff_not, ne_eq,
    Decidable.not_not, Bool.not_eq_eq_eq_not, Bool.not_false, List.any_eq_true, Bool.and_eq_true,
    decide_eq_true_eq] at hmodified
  obtain ⟨⟨⟨⟨hcode, hactive⟩, hlast⟩, hdag⟩, k, hk, hid, hdomain⟩ := hmodified
  obtain ⟨⟨id, domain, code, dag, active⟩, last, created⟩ := t
  cases hcode
  cases hactive
  cases hlast
  have hdag : dag = legacyDagId domain := hdag
  subst hdag
  exact ⟨rfl, k, hk, hid, hdomain⟩

/-! ## Going back -/

namespace RollsBack

theorem domainOf (m : db.RollsBack legacy) {k : CalculationJob} {j : LegacyJob}
    (hj : db.downJob k = .ok j) {domain : String} (hdomain : db.domainOf? k = some domain) :
    legacy.domainOf? j = some domain := by
  obtain ⟨_, -, rfl⟩ := downJob_eq_ok.mp hj
  simp only [V2Database.domainOf?, Option.bind_eq_bind, Option.bind_eq_some_iff, Option.pure_def,
    Option.some.injEq] at hdomain
  obtain ⟨w, hw, r, hr, rfl⟩ := hdomain
  obtain ⟨v, hv, hdown⟩ := rewrite_find (q := fun v => v.id = k.outputDatasetVersionId) m.versions
    (fun a _ b hab => by obtain ⟨_, -, rfl⟩ := downVersion_eq_ok.mp hab; rfl) hw
  obtain ⟨_, -, rfl⟩ := downVersion_eq_ok.mp hdown
  obtain ⟨s, hs, hdown⟩ := rewrite_find (q := fun s => s.id = w.datasetSeriesId) m.series
    (fun a _ b hab => by obtain ⟨_, -, rfl⟩ := downSeries_eq_ok.mp hab; rfl) hr
  obtain ⟨_, -, rfl⟩ := downSeries_eq_ok.mp hdown
  simp only [LegacyDatabase.domainOf?, LegacyDatabase.versionOf?, LegacyDatabase.seriesOf?, hv, hs,
    Option.bind_eq_bind, Option.bind_some, Option.pure_def]

/-- The version of a job that went back is its version. -/
theorem versionOf (m : db.RollsBack legacy) {k : CalculationJob} {j : LegacyJob}
    (hj : db.downJob k = .ok j) {w : DatasetVersion} (hw : db.versionOf? k = some w) :
    ∃ status, w.status.legacy? = some status ∧ legacy.versionOf? j = some
      ⟨w.id, w.datasetSeriesId, w.version, status, w.createdAt, w.publishedAt⟩ := by
  obtain ⟨_, -, rfl⟩ := downJob_eq_ok.mp hj
  obtain ⟨v, hv, hdown⟩ := rewrite_find (q := fun v => v.id = k.outputDatasetVersionId) m.versions
    (fun a _ b hab => by obtain ⟨_, -, rfl⟩ := downVersion_eq_ok.mp hab; rfl) hw
  obtain ⟨status, hstatus, rfl⟩ := downVersion_eq_ok.mp hdown
  exact ⟨status, hstatus, hv⟩

theorem domains (m : db.RollsBack legacy) (h : db.Constraints) :
    legacy.calculationJobs.filterMap legacy.domainOf?
      = db.calculationJobs.filterMap db.domainOf? := by
  refine rewrite_filterMap m.jobs fun k hk j hj => ?_
  obtain ⟨domain, hdomain⟩ := h.domainOf hk
  rw [hdomain, m.domainOf hj hdomain]

/-- The domains with a job are those with a type. -/
theorem domains_perm (m : db.RollsBack legacy) (h : db.Constraints) :
    (legacy.calculationJobs.filterMap legacy.domainOf?).dedup.Perm
      (db.calculationTypes.map (·.domain)) := by
  have htypes : db.calculationTypes.Nodup := h.typeId.of_map
  have hdomains : (db.calculationTypes.map (·.domain)).Nodup := by
    refine htypes.map_on fun t ht t' ht' hdomain => ?_
    refine List.inj_on_of_nodup_map h.domainCode ht ht' ?_
    rw [(m.representable.type h ht).1, (m.representable.type h ht').1, hdomain]
  refine (List.perm_ext_iff_of_nodup (List.nodup_dedup _) hdomains).mpr fun domain => ?_
  rw [List.mem_dedup, m.domains h, List.mem_filterMap, List.mem_map]
  constructor
  · rintro ⟨k, hk, hdomain⟩
    obtain ⟨t, ht, -, -, htype⟩ := m.representable.typeOf h hk
    exact ⟨t, ht, Option.some.inj (htype.symm.trans hdomain)⟩
  · rintro ⟨t, ht, rfl⟩
    obtain ⟨-, k, hk, -, hdomain⟩ := m.representable.type h ht
    exact ⟨k, hk, hdomain⟩

end RollsBack

end V2Database

end CostEngine
