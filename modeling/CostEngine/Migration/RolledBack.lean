import CostEngine.Migration.Migrated

/-! # The tables that `down` leaves

They satisfy the constraints of the original schema, and a further `up` makes of them the
tables that there were, but for what it generates. -/

namespace CostEngine

open Relational

namespace V2Database

/-- The id that a run of `up` gives the type of a job. -/
def typeIdOf (db : V2Database) (run : MigrationRun) (job : CalculationJob) : Uuid :=
  match db.typeOf? job with
  | some type => run.typeId type.domain
  | none => job.calculationTypeId

variable {db : V2Database} {legacy : LegacyDatabase} {run : MigrationRun}

namespace RollsBack

/-! ### The constraints of v1 -/

/-- The tables of the original schema satisfy its constraints again. -/
theorem constraints (m : db.RollsBack legacy) (h : db.Constraints) : legacy.Constraints where
  seriesId := by
    rw [rewrite_map (u := (·.id)) m.series fun _ _ _ hdown => by
      obtain ⟨_, -, rfl⟩ := downSeries_eq_ok.mp hdown; rfl]
    exact h.seriesId
  businessKey := by
    have hkeys := rewrite_map (u := fun r => (r.identity.domain, r.legacyBusinessKey))
      (w := fun s => (s.domain, some s.businessKey)) m.series fun r _ s hdown => by
        obtain ⟨key, hkey, rfl⟩ := downSeries_eq_ok.mp hdown
        rw [hkey]
    refine List.Nodup.of_map (fun key => (key.1, some key.2)) ?_
    rw [List.map_map]
    exact hkeys ▸ m.representable.businessKeys
  versionId := by
    rw [rewrite_map (u := (·.id)) m.versions fun _ _ _ hdown => by
      obtain ⟨_, -, rfl⟩ := downVersion_eq_ok.mp hdown; rfl]
    exact h.versionId
  versionSeries := by
    intro v hv
    obtain ⟨w, hw, hdown⟩ := rewrite_mem m.versions hv
    obtain ⟨_, -, rfl⟩ := downVersion_eq_ok.mp hdown
    obtain ⟨r, hr, hid⟩ := h.versionSeries w hw
    obtain ⟨s, hs, hdown⟩ := rewrite_mem_of_mem m.series hr
    obtain ⟨_, -, rfl⟩ := downSeries_eq_ok.mp hdown
    exact ⟨_, hs, hid⟩
  versionPositive := by
    intro v hv
    obtain ⟨w, hw, hdown⟩ := rewrite_mem m.versions hv
    obtain ⟨_, -, rfl⟩ := downVersion_eq_ok.mp hdown
    exact h.versionPositive w hw
  versionNumber := by
    rw [rewrite_map (u := fun w => (w.datasetSeriesId, w.version)) m.versions fun _ _ _ hdown => by
      obtain ⟨_, -, rfl⟩ := downVersion_eq_ok.mp hdown; rfl]
    exact h.versionNumber
  jobId := by
    rw [rewrite_map (u := (·.id)) m.jobs fun _ _ _ hdown => by
      obtain ⟨_, -, rfl⟩ := downJob_eq_ok.mp hdown; rfl]
    exact h.jobId
  jobVersion := by
    intro j hj
    obtain ⟨k, hk, hdown⟩ := rewrite_mem m.jobs hj
    obtain ⟨w, hw, rfl⟩ := downJob_eq_ok.mp hdown
    obtain ⟨hw, hid⟩ := (find_key h.versionId).mp hw
    obtain ⟨v, hv, hdown⟩ := rewrite_mem_of_mem m.versions hw
    obtain ⟨_, -, rfl⟩ := downVersion_eq_ok.mp hdown
    exact ⟨_, hv, rfl, hid⟩
  jobOutput := m.output
  activeJob := m.activeJob
  dependencyId := by rw [m.dependencies]; exact List.nodup_nil
  dependencyJob := by rw [m.dependencies]; intro d hd; cases hd
  dependencyVersion := by rw [m.dependencies]; intro d hd; cases hd
  dependencyType := by rw [m.dependencies]; exact List.nodup_nil
  dependencyPair := by rw [m.dependencies]; exact List.nodup_nil

/-! ### Going up again -/

theorem restoredStatus_paired {version : DatasetVersionStatus} {job : CalculationJobStatus} :
    (restoredStatus version job = .validating → version = .validating)
      ∧ (restoredStatus version job = .rejected → version = .rejected) := by
  cases version <;> cases job <;> decide

theorem completed_jobs (m : db.RollsBack legacy) {w : DatasetVersion}
    (hw : w ∈ db.datasetVersions) (hstatus : w.status = .validating ∨ w.status = .rejected) :
    (db.jobsOf w).length = 1 ∧ ∀ k ∈ db.jobsOf w, k.status = .succeeded := by
  have hlacks := m.representable.completed w hw
  simp only [lacksCompletedJob, Bool.and_eq_false_imp, Bool.or_eq_true, decide_eq_true_eq] at hlacks
  simpa using hlacks hstatus

theorem jobsOf (m : db.RollsBack legacy) {w : DatasetVersion} {v : LegacyVersion}
    (hid : v.id = w.id) : rewrite db.downJob (db.jobsOf w) = .ok (legacy.jobsOf v) :=
  rewrite_filter m.jobs fun _ _ _ hdown => by
    obtain ⟨_, -, rfl⟩ := downJob_eq_ok.mp hdown
    rw [hid]

theorem of_version (m : db.RollsBack legacy) {v : LegacyVersion} (hv : v ∈ legacy.datasetVersions) :
    ∃ w ∈ db.datasetVersions, ∃ status, w.status.legacy? = some status ∧
      v = ⟨w.id, w.datasetSeriesId, w.version, status, w.createdAt, w.publishedAt⟩ := by
  obtain ⟨w, hw, hdown⟩ := rewrite_mem m.versions hv
  exact ⟨w, hw, downVersion_eq_ok.mp hdown⟩

/-- The version and the status of a job that went back. -/
theorem of_job (m : db.RollsBack legacy) (h : db.Constraints) {j : LegacyJob}
    (hj : j ∈ legacy.calculationJobs) : ∃ k ∈ db.calculationJobs, db.downJob k = .ok j ∧
      ∃ w ∈ db.datasetVersions, db.versionOf? k = some w ∧ w.id = k.outputDatasetVersionId ∧
        j.status = restoredStatus w.status k.status := by
  obtain ⟨k, hk, hdown⟩ := rewrite_mem m.jobs hj
  obtain ⟨w, hw, rfl⟩ := downJob_eq_ok.mp hdown
  obtain ⟨hmem, hid⟩ := (find_key h.versionId).mp hw
  exact ⟨k, hk, hdown, w, hmem, hw, hid, rfl⟩

/-! ### Paired statuses -/

theorem legacy_eq {new : DatasetVersionStatus} {old : LegacyVersionStatus}
    (h : new.legacy? = some old) :
    (old = .validating ↔ new = .validating) ∧ (old = .rejected ↔ new = .rejected)
      ∧ old ≠ .failed := by
  cases new <;> cases h <;> decide

/-- The jobs of a version that v1 marks too are restored to the same mark. -/
theorem decided_of_onJob {new : DatasetVersionStatus} {old : LegacyVersionStatus}
    {job : LegacyJobStatus} (h : new.legacy? = some old) (hjob : old.onJob? = some job) :
    (new = .validating ∨ new = .rejected) ∧ restoredStatus new .succeeded = job := by
  cases new <;> cases h <;> cases hjob <;> decide

theorem completed_restored {new : DatasetVersionStatus} {old : LegacyVersionStatus}
    {job : CalculationJobStatus} (h : new.legacy? = some old) :
    LegacyJobStatus.v2? (if (restoredStatus new job = .validating ∧ old = .validating)
        ∨ (restoredStatus new job = .rejected ∧ old = .rejected) then .succeeded
      else restoredStatus new job) = some job := by
  cases new <;> cases h <;> cases job <;> rfl

/-- What went back can come again if every version has a job. -/
theorem migratable (m : db.RollsBack legacy) (h : db.Constraints)
    (hjobs : ∀ w ∈ db.datasetVersions, db.jobsOf w ≠ []) : legacy.Migratable where
  dependencies := m.dependencies
  keys := by
    intro s hs
    obtain ⟨r, hr, hdown⟩ := rewrite_mem m.series hs
    obtain ⟨key, hkey, rfl⟩ := downSeries_eq_ok.mp hdown
    have := m.representable.keys r hr
    rwa [hkey] at this
  years := by
    intro s hs
    obtain ⟨r, hr, hdown⟩ := rewrite_mem m.series hs
    obtain ⟨key, hkey, rfl⟩ := downSeries_eq_ok.mp hdown
    have hidentity := m.representable.identities r hr
    simp only [identityDiffers, hkey, Option.any_some, Bool.or_eq_false_iff,
      decide_eq_false_iff_not, ne_eq, Decidable.not_not] at hidentity
    exact hidentity.1.2 ▸ h.fiscalYear r hr
  identities := by
    have hcanonical := rewrite_map (u := fun r => (r.identity.domain, r.identity.companyCode,
      r.identity.fiscalYear, toString r.identity.period)) (w := LegacySeries.canonical) m.series
      fun r hr s hdown => by
        obtain ⟨key, hkey, rfl⟩ := downSeries_eq_ok.mp hdown
        have hidentity := m.representable.identities r hr
        simp only [identityDiffers, hkey, Option.any_some, Bool.or_eq_false_iff,
          decide_eq_false_iff_not, ne_eq, Decidable.not_not] at hidentity
        simp only [LegacySeries.canonical, hidentity]
    have hinj : Function.Injective fun i : SeriesIdentity =>
        (i.domain, i.companyCode, i.fiscalYear, toString i.period) := by
      rintro ⟨domain, company, year, period⟩ ⟨domain', company', year', period'⟩ hequal
      simp only [Prod.mk.injEq] at hequal
      obtain ⟨rfl, rfl, rfl, hperiod⟩ := hequal
      have : DatasetPeriod.ofText? (toString period) = some period :=
        DatasetPeriod.ofText?_eq_some.mpr rfl
      rw [hperiod, DatasetPeriod.ofText?_eq_some.mpr rfl] at this
      rw [Option.some.inj this]
    have := h.identity.map hinj
    rw [List.map_map] at this
    exact hcanonical ▸ this
  numbers := by
    intro s hs
    obtain ⟨r, hr, hdown⟩ := rewrite_mem m.series hs
    obtain ⟨key, hkey, rfl⟩ := downSeries_eq_ok.mp hdown
    have hnumbers := m.representable.numbers r hr
    simp only [LegacyDatabase.lagsBehind, V2Database.lagsBehind, List.any_eq_false,
      List.mem_filter, decide_eq_true_eq, and_imp] at hnumbers ⊢
    intro v hv hseries
    obtain ⟨w, hw, _, -, rfl⟩ := m.of_version hv
    exact hnumbers w hw hseries
  oneJob := by
    intro v hv
    obtain ⟨w, hw, status, -, rfl⟩ := m.of_version hv
    rw [rewrite_length (m.jobsOf rfl)]
    have hone : (db.jobsOf w).length ≤ 1 := by
      have hcount := List.nodup_iff_count_le_one.mp m.representable.oneJob w.id
      rwa [List.count, List.countP_map, List.countP_eq_length_filter] at hcount
    have hsome := List.length_pos_iff.mpr (hjobs w hw)
    omega
  noFailure := by
    intro v hv
    obtain ⟨w, -, status, hstatus, rfl⟩ := m.of_version hv
    exact (legacy_eq hstatus).2.2
  jobs := by
    intro j hj
    obtain ⟨k, hk, hdown, w, hw, hversion, hid, hjstatus⟩ := m.of_job h hj
    obtain ⟨status, hstatus, hfound⟩ := m.versionOf hdown hversion
    have hlegacy := legacy_eq hstatus
    have hpaired : (restoredStatus w.status k.status = .validating → w.status = .validating) ∧ _ :=
      restoredStatus_paired
    simp only [LegacyDatabase.versionDiffers, hfound, Option.any_some, hjstatus,
      Bool.or_eq_false_iff, Bool.and_eq_false_imp, decide_eq_true_eq, decide_eq_false_iff_not,
      ne_eq, Decidable.not_not, hlegacy.1, hlegacy.2.1]
    exact hpaired
  versions := by
    intro v hv
    obtain ⟨w, hw, status, hstatus, rfl⟩ := m.of_version hv
    unfold LegacyDatabase.jobDiffers
    split
    · next old hold =>
      obtain ⟨hdecided, hrestored⟩ := decided_of_onJob hstatus hold
      obtain ⟨hone, hall⟩ := m.completed_jobs hw hdecided
      have hjobs := m.jobsOf (v := ⟨w.id, w.datasetSeriesId, w.version, status, w.createdAt,
        w.publishedAt⟩) rfl
      have hany : ((legacy.jobsOf ⟨w.id, w.datasetSeriesId, w.version, status, w.createdAt,
          w.publishedAt⟩).any fun j => j.status ≠ old) = false := by
        refine List.any_eq_false.mpr fun j hj => ?_
        obtain ⟨k, hk, hdown⟩ := rewrite_mem hjobs hj
        obtain ⟨w', hw', rfl⟩ := downJob_eq_ok.mp hdown
        have hid := of_decide_eq_true (List.mem_filter.mp hk).2
        rw [versionOf?, (find_key h.versionId).mpr ⟨hw, hid.symm⟩] at hw'
        cases hw'
        simp [hall k hk, hrestored]
      rw [rewrite_length hjobs, hone, hany]
      rfl
    · rfl

/-! ### Jobs -/

/-- A job went back and comes again with the type of its domain. -/
theorem upJob_downJob (m : db.RollsBack legacy) (h : db.Constraints) {k : CalculationJob}
    (hk : k ∈ db.calculationJobs) {j : LegacyJob} (hj : j ∈ legacy.calculationJobs)
    (hdown : db.downJob k = .ok j) : legacy.upJob (legacy.bridgeTypes run) j
      = .ok { k with calculationTypeId := db.typeIdOf run k } := by
  obtain ⟨t, -, -, htype, hdomain⟩ := m.representable.typeOf h hk
  have hbridge : legacy.typeOf? (legacy.bridgeTypes run) j = _ :=
    LegacyDatabase.typeOf_bridgeTypes hj (m.domainOf hdown hdomain)
  obtain ⟨w, hw, hversion, -⟩ := h.versionOf hk
  obtain ⟨status, hstatus, hfound⟩ := m.versionOf hdown hversion
  have hundefined : k.resolvedDependencyDefinitionVersionId = none := by
    cases hresolved : k.resolvedDependencyDefinitionVersionId with
    | none => rfl
    | some id =>
        obtain ⟨d, hd, -⟩ := h.jobDefinition k hk id hresolved
        rw [m.representable.definitions] at hd
        cases hd
  obtain ⟨w', hw', rfl⟩ := downJob_eq_ok.mp hdown
  cases hversion.symm.trans hw'
  refine LegacyDatabase.upJob_eq_ok.mpr ⟨_, hbridge, k.status, ?_, ?_⟩
  · rw [LegacyDatabase.completedStatus, hfound]
    exact completed_restored hstatus
  · rw [typeIdOf, htype, ← hundefined]
    rfl

end RollsBack

/-! ### What is generated anew -/

/-- `db'` is `db` but for what a run of `up` generates: the ids and creation times of the types,
whose order may differ, and the creation times of the series. -/
structure Regenerates (run : MigrationRun) (db db' : V2Database) : Prop where
  datasetSeries : db'.datasetSeries = db.datasetSeries.map fun s => { s with createdAt := run.now }
  datasetVersions : db'.datasetVersions = db.datasetVersions
  calculationTypes : db'.calculationTypes.Perm (db.calculationTypes.map fun t =>
    { t with id := run.typeId t.domain, createdAt := run.now })
  bridges : db'.bridges.Perm (db.calculationTypes.map fun t => run.typeId t.domain)
  dependencyDefinitions : db'.dependencyDefinitions = db.dependencyDefinitions
  definitionDependencies : db'.definitionDependencies = db.definitionDependencies
  calculationJobs : db'.calculationJobs = db.calculationJobs.map fun k =>
    { k with calculationTypeId := db.typeIdOf run k }
  buildSnapshots : db'.buildSnapshots = db.buildSnapshots
  snapshotDependencies : db'.snapshotDependencies = db.snapshotDependencies
  executionAttempts : db'.executionAttempts = db.executionAttempts

namespace RollsBack

/-- The series come back with the identity that their business key still tells. -/
theorem upSeries_downSeries (m : db.RollsBack legacy) (h : db.Constraints) {r : DatasetSeriesRow}
    (hr : r ∈ db.datasetSeries) {s : LegacySeries} (hdown : downSeries r = .ok s) :
    LegacyDatabase.upSeries run s = .ok { r with createdAt := run.now } := by
  obtain ⟨key, hkey, rfl⟩ := downSeries_eq_ok.mp hdown
  have hidentity := m.representable.identities r hr
  simp only [identityDiffers, hkey, Option.any_some, Bool.or_eq_false_iff,
    decide_eq_false_iff_not, ne_eq, Decidable.not_not] at hidentity
  obtain ⟨⟨hcompany, hyear⟩, hperiod⟩ := hidentity
  refine LegacyDatabase.upSeries_eq_ok.mpr ⟨hyear ▸ h.fiscalYear r hr, _, hperiod.symm, ?_⟩
  rw [← hcompany, ← hyear, ← hkey]

/-! ### Versions and types -/

theorem upVersion_downVersion (m : db.RollsBack legacy) {w : DatasetVersion}
    (hw : w ∈ db.datasetVersions) {v : LegacyVersion} (hdown : downVersion w = .ok v) :
    LegacyDatabase.upVersion v = .ok w := by
  obtain ⟨status, hstatus, rfl⟩ := downVersion_eq_ok.mp hdown
  have htimes := m.representable.timestamps w hw
  simp only [hasV2Timestamps, Bool.or_eq_false_iff, Option.isSome_eq_false_iff,
    Option.isNone_iff_eq_none] at htimes
  obtain ⟨⟨⟨hbuilding, hvalidating⟩, hrejected⟩, habandoned⟩ := htimes
  refine LegacyDatabase.upVersion_eq_ok.mpr ⟨w.status, v2_of_legacy hstatus, ?_⟩
  cases w
  cases hbuilding
  cases hvalidating
  cases hrejected
  cases habandoned
  rfl

/-- The types come back in the order of the domains. -/
theorem types_perm (m : db.RollsBack legacy) (h : db.Constraints) :
    (legacy.bridgeTypes run).Perm (db.calculationTypes.map fun t =>
      { t with id := run.typeId t.domain, createdAt := run.now }) := by
  have hperm := (m.domains_perm h).map (LegacyDatabase.bridgeType run)
  rw [List.map_map] at hperm
  refine hperm.trans (List.Perm.of_eq (List.map_congr_left fun t ht => ?_))
  rw [(m.representable.type h ht).1]
  rfl

theorem bridges_perm (m : db.RollsBack legacy) (h : db.Constraints) {db' : V2Database}
    (hup : legacy.Migrates run db') :
    db'.bridges.Perm (db'.calculationTypes.map (·.id)) := by
  have hlegacy := m.constraints h
  have hconstraints := hup.constraints hlegacy
  refine (List.perm_ext_iff_of_nodup hconstraints.bridgeId hconstraints.typeId).mpr fun id => ?_
  rw [hup.mem_bridges hlegacy, List.mem_map, hup.types]
  constructor
  · rintro ⟨j, hj, domain, hdomain, rfl⟩
    exact ⟨_, LegacyDatabase.mem_bridgeTypes.mpr ⟨j, hj, domain, hdomain, rfl⟩, rfl⟩
  · rintro ⟨t, ht, rfl⟩
    obtain ⟨j, hj, domain, hdomain, rfl⟩ := LegacyDatabase.mem_bridgeTypes.mp ht
    exact ⟨j, hj, domain, hdomain, rfl⟩

theorem regenerates (m : db.RollsBack legacy) (h : db.Constraints) {db' : V2Database}
    (hup : legacy.Migrates run db') : Regenerates run db db' where
  datasetSeries := Except.ok.inj (hup.series.symm.trans
    (rewrite_rewrite m.series fun _ hr _ hdown => m.upSeries_downSeries h hr hdown))
  datasetVersions := Except.ok.inj (hup.versions.symm.trans
    (rewrite_undone m.versions fun _ hw _ hdown => m.upVersion_downVersion hw hdown))
  calculationTypes := hup.types ▸ m.types_perm h
  bridges := by
    have hperm : (legacy.bridgeTypes run).Perm _ := m.types_perm h
    have := hperm.map (·.id)
    rw [List.map_map, ← hup.types] at this
    exact (m.bridges_perm h hup).trans this
  dependencyDefinitions := hup.definitions.trans m.representable.definitions.symm
  definitionDependencies := by
    rw [hup.definitionDependencies]
    refine (List.eq_nil_iff_forall_not_mem.mpr fun d hd => ?_).symm
    obtain ⟨e, he, -⟩ := h.dependencyDefinition d hd
    rw [m.representable.definitions] at he
    cases he
  calculationJobs := by
    have hjobs := hup.jobs
    rw [hup.types] at hjobs
    refine Except.ok.inj (hjobs.symm.trans (rewrite_rewrite m.jobs fun k hk j hdown => ?_))
    obtain ⟨j', hj', hdown'⟩ := rewrite_mem_of_mem m.jobs hk
    cases hdown.symm.trans hdown'
    exact m.upJob_downJob h hk hj' hdown
  buildSnapshots := hup.snapshots.trans m.representable.snapshots.symm
  snapshotDependencies := by
    rw [hup.snapshotDependencies]
    refine (List.eq_nil_iff_forall_not_mem.mpr fun d hd => ?_).symm
    obtain ⟨b, hb, -⟩ := h.dependencySnapshot d hd
    rw [m.representable.snapshots] at hb
    cases hb
  executionAttempts := hup.attempts.trans m.representable.attempts.symm

/-! ### When it can be migrated again -/

theorem hasOneActiveVersion (m : db.RollsBack legacy) (h : db.Constraints) :
    legacy.HasOneActiveVersion := by
  have := rewrite_undone m.versions fun _ hw _ hdown => m.upVersion_downVersion hw hdown
  rw [LegacyDatabase.HasOneActiveVersion, ← LegacyDatabase.activeVersions_eq this]
  exact h.activeVersion

theorem hasFreshTypes_iff (m : db.RollsBack legacy) (h : db.Constraints) :
    legacy.HasFreshTypes run ↔ (db.calculationTypes.map fun t => run.typeId t.domain).Nodup := by
  have hperm := (m.domains_perm h).map run.typeId
  rw [List.map_map] at hperm
  exact hperm.nodup_iff

/-- The preflight of `up` asks for a job of every version, that of `down` does not. -/
theorem jobs_of_migratable (m : db.RollsBack legacy) (hm : legacy.Migratable) {w : DatasetVersion}
    (hw : w ∈ db.datasetVersions) : db.jobsOf w ≠ [] := by
  intro hnone
  obtain ⟨v, hv, hdown⟩ := rewrite_mem_of_mem m.versions hw
  obtain ⟨_, -, rfl⟩ := downVersion_eq_ok.mp hdown
  have hone := hm.oneJob _ hv
  rw [rewrite_length (m.jobsOf rfl), hnone] at hone
  cases hone

/-- When a database that was rolled back can be migrated again. -/
theorem migrates_iff (m : db.RollsBack legacy) (h : db.Constraints) :
    (∃ db', legacy.up run = .ok db') ↔ (∀ w ∈ db.datasetVersions, db.jobsOf w ≠ [])
      ∧ (db.calculationTypes.map fun t => run.typeId t.domain).Nodup := by
  constructor
  · rintro ⟨db', hup⟩
    have hm := LegacyDatabase.up_eq_ok.mp hup
    refine ⟨fun w hw => m.jobs_of_migratable hm.migratable hw, (m.hasFreshTypes_iff h).mp ?_⟩
    have hid := hm.typeId
    rw [hm.types, LegacyDatabase.bridgeTypes, List.map_map] at hid
    exact hid
  · rintro ⟨hjobs, htypes⟩
    obtain ⟨db', hup⟩ : ∃ db', legacy.up run = _ :=
      LegacyDatabase.up_of_migratable (m.constraints h) (m.migratable h hjobs)
    rw [require_of (m.hasOneActiveVersion h), ok_bind,
      require_of ((m.hasFreshTypes_iff h).mpr htypes)] at hup
    exact ⟨db', hup⟩

end RollsBack

/-! ### The preflight of `down` -/

/-- The preflight of `down` leaves it no row that cannot be rewritten. -/
theorem down_of_representable (h : db.Constraints) (hr : db.Representable) :
    ∃ legacy, db.down = .ok legacy := by
  obtain ⟨jobs, hjobs⟩ := rewrite_total (f := db.downJob) fun k hk => by
    obtain ⟨w, -, hw, -⟩ := h.versionOf hk
    exact ⟨_, downJob_eq_ok.mpr ⟨w, hw, rfl⟩⟩
  obtain ⟨versions, hversions⟩ := rewrite_total (f := downVersion) fun w hw => by
    have hstatus : ∃ status, w.status.legacy? = some status := by
      cases hw' : w.status with
      | abandoned => exact absurd hw' (hr.noAbandonment w hw)
      | _ => exact ⟨_, rfl⟩
    obtain ⟨status, hstatus⟩ := hstatus
    exact ⟨_, downVersion_eq_ok.mpr ⟨status, hstatus, rfl⟩⟩
  obtain ⟨series, hseries⟩ := rewrite_total (f := downSeries) fun r hr' => by
    obtain ⟨key, hkey⟩ := Option.ne_none_iff_exists'.mp (hr.bridged r hr')
    exact ⟨_, downSeries_eq_ok.mpr ⟨key, hkey, rfl⟩⟩
  have houtputs : (jobs.map (·.outputDatasetVersionId)).Nodup := by
    rw [rewrite_map (u := (·.outputDatasetVersionId)) hjobs fun _ _ _ hdown => by
      obtain ⟨_, -, rfl⟩ := downJob_eq_ok.mp hdown; rfl]
    exact hr.oneJob
  have hactive : ((jobs.filter (·.status.isActive)).map (·.datasetSeriesId)).Nodup := by
    rw [active_eq hjobs]
    exact hr.active
  exact ⟨⟨series, versions, jobs, []⟩,
    down_eq_ok.mpr ⟨hr, hjobs, houtputs, hactive, hversions, hseries, rfl⟩⟩

end V2Database

end CostEngine
