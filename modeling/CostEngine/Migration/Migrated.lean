import CostEngine.Migration.Restoring

/-! # The tables that `up` leaves

They satisfy the constraints of the orchestration schema, and `down` finds nothing in them to
refuse. -/

namespace CostEngine

open Relational

namespace LegacyDatabase

variable {db : LegacyDatabase} {run : MigrationRun} {db' : V2Database}

namespace Migrates

/-! ## What `down` looks for -/

theorem jobs_undone (m : db.Migrates run db') (h : db.Constraints) :
    rewrite db'.downJob db'.calculationJobs = .ok db.calculationJobs :=
  rewrite_undone m.jobs fun _ hj _ hk => m.upJob_undone h hj hk

/-- No bridge is modified, and each is in use. -/
theorem unmodified (m : db.Migrates run db') (h : db.Constraints) {id : Uuid}
    (hid : id ∈ db'.bridges) :
    (db'.calculationTypes.find? fun t => t.id = id).any db'.isModified = false := by
  obtain ⟨j, hj, domain, hdomain, rfl⟩ := (m.mem_bridges h).mp hid
  obtain ⟨k, hk, hup⟩ := rewrite_mem_of_mem m.jobs hj
  obtain ⟨hkType, htype⟩ := m.typeOf hj hup hdomain
  have huse : (db'.calculationJobs.any fun k =>
      k.calculationTypeId = (bridgeType run domain).id
        && db'.domainOf? k = some (bridgeType run domain).domain) = true :=
    List.any_eq_true.mpr ⟨k, hk, by simp [hkType, m.domainOf hup hdomain, bridgeType]⟩
  rw [V2Database.typeOf?, hkType] at htype
  rw [htype, Option.any_some, V2Database.isModified, huse]
  simp [bridgeType]

theorem no_other_type (m : db.Migrates run db') (h : db.Constraints) {k : CalculationJob}
    (hk : k ∈ db'.calculationJobs) : db'.hasOtherType k = false := by
  obtain ⟨j, hj, domain, hup, hdomain⟩ := m.of_job h hk
  rw [V2Database.hasOtherType, (m.typeOf hj hup hdomain).2, m.domainOf hup hdomain]
  simp [bridgeType]

theorem not_lagging (m : db.Migrates run db') {r : DatasetSeriesRow} (hr : r ∈ db'.datasetSeries) :
    db'.lagsBehind r = false := by
  obtain ⟨s, hs, period, -, rfl⟩ := m.of_series hr
  have hnumbers := m.migratable.numbers s hs
  simp only [LegacyDatabase.lagsBehind, V2Database.lagsBehind, List.any_eq_false, List.mem_filter,
    decide_eq_true_eq, and_imp] at hnumbers ⊢
  intro w hw hseries
  obtain ⟨v, hv, _, -, rfl⟩ := m.of_version hw
  exact hnumbers v hv hseries

/-! ### Completed jobs -/

/-- The one job of a validating or rejected version is completed. -/
theorem completed (m : db.Migrates run db') (h : db.Constraints) {w : DatasetVersion}
    (hw : w ∈ db'.datasetVersions) : db'.lacksCompletedJob w = false := by
  obtain ⟨v, hv, status, hstatus, rfl⟩ := m.of_version hw
  by_cases hdecided : status = .validating ∨ status = .rejected
  · have hjobs := rewrite_filter (p := fun j => j.outputDatasetVersionId = v.id)
      (q := fun k => k.outputDatasetVersionId = v.id) m.jobs
      fun _ _ _ hk => by obtain ⟨_, -, _, -, rfl⟩ := upJob_eq_ok.mp hk; rfl
    have hlength := (rewrite_length hjobs).trans (m.migratable.oneJob v hv)
    have hsucceeded : ∀ k ∈ db'.calculationJobs.filter fun k => k.outputDatasetVersionId = v.id,
        k.status = .succeeded := by
      intro k hk
      obtain ⟨j, hj, hup⟩ := rewrite_mem hjobs hk
      obtain ⟨hj, hjv⟩ := List.mem_filter.mp hj
      have hjv : v.id = j.outputDatasetVersionId := (of_decide_eq_true hjv).symm
      have hversion : db.versionOf? j = some v := (find_key h.versionId).mpr ⟨hv, hjv⟩
      have hpaired := m.migratable.paired hj hv hversion hjv
      obtain ⟨_, -, new, hnew, rfl⟩ := upJob_eq_ok.mp hup
      have hold : j.status = .validating ∨ j.status = .rejected := by
        rw [hpaired.validating, hpaired.rejected]
        rcases hdecided with rfl | rfl
        · exact .inl (by cases hv : v.status <;> simp_all [LegacyVersionStatus.v2?])
        · exact .inr (by cases hv : v.status <;> simp_all [LegacyVersionStatus.v2?])
      rw [completedStatus_eq hversion hpaired, if_pos hold] at hnew
      exact (Option.some.inj hnew).symm
    have hany : ((db'.calculationJobs.filter fun k => k.outputDatasetVersionId = v.id).any
        fun k => k.status ≠ .succeeded) = false :=
      List.any_eq_false.mpr fun k hk => by simp [hsucceeded k hk]
    rw [V2Database.lacksCompletedJob, V2Database.jobsOf, hlength, hany]
    simp
  · obtain ⟨hvalidating, hrejected⟩ := not_or.mp hdecided
    simp [V2Database.lacksCompletedJob, hvalidating, hrejected]

theorem representable (m : db.Migrates run db') (h : db.Constraints) : db'.Representable where
  oneJob := by rw [m.outputs]; exact h.jobOutput
  attempts := m.attempts
  snapshots := m.snapshots
  definitions := m.definitions
  types := by
    intro t ht
    rw [m.types] at ht
    obtain ⟨j, hj, domain, hdomain, rfl⟩ := mem_bridgeTypes.mp ht
    exact (m.mem_bridges h).mpr ⟨j, hj, domain, hdomain, rfl⟩
  bridges _ hid := m.unmodified h hid
  jobTypes _ hk := m.no_other_type h hk
  noAbandonment := by
    intro w hw habandoned
    obtain ⟨v, -, status, hstatus, rfl⟩ := m.of_version hw
    have habandoned : status = .abandoned := habandoned
    subst habandoned
    cases hv : v.status <;> rw [hv] at hstatus <;> cases hstatus
  timestamps := by
    intro w hw
    obtain ⟨v, -, status, -, rfl⟩ := m.of_version hw
    rfl
  bridged := by
    intro r hr
    obtain ⟨s, -, period, -, rfl⟩ := m.of_series hr
    exact Option.some_ne_none _
  keys := by
    intro r hr
    obtain ⟨s, hs, period, -, rfl⟩ := m.of_series hr
    exact m.migratable.keys s hs
  identities := by
    intro r hr
    obtain ⟨s, -, period, hperiod, rfl⟩ := m.of_series hr
    simp [V2Database.identityDiffers, hperiod]
  numbers _ hr := m.not_lagging hr
  businessKeys := by
    rw [rewrite_map (u := fun s => (s.domain, some s.businessKey)) m.series
      fun _ _ _ hup => by obtain ⟨-, _, -, rfl⟩ := upSeries_eq_ok.mp hup; rfl]
    have hinj : Function.Injective fun key : String × String => (key.1, some key.2) := by
      rintro ⟨domain, key⟩ ⟨domain', key'⟩ hkeys
      simpa using hkeys
    have := h.businessKey.map hinj
    rwa [List.map_map] at this
  completed _ hw := m.completed h hw
  active := by
    rw [← V2Database.active_eq (m.jobs_undone h)]
    exact h.activeJob

/-! ### The tables go back -/

theorem rollsBack (m : db.Migrates run db') (h : db.Constraints) : db'.RollsBack db where
  representable := m.representable h
  jobs := m.jobs_undone h
  output := h.jobOutput
  activeJob := h.activeJob
  versions := rewrite_undone m.versions fun _ _ _ => upVersion_undone
  series := rewrite_undone m.series fun _ _ _ => upSeries_undone
  dependencies := m.migratable.dependencies

/-- The tables of the orchestration schema satisfy its constraints. -/
theorem constraints (m : db.Migrates run db') (h : db.Constraints) : db'.Constraints where
  seriesId := by rw [m.seriesIds]; exact h.seriesId
  identity := m.identity
  legacyBusinessKey := by
    rw [rewrite_filterMap (u := fun s => some (s.domain, s.businessKey)) m.series
      fun _ _ _ hup => by obtain ⟨-, _, -, rfl⟩ := upSeries_eq_ok.mp hup; rfl,
      List.filterMap_eq_map']
    exact h.businessKey
  fiscalYear := by
    intro r hr
    obtain ⟨s, hs, period, -, rfl⟩ := m.of_series hr
    exact m.migratable.years s hs
  versionId := by rw [m.versionIds]; exact h.versionId
  versionSeries := by
    intro w hw
    obtain ⟨v, hv, status, -, rfl⟩ := m.of_version hw
    obtain ⟨s, hs, hid⟩ := h.versionSeries v hv
    obtain ⟨r, hr, hup⟩ := rewrite_mem_of_mem m.series hs
    obtain ⟨-, _, -, rfl⟩ := upSeries_eq_ok.mp hup
    exact ⟨_, hr, hid⟩
  versionPositive := by
    intro w hw
    obtain ⟨v, hv, status, -, rfl⟩ := m.of_version hw
    exact h.versionPositive v hv
  versionNumber := by
    have := congrArg (List.map Prod.snd) m.versionKeys
    rw [List.map_map, List.map_map] at this
    exact this ▸ h.versionNumber
  activeVersion := m.activeVersion
  typeId := m.typeId
  domainCode := by rw [m.types]; exact bridgeTypes_domainCode
  bridgeId := by rw [m.bridges]; exact List.nodup_dedup _
  bridgeType := by
    intro id hid
    obtain ⟨j, hj, domain, hdomain, rfl⟩ := (m.mem_bridges h).mp hid
    rw [m.types]
    exact ⟨_, mem_bridgeTypes.mpr ⟨j, hj, domain, hdomain, rfl⟩, rfl⟩
  definitionId := by rw [m.definitions]; exact List.nodup_nil
  definitionType := by rw [m.definitions]; intro d hd; cases hd
  definitionPositive := by rw [m.definitions]; intro d hd; cases hd
  definitionNumber := by rw [m.definitions]; exact List.nodup_nil
  requiredDomain := by rw [m.definitionDependencies]; exact List.nodup_nil
  dependencyDefinition := by rw [m.definitionDependencies]; intro d hd; cases hd
  jobId := by
    have := congrArg (List.map Prod.fst) m.jobKeys
    rw [List.map_map, List.map_map] at this
    exact this ▸ h.jobId
  jobVersion := by
    intro k hk
    obtain ⟨j, hj, -, hup, -⟩ := m.of_job h hk
    obtain ⟨_, -, _, -, rfl⟩ := upJob_eq_ok.mp hup
    obtain ⟨v, hv, -, hid⟩ := h.jobVersion j hj
    obtain ⟨w, hw, hup⟩ := rewrite_mem_of_mem m.versions hv
    obtain ⟨_, -, rfl⟩ := upVersion_eq_ok.mp hup
    exact ⟨_, hw, hid⟩
  jobType := by
    intro k hk
    obtain ⟨j, hj, domain, hup, hdomain⟩ := m.of_job h hk
    obtain ⟨htype, hfound⟩ := m.typeOf hj hup hdomain
    exact ⟨_, List.mem_of_find?_eq_some hfound, htype.symm⟩
  jobDefinition := by
    intro k hk id hid
    obtain ⟨j, hj, -, hup, -⟩ := m.of_job h hk
    obtain ⟨_, -, _, -, rfl⟩ := upJob_eq_ok.mp hup
    cases hid
  jobOutputType := m.outputType
  snapshotId := by rw [m.snapshots]; exact List.nodup_nil
  snapshotVersion := by rw [m.snapshots]; intro d hd; cases hd
  snapshotOnce := by rw [m.snapshots]; exact List.nodup_nil
  upstreamSeries := by rw [m.snapshotDependencies]; exact List.nodup_nil
  dependencySnapshot := by rw [m.snapshotDependencies]; intro d hd; cases hd
  dependencyUpstream := by rw [m.snapshotDependencies]; intro d hd; cases hd
  attemptId := by rw [m.attempts]; exact List.nodup_nil
  attemptJob := by rw [m.attempts]; intro d hd; cases hd
  attemptPositive := by rw [m.attempts]; intro d hd; cases hd
  attemptNumber := by rw [m.attempts]; exact List.nodup_nil
  airflowRun := by rw [m.attempts]; exact List.nodup_nil
  activeAttempt := by rw [m.attempts]; exact List.nodup_nil

end Migrates

/-! ## Where `up` can fail -/

/-- `uq_dataset_versions_active_series` can be built. -/
def HasOneActiveVersion (db : LegacyDatabase) : Prop :=
  ((db.datasetVersions.filter (·.status.isActive)).map (·.datasetSeriesId)).Nodup

instance : Decidable db.HasOneActiveVersion := inferInstanceAs (Decidable (List.Nodup _))

/-- The ids of the new types differ. -/
def HasFreshTypes (db : LegacyDatabase) (run : MigrationRun) : Prop :=
  ((db.calculationJobs.filterMap db.domainOf?).dedup.map run.typeId).Nodup

instance : Decidable (HasFreshTypes db run) := inferInstanceAs (Decidable (List.Nodup _))

/-! ### Every row can be rewritten -/

theorem upSeries_total {s : LegacySeries} (hkey : isMalformedKey s.businessKey = false)
    (hyear : 0 < integer (splitPart s.businessKey 2)) : ∃ r, upSeries run s = .ok r := by
  simp only [isMalformedKey, isCanonicalKey, Bool.or_eq_false_iff, Bool.not_eq_eq_eq_not,
    Bool.not_false, Bool.and_eq_true, Option.isSome_iff_exists] at hkey
  obtain ⟨⟨-, period, hperiod⟩, -⟩ := hkey
  exact ⟨_, upSeries_eq_ok.mpr ⟨hyear, period, DatasetPeriod.ofText?_eq_some.mp hperiod, rfl⟩⟩

theorem upVersion_total {v : LegacyVersion} (h : v.status ≠ .failed) : ∃ w, upVersion v = .ok w := by
  have hstatus : ∃ status, v.status.v2? = some status := by
    cases hv : v.status with
    | failed => exact absurd hv h
    | _ => exact ⟨_, rfl⟩
  obtain ⟨status, hstatus⟩ := hstatus
  exact ⟨_, upVersion_eq_ok.mpr ⟨status, hstatus, rfl⟩⟩

theorem upJob_total (h : db.Constraints) (hm : db.Migratable) {j : LegacyJob}
    (hj : j ∈ db.calculationJobs) : ∃ k, db.upJob (db.bridgeTypes run) j = .ok k := by
  obtain ⟨domain, hdomain⟩ := h.domainOf hj
  obtain ⟨v, hv, hversion, hid, -⟩ := h.versionOf hj
  obtain ⟨status, hstatus⟩ := completedStatus_v2 hversion (hm.paired hj hv hversion hid)
  exact ⟨_, upJob_eq_ok.mpr ⟨_, typeOf_bridgeTypes hj hdomain, status, hstatus, rfl⟩⟩

theorem isActive_of_v2 {old : LegacyVersionStatus} {new : DatasetVersionStatus}
    (h : old.v2? = some new) : new.isActive = old.isActive := by
  cases old <;> cases h <;> rfl

theorem activeVersions_eq {versions : List DatasetVersion}
    (h : rewrite upVersion db.datasetVersions = .ok versions) :
    (versions.filter (·.status.isActive)).map (·.datasetSeriesId)
      = (db.datasetVersions.filter (·.status.isActive)).map (·.datasetSeriesId) := by
  refine rewrite_map (rewrite_filter h fun v _ w hup => ?_) fun v _ w hup => ?_
  · obtain ⟨status, hstatus, rfl⟩ := upVersion_eq_ok.mp hup
    exact isActive_of_v2 hstatus
  · obtain ⟨_, -, rfl⟩ := upVersion_eq_ok.mp hup
    rfl

/-- The identities are as different as the preflight found them. -/
theorem identities_nodup (hm : db.Migratable) {series : List DatasetSeriesRow}
    (h : rewrite (upSeries run) db.datasetSeries = .ok series) :
    (series.map (·.identity)).Nodup := by
  have hcanonical := rewrite_map (u := LegacySeries.canonical) (w := fun r => (r.identity.domain,
    r.identity.companyCode, r.identity.fiscalYear, toString r.identity.period)) h
    fun s _ r hup => by
      obtain ⟨-, period, hperiod, rfl⟩ := upSeries_eq_ok.mp hup
      simp [LegacySeries.canonical, hperiod]
  refine List.Nodup.of_map (fun i => (i.domain, i.companyCode, i.fiscalYear, toString i.period)) ?_
  rw [List.map_map]
  exact hcanonical ▸ hm.identities

/-! ### The run of `up` -/

/-- Every row of a migratable database can be rewritten, so only the two indexes are left. -/
theorem up_of_migratable (h : db.Constraints) (hm : db.Migratable) : ∃ db', db.up run = do
    require (.uniqueViolation "uq_dataset_versions_active_series") db.HasOneActiveVersion
    require (.uniqueViolation "calculation_types_pkey") (db.HasFreshTypes run)
    return db' := by
  have hkey (s : LegacySeries) (hs : s ∈ db.datasetSeries) : ∃ r, upSeries run s = .ok r :=
    upSeries_total (hm.keys s hs) (hm.years s hs)
  have hjob (j : LegacyJob) (hj : j ∈ db.calculationJobs) :
      ∃ k, db.upJob (db.bridgeTypes run) j = .ok k := upJob_total h hm hj
  obtain ⟨series, hseries⟩ := rewrite_total hkey
  obtain ⟨versions, hversions⟩ := rewrite_total fun v hv => upVersion_total (hm.noFailure v hv)
  obtain ⟨jobs, hjobs⟩ := rewrite_total hjob
  have houtputs : jobs.map (·.outputDatasetVersionId)
      = db.calculationJobs.map (·.outputDatasetVersionId) :=
    rewrite_map hjobs fun _ _ _ hup => by obtain ⟨_, -, _, -, rfl⟩ := upJob_eq_ok.mp hup; rfl
  -- a version has one job in the original schema, whatever type the job is given
  have hunique : (jobs.map fun k => (k.outputDatasetVersionId, k.calculationTypeId)).Nodup := by
    refine List.Nodup.of_map Prod.fst ?_
    rw [List.map_map]
    exact houtputs ▸ h.jobOutput
  have hactive := activeVersions_eq hversions
  have hfresh : (db.bridgeTypes run).map (·.id)
      = (db.calculationJobs.filterMap db.domainOf?).dedup.map run.typeId := by
    rw [bridgeTypes, List.map_map]
    rfl
  let bridges := (db.calculationJobs.filterMap fun j =>
    (db.typeOf? (db.bridgeTypes run) j).map (·.id)).dedup
  refine ⟨⟨series, versions, db.bridgeTypes run, bridges, [], [], jobs, [], [], []⟩, ?_⟩
  simp only [up, upPreflight_quiet.mpr hm, hseries, hversions, hjobs, ok_bind,
    require_of (identities_nodup hm hseries), require_of hunique, hactive, hfresh]
  rfl

end LegacyDatabase

end CostEngine
