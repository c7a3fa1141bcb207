import CostEngine.Migration.SchemaV2

/-! # What a quiet preflight says

`up` and `down` of the schema-v2 migration, read off once: each direction succeeds exactly
when its preflight finds nothing and every row and index can be built. -/

namespace CostEngine

open Relational

/-- The columns of a legacy key that become the identity of its series. -/
def LegacySeries.canonical (s : LegacySeries) : String × String × Nat × String :=
  (s.domain, splitPart s.businessKey 1, integer (splitPart s.businessKey 2),
    splitPart s.businessKey 3)

/-! ## `up` -/

namespace LegacyDatabase

/-- The preflight of `up` finds nothing. -/
structure Migratable (db : LegacyDatabase) : Prop where
  dependencies : db.calculationDependencies = []
  keys : ∀ s ∈ db.datasetSeries, isMalformedKey s.businessKey = false
  years : ∀ s ∈ db.datasetSeries, 0 < integer (splitPart s.businessKey 2)
  identities : (db.datasetSeries.map (·.canonical)).Nodup
  numbers : ∀ s ∈ db.datasetSeries, db.lagsBehind s = false
  oneJob : ∀ v ∈ db.datasetVersions, (db.jobsOf v).length = 1
  noFailure : ∀ v ∈ db.datasetVersions, v.status ≠ .failed
  jobs : ∀ j ∈ db.calculationJobs, db.versionDiffers j = false
  versions : ∀ v ∈ db.datasetVersions, db.jobDiffers v = false

variable {db : LegacyDatabase} {run : MigrationRun} {db' : V2Database}

theorem upPreflight_quiet : raiseFirst db.upPreflight = .ok () ↔ db.Migratable := by
  have hcanonical : (db.datasetSeries.map fun s => (s.domain, splitPart s.businessKey 1,
    integer (splitPart s.businessKey 2), splitPart s.businessKey 3))
      = db.datasetSeries.map (·.canonical) := rfl
  simp only [raiseFirst_eq_ok, upPreflight, List.forall_mem_cons, List.not_mem_nil, false_implies,
    implies_true, and_true, Bool.or_eq_false_iff, Bool.not_eq_eq_eq_not, Bool.not_false,
    List.isEmpty_iff, List.any_eq_false, repeats_eq_false, hcanonical, decide_eq_true_eq, Nat.le_zero, ne_eq,
    Bool.not_eq_true, Decidable.not_not, ← Nat.pos_iff_ne_zero]
  constructor
  · rintro ⟨h1, h2, h3, h4, h5, h6, h7, h8, h9⟩
    exact ⟨h1, h2, h3, h4, h5, h6, h7, h8, h9⟩
  · rintro ⟨h1, h2, h3, h4, h5, h6, h7, h8, h9⟩
    exact ⟨h1, h2, h3, h4, h5, h6, h7, ⟨h8, h9⟩⟩

/-- What `up` does when it succeeds. -/
structure Migrates (db : LegacyDatabase) (run : MigrationRun) (db' : V2Database) : Prop where
  migratable : db.Migratable
  series : rewrite (upSeries run) db.datasetSeries = .ok db'.datasetSeries
  identity : (db'.datasetSeries.map (·.identity)).Nodup
  versions : rewrite upVersion db.datasetVersions = .ok db'.datasetVersions
  activeVersion :
    ((db'.datasetVersions.filter (·.status.isActive)).map (·.datasetSeriesId)).Nodup
  types : db'.calculationTypes = db.bridgeTypes run
  typeId : (db'.calculationTypes.map (·.id)).Nodup
  jobs : rewrite (db.upJob db'.calculationTypes) db.calculationJobs = .ok db'.calculationJobs
  outputType : (db'.calculationJobs.map fun j =>
    (j.outputDatasetVersionId, j.calculationTypeId)).Nodup
  bridges : db'.bridges = (db.calculationJobs.filterMap fun j =>
    (db.typeOf? db'.calculationTypes j).map (·.id)).dedup
  definitions : db'.dependencyDefinitions = []
  definitionDependencies : db'.definitionDependencies = []
  snapshots : db'.buildSnapshots = []
  snapshotDependencies : db'.snapshotDependencies = []
  attempts : db'.executionAttempts = []

theorem up_eq_ok : db.up run = .ok db' ↔ db.Migrates run db' := by
  simp only [up, bind_eq_ok, exists_checked, pure_eq_ok, require_eq_ok, upPreflight_quiet]
  constructor
  · rintro ⟨hmigratable, series, hseries, hidentity, versions, hversions, hactive, htypeId, jobs,
      hjobs, houtput, rfl⟩
    exact ⟨hmigratable, hseries, hidentity, hversions, hactive, rfl, htypeId, hjobs, houtput, rfl,
      rfl, rfl, rfl, rfl, rfl⟩
  · intro h
    obtain ⟨series, versions, types, bridges, definitions, dependencies, jobs, snapshots,
      upstream, attempts⟩ := db'
    obtain ⟨hmigratable, hseries, hidentity, hversions, hactive, rfl, htypeId, hjobs, houtput,
      hbridges, rfl, rfl, rfl, rfl, rfl⟩ := h
    refine ⟨hmigratable, series, hseries, hidentity, versions, hversions, hactive, htypeId, jobs,
      hjobs, houtput, ?_⟩
    rw [V2Database.mk.injEq]
    exact ⟨rfl, rfl, rfl, hbridges.symm, rfl, rfl, rfl, rfl, rfl, rfl⟩

end LegacyDatabase

/-! ## `down` -/

namespace V2Database

/-- The preflight of `down` finds nothing. -/
structure Representable (db : V2Database) : Prop where
  oneJob : (db.calculationJobs.map (·.outputDatasetVersionId)).Nodup
  attempts : db.executionAttempts = []
  snapshots : db.buildSnapshots = []
  definitions : db.dependencyDefinitions = []
  types : ∀ t ∈ db.calculationTypes, t.id ∈ db.bridges
  bridges : ∀ id ∈ db.bridges,
    (db.calculationTypes.find? fun t => t.id = id).any db.isModified = false
  jobTypes : ∀ j ∈ db.calculationJobs, db.hasOtherType j = false
  noAbandonment : ∀ v ∈ db.datasetVersions, v.status ≠ .abandoned
  timestamps : ∀ v ∈ db.datasetVersions, hasV2Timestamps v = false
  bridged : ∀ s ∈ db.datasetSeries, s.legacyBusinessKey ≠ none
  keys : ∀ s ∈ db.datasetSeries, s.legacyBusinessKey.any isMalformedKey = false
  identities : ∀ s ∈ db.datasetSeries, identityDiffers s = false
  numbers : ∀ s ∈ db.datasetSeries, db.lagsBehind s = false
  businessKeys : (db.datasetSeries.map fun s => (s.identity.domain, s.legacyBusinessKey)).Nodup
  completed : ∀ v ∈ db.datasetVersions, db.lacksCompletedJob v = false
  active : (db.calculationJobs.filterMap db.activeSeries?).Nodup

variable {db : V2Database} {legacy : LegacyDatabase}

theorem downPreflight_quiet : raiseFirst db.downPreflight = .ok () ↔ db.Representable := by
  simp only [raiseFirst_eq_ok, downPreflight, List.forall_mem_cons, List.not_mem_nil,
    false_implies, implies_true, and_true, Bool.not_eq_eq_eq_not, Bool.not_false,
    List.isEmpty_iff, List.any_eq_false, repeats_eq_false, decide_eq_true_eq, Bool.not_eq_true, Decidable.not_not, List.map_id_fun, id_eq,
    Option.isNone_eq_false_iff, Option.isSome_iff_ne_none]
  constructor
  · rintro ⟨h1, h2, h3, h4, h5, h6, h7, h8, h9, h10, h11, h12, h13, h14, h15, h16⟩
    exact ⟨h1, h2, h3, h4, h5, h6, h7, h8, h9, h10, h11, h12, h13, h14, h15, h16⟩
  · rintro ⟨h1, h2, h3, h4, h5, h6, h7, h8, h9, h10, h11, h12, h13, h14, h15, h16⟩
    exact ⟨h1, h2, h3, h4, h5, h6, h7, h8, h9, h10, h11, h12, h13, h14, h15, h16⟩

/-- What `down` does when it succeeds. -/
structure RollsBack (db : V2Database) (legacy : LegacyDatabase) : Prop where
  representable : db.Representable
  jobs : rewrite db.downJob db.calculationJobs = .ok legacy.calculationJobs
  output : (legacy.calculationJobs.map (·.outputDatasetVersionId)).Nodup
  activeJob :
    ((legacy.calculationJobs.filter (·.status.isActive)).map (·.datasetSeriesId)).Nodup
  versions : rewrite downVersion db.datasetVersions = .ok legacy.datasetVersions
  series : rewrite downSeries db.datasetSeries = .ok legacy.datasetSeries
  dependencies : legacy.calculationDependencies = []

theorem down_eq_ok : db.down = .ok legacy ↔ db.RollsBack legacy := by
  simp only [down, bind_eq_ok, exists_checked, pure_eq_ok, require_eq_ok, downPreflight_quiet]
  constructor
  · rintro ⟨hrepresentable, jobs, hjobs, houtput, hactive, versions, hversions, series, hseries,
      rfl⟩
    exact ⟨hrepresentable, hjobs, houtput, hactive, hversions, hseries, rfl⟩
  · intro h
    obtain ⟨series, versions, jobs, dependencies⟩ := legacy
    obtain ⟨hrepresentable, hjobs, houtput, hactive, hversions, hseries, rfl⟩ := h
    exact ⟨hrepresentable, jobs, hjobs, houtput, hactive, versions, hversions, series, hseries,
      rfl⟩

end V2Database

end CostEngine
