import CostEngine.Migration.RolledBack

/-! # The schema-v2 migration loses nothing

Rolling back after `up` restores the original database exactly; rolling back a database of
the orchestration schema forgets only what a run of `up` generates; and neither direction
fails once its preflight is quiet, but for one index and the fresh ids. -/

namespace CostEngine

open Relational

namespace LegacyDatabase

variable {db : LegacyDatabase} {run : MigrationRun} {db' : V2Database}

/-- **Rolling back restores the original database**, row by row and in every column. -/
theorem schema_v2_undone (h : db.Constraints) (hup : db.up run = .ok db') :
    db'.Constraints ∧ db'.down = .ok db := by
  have m := up_eq_ok.mp hup
  exact ⟨m.constraints h, V2Database.down_eq_ok.mpr (m.rollsBack h)⟩

/-- A published version and one in validation, a rejected one, and keys with and without a
suffix. -/
def sampleLegacy : LegacyDatabase where
  datasetSeries := [⟨"s1", "FAB_COST", "COMPANY_A:2026:Q1:main", 2⟩,
    ⟨"s2", "CAPEX", "COMPANY_A:2026:Q2", 3⟩]
  datasetVersions := [⟨"v1", "s1", 1, .published, 1, some 3⟩, ⟨"v2", "s1", 2, .validating, 4, none⟩,
    ⟨"v3", "s2", 1, .rejected, 2, none⟩]
  calculationJobs := [⟨"j1", "s1", "v1", .succeeded, 1, some 1, some 2⟩,
    ⟨"j2", "s1", "v2", .validating, 4, some 5, none⟩, ⟨"j3", "s2", "v3", .rejected, 2, some 2, some 4⟩]
  calculationDependencies := []

def sampleRun : MigrationRun := ⟨9, fun domain => "type of " ++ domain⟩

def sampleMigrated : V2Database where
  datasetSeries := [
    ⟨⟨"s1", ⟨"FAB_COST", "COMPANY_A", 2026, .q1⟩, 2⟩, some "COMPANY_A:2026:Q1:main", 9⟩,
    ⟨⟨"s2", ⟨"CAPEX", "COMPANY_A", 2026, .q2⟩, 3⟩, some "COMPANY_A:2026:Q2", 9⟩]
  datasetVersions := [⟨"v1", "s1", 1, .published, 1, none, none, some 3, none, none⟩,
    ⟨"v2", "s1", 2, .validating, 4, none, none, none, none, none⟩,
    ⟨"v3", "s2", 1, .rejected, 2, none, none, none, none, none⟩]
  calculationTypes := [
    ⟨⟨"type of FAB_COST", "FAB_COST", "LEGACY_DEFAULT", "legacy_fab_cost", false⟩, 0, 9⟩,
    ⟨⟨"type of CAPEX", "CAPEX", "LEGACY_DEFAULT", "legacy_capex", false⟩, 0, 9⟩]
  bridges := ["type of FAB_COST", "type of CAPEX"]
  dependencyDefinitions := []
  definitionDependencies := []
  calculationJobs := [⟨"j1", "v1", "type of FAB_COST", .succeeded, none, 1, some 1, some 2⟩,
    ⟨"j2", "v2", "type of FAB_COST", .succeeded, none, 4, some 5, none⟩,
    ⟨"j3", "v3", "type of CAPEX", .succeeded, none, 2, some 2, some 4⟩]
  buildSnapshots := []
  snapshotDependencies := []
  executionAttempts := []

theorem sampleLegacy_constraints : sampleLegacy.Constraints := by
  constructor <;> decide

theorem sampleLegacy_up : sampleLegacy.up sampleRun = .ok sampleMigrated := by decide +kernel

theorem schema_v2_undone_sample :
    sampleMigrated.Constraints ∧ sampleMigrated.down = .ok sampleLegacy :=
  schema_v2_undone sampleLegacy_constraints sampleLegacy_up

/-- **After its preflight `up` can fail only at two indexes**: two active versions of a series,
which the original schema allows, and ids that are not fresh. -/
theorem schema_v2_up_eq (h : db.Constraints) : ∃ db', db.up run = do
    raiseFirst db.upPreflight
    require (.uniqueViolation "uq_dataset_versions_active_series") db.HasOneActiveVersion
    require (.uniqueViolation "calculation_types_pkey") (db.HasFreshTypes run)
    return db' := by
  cases hquiet : raiseFirst db.upPreflight with
  | error e => exact ⟨⟨[], [], [], [], [], [], [], [], [], []⟩, by rw [up, hquiet]; rfl⟩
  | ok =>
      obtain ⟨db', hup⟩ : ∃ db', db.up run = _ := up_of_migratable h (upPreflight_quiet.mp hquiet)
      exact ⟨db', by rw [hup]; rfl⟩

/-- Two drafts of a series, of which one has a completed job. -/
def sampleDrafts : LegacyDatabase where
  datasetSeries := [⟨"s1", "FAB_COST", "COMPANY_A:2026:Q1", 2⟩]
  datasetVersions := [⟨"v1", "s1", 1, .draft, 1, none⟩, ⟨"v2", "s1", 2, .draft, 2, none⟩]
  calculationJobs := [⟨"j1", "s1", "v1", .succeeded, 1, some 1, some 2⟩,
    ⟨"j2", "s1", "v2", .pending, 2, none, none⟩]
  calculationDependencies := []

theorem schema_v2_up_eq_drafts :
    sampleDrafts.up sampleRun = .error (.uniqueViolation "uq_dataset_versions_active_series")
      ∧ ∃ db', sampleDrafts.up sampleRun = do
        raiseFirst sampleDrafts.upPreflight
        require (.uniqueViolation "uq_dataset_versions_active_series")
          sampleDrafts.HasOneActiveVersion
        require (.uniqueViolation "calculation_types_pkey") (sampleDrafts.HasFreshTypes sampleRun)
        return db' :=
  ⟨by decide +kernel, schema_v2_up_eq (by constructor <;> decide)⟩

end LegacyDatabase

/-! ## `down` -/

namespace V2Database

variable {db : V2Database} {legacy : LegacyDatabase} {run : MigrationRun}

/-- **After its preflight `down` cannot fail.** -/
theorem schema_v2_down_eq (h : db.Constraints) : ∃ legacy, db.down = do
    raiseFirst db.downPreflight
    return legacy := by
  cases hquiet : raiseFirst db.downPreflight with
  | error e => exact ⟨⟨[], [], [], []⟩, by rw [down, hquiet]; rfl⟩
  | ok =>
      obtain ⟨legacy, hdown⟩ := down_of_representable h (downPreflight_quiet.mp hquiet)
      exact ⟨legacy, hdown⟩

/-- A version was submitted for validation in the orchestration schema. -/
def sampleSubmitted : V2Database := { LegacyDatabase.sampleMigrated with
  datasetVersions := [⟨"v1", "s1", 1, .published, 1, none, none, some 3, none, none⟩,
    ⟨"v2", "s1", 2, .validating, 4, none, some 7, none, none, none⟩,
    ⟨"v3", "s2", 1, .rejected, 2, none, none, none, none, none⟩] }

theorem schema_v2_down_eq_submitted :
    sampleSubmitted.down = .error (.raised (
        "Cannot roll back orchestration-schema-v2: v2 dataset lifecycle timestamps are not " ++
        "representable in the legacy schema"))
      ∧ ∃ legacy, sampleSubmitted.down = do
        raiseFirst sampleSubmitted.downPreflight
        return legacy :=
  ⟨by decide +kernel, schema_v2_down_eq (by constructor <;> decide)⟩

/-- **A rolled back database forgets only what `up` generates.** It can be migrated again if
every version has a job, which `down` does not ask for, and the new ids differ. -/
theorem schema_v2_restored (h : db.Constraints) (hdown : db.down = .ok legacy) :
    legacy.Constraints
      ∧ ((∃ db', legacy.up run = .ok db') ↔ (∀ w ∈ db.datasetVersions, db.jobsOf w ≠ [])
        ∧ (db.calculationTypes.map fun t => run.typeId t.domain).Nodup)
      ∧ ∀ db', legacy.up run = .ok db' → Regenerates run db db' := by
  have m := down_eq_ok.mp hdown
  exact ⟨m.constraints h, m.migrates_iff h,
    fun db' hup => m.regenerates h (LegacyDatabase.up_eq_ok.mp hup)⟩

/-- In the sample database as another run would have migrated it. -/
theorem schema_v2_restored_sample : LegacyDatabase.sampleLegacy.Constraints
    ∧ ((∃ db', LegacyDatabase.sampleLegacy.up ⟨12, id⟩ = .ok db')
      ↔ (∀ w ∈ LegacyDatabase.sampleMigrated.datasetVersions,
          LegacyDatabase.sampleMigrated.jobsOf w ≠ [])
        ∧ (LegacyDatabase.sampleMigrated.calculationTypes.map fun t => id t.domain).Nodup)
    ∧ ∀ db', LegacyDatabase.sampleLegacy.up ⟨12, id⟩ = .ok db' →
      Regenerates ⟨12, id⟩ LegacyDatabase.sampleMigrated db' :=
  schema_v2_restored (by constructor <;> decide) (by decide +kernel)

/-! ## There and back -/

theorem migrateDown_of_ok (h : db.down = .ok legacy) : db.migrateDown = (none, .legacy legacy) := by
  rw [migrateDown, h]

theorem migrateDown_of_error {error : SchemaError} (h : db.down = .error error) :
    db.migrateDown = (some error, .v2 db) := by
  rw [migrateDown, h]

/-- **The migration is reversible.** What `up` made goes back to the rows that there were; and
`down` leaves all rows as they are or makes a legacy database that can be migrated again, to
the same rows but for what is generated, if every version has a job and the new ids differ. -/
theorem schema_v2_reversible :
    (∀ legacy : LegacyDatabase, legacy.Constraints → ∀ run db, legacy.up run = .ok db →
      db.migrateDown = (none, .legacy legacy))
    ∧ ∀ db : V2Database, db.Constraints →
      (∃ error, db.migrateDown = (some error, .v2 db))
      ∨ ∃ legacy, db.migrateDown = (none, .legacy legacy) ∧ legacy.Constraints ∧ ∀ run,
        ((∃ db', legacy.up run = .ok db') ↔ (∀ w ∈ db.datasetVersions, db.jobsOf w ≠ [])
          ∧ (db.calculationTypes.map fun t => run.typeId t.domain).Nodup)
        ∧ ∀ db', legacy.up run = .ok db' → Regenerates run db db' := by
  constructor
  · intro legacy h run db hup
    have m := LegacyDatabase.up_eq_ok.mp hup
    exact migrateDown_of_ok (down_eq_ok.mpr (m.rollsBack h))
  · intro db h
    cases hdown : db.down with
    | error error => exact .inl ⟨error, migrateDown_of_error hdown⟩
    | ok legacy =>
        have m := down_eq_ok.mp hdown
        refine .inr ⟨legacy, migrateDown_of_ok hdown, m.constraints h, fun run => ?_⟩
        exact ⟨m.migrates_iff h, fun db' hup => m.regenerates h (LegacyDatabase.up_eq_ok.mp hup)⟩

theorem schema_v2_reversible_sample :
    LegacyDatabase.sampleMigrated.migrateDown = (none, .legacy LegacyDatabase.sampleLegacy)
      ∧ ∃ db', LegacyDatabase.sampleLegacy.up ⟨12, id⟩ = .ok db'
        ∧ Regenerates ⟨12, id⟩ LegacyDatabase.sampleMigrated db' := by
  have hdown := schema_v2_reversible.1 LegacyDatabase.sampleLegacy (by constructor <;> decide)
    LegacyDatabase.sampleRun LegacyDatabase.sampleMigrated (by decide +kernel)
  refine ⟨hdown, ?_⟩
  obtain ⟨error, herror⟩ | ⟨legacy, hlegacy, -, hagain⟩ :=
    schema_v2_reversible.2 LegacyDatabase.sampleMigrated (by constructor <;> decide)
  · cases hdown.symm.trans herror
  · cases hdown.symm.trans hlegacy
    obtain ⟨hiff, hregenerates⟩ := hagain ⟨12, id⟩
    obtain ⟨db', hup⟩ := hiff.mpr (by decide)
    exact ⟨db', hup, hregenerates db' hup⟩

/-- A draft of a series was inserted without a job. -/
def sampleJobless : V2Database := { LegacyDatabase.sampleMigrated with
  datasetVersions := LegacyDatabase.sampleMigrated.datasetVersions
    ++ [⟨"v4", "s2", 2, .draft, 10, none, none, none, none, none⟩] }

def sampleJoblessLegacy : LegacyDatabase := { LegacyDatabase.sampleLegacy with
  datasetVersions := LegacyDatabase.sampleLegacy.datasetVersions
    ++ [⟨"v4", "s2", 2, .draft, 10, none⟩] }

/-- The original schema can represent a version without a job, but `up` refuses it. -/
theorem schema_v2_not_reversible_jobless : sampleJobless.Constraints
    ∧ sampleJobless.migrateDown = (none, .legacy sampleJoblessLegacy)
    ∧ ∀ run, sampleJoblessLegacy.up run = .error (.raised (
      "Cannot migrate legacy dataset_versions: every dataset version must have exactly one " ++
      "calculation job.")) := by
  refine ⟨by constructor <;> decide, migrateDown_of_ok (by decide +kernel), fun run => ?_⟩
  have hraise : raiseFirst sampleJoblessLegacy.upPreflight = .error (.raised (
      "Cannot migrate legacy dataset_versions: every dataset version must have exactly one " ++
      "calculation job.")) := by decide +kernel
  rw [LegacyDatabase.up, hraise]
  rfl

end V2Database

end CostEngine
