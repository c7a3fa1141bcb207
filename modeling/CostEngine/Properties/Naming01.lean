import CostEngine.Migration.Naming01

/-! # Naming-01 renames all or nothing -/

namespace CostEngine

open Relational UniqueColumn

/-! ## What the migration is for -/

def renamedDomain (domain : String) : String := if domain = "COWOS_S" then "E2E_COST" else domain

namespace OrchestrationTables

/-- The tables with `E2E_COST` for `COWOS_S`. -/
def renamed (db : OrchestrationTables) : OrchestrationTables where
  calculationTypes := db.calculationTypes.map fun row =>
    { row with domain := renamedDomain row.domain }
  datasetSeries := db.datasetSeries.map fun row =>
    { row with identity := { row.identity with domain := renamedDomain row.identity.domain } }
  definitionDependencies := db.definitionDependencies.map fun row =>
    { row with requiredDomain := renamedDomain row.requiredDomain }
  datasetVersions := db.datasetVersions
  calculationJobs := db.calculationJobs

/-- The calculation type of a job is of the domain of its series. -/
def JobAgrees (db : OrchestrationTables) (job : CalculationJob) : Prop :=
  ∃ type ∈ db.calculationTypes, type.id = job.calculationTypeId ∧
    ∃ version ∈ db.datasetVersions, version.id = job.outputDatasetVersionId ∧
      ∃ series ∈ db.datasetSeries, series.id = version.datasetSeriesId ∧
        type.domain = series.identity.domain

structure Renames (db : OrchestrationTables) : Prop where
  raises_iff : db.up.1 ≠ none ↔ ¬ db.renamed.UniqueConstraints
  unchanged : db.up.1 ≠ none → db.up.2 = db
  renamed : db.up.1 = none → db.up.2 = db.renamed ∧ db.up.2.UniqueConstraints
  types : db.up.1 = none → ∀ row ∈ db.up.2.calculationTypes, row.domain ≠ "COWOS_S"
  series : db.up.1 = none → ∀ row ∈ db.up.2.datasetSeries, row.identity.domain ≠ "COWOS_S"
  dependencies : db.up.1 = none →
    ∀ row ∈ db.up.2.definitionDependencies, row.requiredDomain ≠ "COWOS_S"
  jobs : db.up.1 = none → ∀ job ∈ db.calculationJobs, db.JobAgrees job → db.up.2.JobAgrees job

variable {db : OrchestrationTables}

/-! ## The constraints as constraints of the columns -/

theorem typeDomain_consistent {rows : List CalculationTypeRow} : typeDomain.Consistent rows ↔
    rows.Pairwise fun a b => (a.domain, a.code) ≠ (b.domain, b.code) := by
  rw [consistent_iff]
  refine List.Pairwise.iff fun a b => not_congr ?_
  show a.domain = b.domain ∧ decide (a.code = b.code) = true ↔ _
  rw [decide_eq_true_eq, Prod.mk.injEq]

theorem requiredDomain_consistent {rows : List DefinitionDependency} :
    requiredDomain.Consistent rows ↔ rows.Pairwise fun a b =>
      (a.definitionVersionId, a.requiredDomain) ≠ (b.definitionVersionId, b.requiredDomain) := by
  rw [consistent_iff]
  refine List.Pairwise.iff fun a b => not_congr ?_
  show a.requiredDomain = b.requiredDomain
    ∧ decide (a.definitionVersionId = b.definitionVersionId) = true ↔ _
  rw [decide_eq_true_eq, Prod.mk.injEq, and_comm]

theorem identity_ne {a b : SeriesIdentity} :
    a ≠ b ↔ ¬ (a.domain = b.domain ∧ a.sameSlot b = true) := by
  cases a
  cases b
  simp [SeriesIdentity.sameSlot]

theorem seriesDomain_consistent {rows : List DatasetSeriesRow} : seriesDomain.Consistent rows ↔
    (rows.Pairwise fun a b => a.identity ≠ b.identity)
      ∧ rows.Pairwise fun a b => ¬ (a.identity.domain = b.identity.domain
        ∧ sqlEq a.legacyBusinessKey b.legacyBusinessKey) := by
  rw [consistent_iff, ← List.pairwise_and_iff]
  refine List.Pairwise.iff fun a b => ?_
  show ¬ (a.identity.domain = b.identity.domain
    ∧ (a.identity.sameSlot b.identity || sqlEq a.legacyBusinessKey b.legacyBusinessKey) = true) ↔ _
  rw [identity_ne, ← not_or, Bool.or_eq_true, and_or_left]

theorem uniqueConstraints_iff : db.UniqueConstraints ↔ typeDomain.Consistent db.calculationTypes
    ∧ seriesDomain.Consistent db.datasetSeries
    ∧ requiredDomain.Consistent db.definitionDependencies := by
  rw [typeDomain_consistent, requiredDomain_consistent, seriesDomain_consistent]
  exact ⟨fun h => ⟨h.domainCode, ⟨h.identity, h.legacyBusinessKey⟩, h.requiredDomain⟩,
    fun ⟨htypes, ⟨hidentity, hlegacy⟩, hrequired⟩ => ⟨hidentity, hlegacy, htypes, hrequired⟩⟩

/-! ## The renamed tables as renamed columns -/

theorem rename_types : typeDomain.rename "COWOS_S" "E2E_COST" db.calculationTypes
    = db.renamed.calculationTypes := by
  refine List.map_congr_left fun row _ => ?_
  show (if row.domain = "COWOS_S" then _ else row) = _
  unfold renamedDomain
  split
  · rfl
  · rfl

theorem rename_series : seriesDomain.rename "COWOS_S" "E2E_COST" db.datasetSeries
    = db.renamed.datasetSeries := by
  refine List.map_congr_left fun row _ => ?_
  show (if row.identity.domain = "COWOS_S" then _ else row) = _
  unfold renamedDomain
  split
  · rfl
  · rfl

theorem rename_dependencies :
    requiredDomain.rename "COWOS_S" "E2E_COST" db.definitionDependencies
      = db.renamed.definitionDependencies := by
  refine List.map_congr_left fun row _ => ?_
  show (if row.requiredDomain = "COWOS_S" then _ else row) = _
  unfold renamedDomain
  split
  · rfl
  · rfl

/-! ## The four queries -/

theorem conflictsInCode_eq :
    db.conflictsInCode = typeDomain.collides "COWOS_S" "E2E_COST" db.calculationTypes := by
  rw [Bool.eq_iff_iff, collides_iff]
  simp only [conflictsInCode, List.any_eq_true, Bool.and_eq_true, decide_eq_true_eq]
  constructor
  · rintro ⟨old, hold, target, htarget, ⟨hnew, hcode⟩, hdomain⟩
    exact ⟨old, hold, target, htarget, hdomain, hnew, decide_eq_true hcode.symm⟩
  · rintro ⟨old, hold, target, htarget, hdomain, hnew, hcode⟩
    exact ⟨old, hold, target, htarget, ⟨hnew, (of_decide_eq_true hcode).symm⟩, hdomain⟩

theorem conflictsInRequiredDomain_eq : db.conflictsInRequiredDomain
    = requiredDomain.collides "COWOS_S" "E2E_COST" db.definitionDependencies := by
  rw [Bool.eq_iff_iff, collides_iff]
  simp only [conflictsInRequiredDomain, List.any_eq_true, Bool.and_eq_true, decide_eq_true_eq]
  constructor
  · rintro ⟨old, hold, target, htarget, ⟨hversion, hnew⟩, hdomain⟩
    exact ⟨old, hold, target, htarget, hdomain, hnew, decide_eq_true hversion.symm⟩
  · rintro ⟨old, hold, target, htarget, hdomain, hnew, hversion⟩
    exact ⟨old, hold, target, htarget, ⟨(of_decide_eq_true hversion).symm, hnew⟩, hdomain⟩

/-- Two of the queries are about the domain of a series. -/
theorem conflictsInSeries_eq : (db.conflictsInIdentity || db.conflictsInLegacyKey)
    = seriesDomain.collides "COWOS_S" "E2E_COST" db.datasetSeries := by
  rw [Bool.eq_iff_iff, collides_iff, Bool.or_eq_true]
  simp only [conflictsInIdentity, conflictsInLegacyKey, List.any_eq_true, Bool.and_eq_true,
    decide_eq_true_eq]
  constructor
  · rintro (⟨old, hold, target, htarget, ⟨hnew, hsame⟩, hdomain⟩
      | ⟨old, hold, target, htarget, ⟨hnew, hsame⟩, hdomain⟩)
    · refine ⟨old, hold, target, htarget, hdomain, hnew, Bool.or_eq_true_iff.mpr (.inl ?_)⟩
      rwa [sameSlot_comm]
    · refine ⟨old, hold, target, htarget, hdomain, hnew, Bool.or_eq_true_iff.mpr (.inr ?_)⟩
      rwa [sqlEq_comm]
  · rintro ⟨old, hold, target, htarget, hdomain, hnew, hsame⟩
    rcases Bool.or_eq_true_iff.mp hsame with hsame | hsame
    · rw [sameSlot_comm] at hsame
      exact .inl ⟨old, hold, target, htarget, ⟨hnew, hsame⟩, hdomain⟩
    · rw [sqlEq_comm] at hsame
      exact .inr ⟨old, hold, target, htarget, ⟨hnew, hsame⟩, hdomain⟩

/-- The queries find a row exactly when the renamed tables would break a constraint. -/
theorem renamed_constraints_iff (h : db.UniqueConstraints) : db.renamed.UniqueConstraints ↔
    (db.conflictsInIdentity || db.conflictsInLegacyKey) = false ∧ db.conflictsInCode = false
      ∧ db.conflictsInRequiredDomain = false := by
  obtain ⟨htypes, hseries, hdependencies⟩ := uniqueConstraints_iff.mp h
  have hne : "COWOS_S" ≠ "E2E_COST" := by decide
  rw [uniqueConstraints_iff, ← rename_types, ← rename_series, ← rename_dependencies,
    consistent_rename_iff hne htypes, consistent_rename_iff hne hseries,
    consistent_rename_iff hne hdependencies, conflictsInSeries_eq, conflictsInCode_eq,
    conflictsInRequiredDomain_eq]
  exact and_left_comm

/-! ## The migration -/

/-- The updates succeed when no constraint is broken in the end. -/
theorem update_eq (h : db.renamed.UniqueConstraints) : db.update = some db.renamed := by
  obtain ⟨htypes, hseries, hdependencies⟩ := uniqueConstraints_iff.mp h
  have hne : "COWOS_S" ≠ "E2E_COST" := by decide
  rw [← rename_types] at htypes
  rw [← rename_series] at hseries
  rw [← rename_dependencies] at hdependencies
  unfold update
  rw [updateRename_eq hne htypes, updateRename_eq hne hseries, updateRename_eq hne hdependencies,
    rename_types, rename_series, rename_dependencies]
  rfl

theorem up_of_constraints (h : db.UniqueConstraints) (hrenamed : db.renamed.UniqueConstraints) :
    db.up = (none, db.renamed) := by
  obtain ⟨hseries, hcode, hrequired⟩ := (renamed_constraints_iff h).mp hrenamed
  obtain ⟨hidentity, hlegacy⟩ := Bool.or_eq_false_iff.mp hseries
  unfold up upBlock
  rw [hidentity, hlegacy, hcode, hrequired, update_eq hrenamed]
  rfl

theorem up_of_not_constraints (h : db.UniqueConstraints)
    (hrenamed : ¬ db.renamed.UniqueConstraints) : ∃ message, db.up = (some (.raised message), db) := by
  unfold up upBlock
  by_cases hidentity : db.conflictsInIdentity = true
  · exact ⟨_, by rw [if_pos hidentity]⟩
  by_cases hlegacy : db.conflictsInLegacyKey = true
  · exact ⟨_, by rw [if_neg hidentity, if_pos hlegacy]⟩
  by_cases hcode : db.conflictsInCode = true
  · exact ⟨_, by rw [if_neg hidentity, if_neg hlegacy, if_pos hcode]⟩
  by_cases hrequired : db.conflictsInRequiredDomain = true
  · exact ⟨_, by rw [if_neg hidentity, if_neg hlegacy, if_neg hcode, if_pos hrequired]⟩
  rw [Bool.not_eq_true] at hidentity hlegacy hcode hrequired
  exact absurd ((renamed_constraints_iff h).mpr
    ⟨Bool.or_eq_false_iff.mpr ⟨hidentity, hlegacy⟩, hcode, hrequired⟩) hrenamed

theorem jobAgrees_renamed {job : CalculationJob} (h : db.JobAgrees job) :
    db.renamed.JobAgrees job := by
  obtain ⟨type, htype, htypeId, version, hversion, hversionId, series, hseries, hseriesId, hdomain⟩
    := h
  refine ⟨_, List.mem_map_of_mem htype, htypeId, version, hversion, hversionId, _,
    List.mem_map_of_mem hseries, hseriesId, ?_⟩
  exact congrArg renamedDomain hdomain

/-- The migration raises and changes nothing exactly when the renaming would break a constraint,
and renames everywhere otherwise. -/
theorem naming_renames (h : db.UniqueConstraints) : db.Renames := by
  have hne : "COWOS_S" ≠ "E2E_COST" := by decide
  by_cases hrenamed : db.renamed.UniqueConstraints
  · have hup := up_of_constraints h hrenamed
    refine ⟨?_, ?_, ?_, ?_, ?_, ?_, ?_⟩ <;> rw [hup]
    · exact iff_of_false (fun hraised => hraised rfl) (fun hnot => hnot hrenamed)
    · exact fun hraised => absurd rfl hraised
    · exact fun _ => ⟨rfl, hrenamed⟩
    · exact fun _ row hrow => get_ne_of_mem_rename hne (rename_types ▸ hrow)
    · exact fun _ row hrow => get_ne_of_mem_rename hne (rename_series ▸ hrow)
    · exact fun _ row hrow => get_ne_of_mem_rename hne (rename_dependencies ▸ hrow)
    · exact fun _ job _ => jobAgrees_renamed
  · obtain ⟨message, hup⟩ := up_of_not_constraints h hrenamed
    refine ⟨?_, ?_, ?_, ?_, ?_, ?_, ?_⟩ <;> rw [hup]
    · exact iff_of_true nofun hrenamed
    · exact fun _ => rfl
    all_goals exact nofun

/-- Both names already coexist: the series of another company and without a legacy key are no
obstacle. -/
def sampleTables : OrchestrationTables where
  calculationTypes := [⟨⟨"t1", "COWOS_S", "SUMMARY", "dag", true⟩, 1, 0⟩,
    ⟨⟨"t2", "E2E_COST", "DETAIL", "dag", true⟩, 1, 0⟩]
  datasetSeries := [⟨⟨"s1", ⟨"COWOS_S", "C1", 2026, .q1⟩, 1⟩, none, 0⟩,
    ⟨⟨"s2", ⟨"E2E_COST", "C2", 2026, .q1⟩, 1⟩, none, 0⟩]
  definitionDependencies := [⟨"d1", "COWOS_S"⟩, ⟨"d2", "E2E_COST"⟩]
  datasetVersions := []
  calculationJobs := []

theorem naming_renames_coexisting : sampleTables.up.1 = none ∧ sampleTables.Renames :=
  ⟨by decide +kernel, naming_renames ⟨by decide, by decide, by decide, by decide⟩⟩

end OrchestrationTables

end CostEngine
