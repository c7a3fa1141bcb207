import CostEngine.Cleanup.Graph

/-! # The cleanup deletes the rows that are reached from the series of the company -/

namespace CostEngine

open Relational (Table Reaches restricts deleteWhere deleteAll)

namespace CleanupDatabase

variable {db : CleanupDatabase} {company : String} {p : CleanupRow → Bool}

/-! ## Running the statements -/

theorem run_get_bind {α : Type} (f : CleanupDatabase → CleanupM α) :
    (get >>= f : CleanupM α).run.run db = (f db).run.run db := rfl

theorem run_deleteFrom (h : restricts CleanupRow.refers db.rows p = false) :
    (deleteFrom p).run.run db = (.ok (), db.delete p) := by
  rw [deleteFrom, run_get_bind, if_neg (by rw [h]; exact Bool.false_ne_true)]
  rfl

/-- Where the deletions go through on the list of all rows, the statements do. -/
theorem run_forM_deleteFrom {rows : List CleanupRow} {ps : List (CleanupRow → Bool)}
    (h : deleteAll CleanupRow.refers db.rows ps = some rows) :
    (ps.forM deleteFrom).run.run db = (.ok (), db.delete fun row => ps.any fun p => p row) := by
  induction ps generalizing db with
  | nil =>
      exact congrArg (Prod.mk _) delete_false.symm
  | cons p ps ih =>
      rw [deleteAll, deleteWhere] at h
      split at h
      · cases h
      rename_i hfree
      rw [Option.bind_some, ← rows_delete] at h
      have hfirst := run_deleteFrom ((Bool.not_eq_true _).mp hfree)
      show ((deleteFrom p) >>= fun _ => ps.forM deleteFrom).run.run db = _
      rw [ExceptT.run_bind, StateT.run_bind, hfirst]
      show (ps.forM deleteFrom).run.run (db.delete p) = _
      rw [ih h, delete_delete]
      rfl

theorem run_deleteOwnedDemoData (sessionId : String)
    (hforeign : db.store.foreignReference company = false) :
    (deleteOwnedDemoData company sessionId).run.run db
      = ((cleanupStatements (db.store.seriesIds company)
          (db.store.versionIds (db.store.seriesIds company))
          (db.store.jobIds (db.store.versionIds (db.store.seriesIds company)))
          (db.store.buildSnapshotIds
            (db.store.versionIds (db.store.seriesIds company)))).forM deleteFrom).run.run db := by
  rw [deleteOwnedDemoData, run_get_bind, if_neg (by rw [hforeign]; exact Bool.false_ne_true)]
  dsimp only
  rw [run_get_bind, run_get_bind, run_get_bind, run_get_bind]

theorem run_deleteOwnedDemoData_foreign (sessionId : String)
    (hforeign : db.store.foreignReference company = true) :
    (deleteOwnedDemoData company sessionId).run.run db
      = (.error (.integrity "Foreign snapshot references demo ownership graph"), db) := by
  rw [deleteOwnedDemoData, run_get_bind, if_pos hforeign]
  rfl

/-- Every row of the company is of one of the nine ranks. -/
theorem owned_rank {row : CleanupRow} (h : db.owned company row = true) : row.rank < 9 := by
  cases row with
  | calculationType t | dependencyDefinition t | definitionDependency t | asset t => cases h
  | _ => exact Nat.le_of_ble_eq_true rfl

theorem run_deleteOwnedDemoData_ok (sessionId : String) (h : db.ForeignKeys)
    (hforeign : db.store.foreignReference company = false) :
    (deleteOwnedDemoData company sessionId).run.run db = (.ok (), db.delete (db.owned company)) := by
  have hall := Relational.deleteAll_ranked (closedUnder_owned h hforeign)
    (fun _ _ => CleanupRow.rank_lt) 9
  rw [run_deleteOwnedDemoData sessionId hforeign, cleanupStatements_eq, run_forM_deleteFrom hall]
  have hany : (fun row => ((List.range 9).map fun k row =>
      db.owned company row && decide (row.rank = k)).any fun p => p row) = db.owned company := by
    funext row
    rw [List.any_map, Bool.eq_iff_iff, List.any_eq_true]
    constructor
    · rintro ⟨k, -, hk⟩
      exact ((Bool.and_eq_true _ _).mp hk).1
    · intro hrow
      exact ⟨row.rank, List.mem_range.mpr (owned_rank hrow),
        (Bool.and_eq_true _ _).mpr ⟨hrow, decide_eq_true rfl⟩⟩
  rw [hany]

/-- The rows of the orchestration tables are those that the model of a reset keeps. -/
theorem store_delete_owned : (db.delete (db.owned company)).store
    = db.store.deleteOwned (db.store.seriesIds company)
        (db.store.versionIds (db.store.seriesIds company))
        (db.store.jobIds (db.store.versionIds (db.store.seriesIds company))) := by
  have hfalse : ∀ {α κ : Type} {key : α → κ} (t : Table α κ key), t.delete (fun _ => false) = t :=
    fun t => Table.ext (List.filter_eq_self.mpr fun _ _ => rfl)
  simp only [delete, Store.deleteOwned, owned, companyOf, Store.mem_seriesIds, Store.mem_versionIds,
    Store.mem_jobIds, Store.mem_buildSnapshotIds, reduceCtorEq, decide_false, hfalse]
  congr 1

/-! ## The property -/

open Classical in
/-- **The cleanup deletes the owned graph**: nothing when a snapshot of another company refers to
it, and otherwise, without a violation, the rows that are reached from the company's series. -/
theorem cleanup_exact (h : db.ForeignKeys) (company sessionId : String) :
    (db.ReferencedFromOutside company → (deleteOwnedDemoData company sessionId).run.run db
      = (.error (.integrity "Foreign snapshot references demo ownership graph"), db))
    ∧ (¬ db.ReferencedFromOutside company → ∃ db',
        (deleteOwnedDemoData company sessionId).run.run db = (.ok (), db')
        ∧ db'.rows = db.rows.filter fun row =>
          ¬ Reaches CleanupRow.refers db.rows (Root company) row) := by
  refine ⟨fun houtside => ?_, fun houtside => ?_⟩
  · exact run_deleteOwnedDemoData_foreign sessionId (foreignReference_iff.mpr houtside)
  · have hforeign : db.store.foreignReference company = false :=
      (Bool.not_eq_true _).mp fun hf => houtside (foreignReference_iff.mp hf)
    refine ⟨_, run_deleteOwnedDemoData_ok sessionId h hforeign, ?_⟩
    rw [rows_delete]
    refine List.filter_congr fun row hrow => ?_
    rw [Bool.eq_iff_iff, Bool.not_eq_true', decide_eq_true_eq, reaches_iff_owned h hforeign hrow,
      Bool.not_eq_true]

/-! ## Links among the company's own versions -/

/-- The second version of `ACME` is built from the first one and from a version of `OTHER`. -/
def linkedDatabase : CleanupDatabase where
  store :=
    { Store.empty ⟨[⟨"type", "DPR", "DPR", "dag", true⟩], by decide⟩
        ⟨[⟨"definition", "type", 1, .published⟩], by decide⟩
        ⟨[⟨"definition", "DPR"⟩], by decide⟩ with
      datasetSeries := ⟨[⟨"acme", ⟨"DPR", "ACME", 2026, .q1⟩, 2⟩, ⟨"other", ⟨"DPR", "OTHER", 2026, .q1⟩, 1⟩],
        by decide⟩
      datasetVersions := ⟨[
        { id := "v1", datasetSeriesId := "acme", version := 1, status := .published, createdAt := 0 },
        { id := "v2", datasetSeriesId := "acme", version := 2, status := .building, createdAt := 1 },
        { id := "w1", datasetSeriesId := "other", version := 1, status := .published, createdAt := 0 }],
        by decide⟩
      calculationJobs := ⟨[
        { id := "j2"
          outputDatasetVersionId := "v2"
          calculationTypeId := "type"
          status := .running
          resolvedDependencyDefinitionVersionId := some "definition"
          createdAt := 1 }], by decide⟩
      datasetBuildSnapshots := ⟨[⟨"b2", "v2", 2⟩], by decide⟩
      snapshotDependencies := ⟨[⟨"b2", "acme", "v1"⟩, ⟨"b2", "other", "w1"⟩], by decide⟩
      executionAttempts := ⟨[
        { id := "a2"
          calculationJobId := "j2"
          attemptNumber := 1
          status := .accepted
          airflowDagId := "dag"
          airflowDagRunId := "run"
          createdAt := 2 }], by decide⟩ }
  assets := ⟨[⟨1, "TOOL"⟩], by decide⟩
  dprInputSnapshots := ⟨[⟨"j2", "PUBLISHED", "FAB1"⟩], by decide⟩
  dprInputs := [⟨"j2", "FAB1", 1, 1050⟩]
  dprResults := [⟨"v1", "FAB1", "TOOL", 1050⟩]

open Classical in
theorem cleanup_exact_linked : ∃ db',
    (deleteOwnedDemoData "ACME" "session").run.run linkedDatabase = (.ok (), db')
      ∧ db'.rows = linkedDatabase.rows.filter fun row =>
        ¬ Reaches CleanupRow.refers linkedDatabase.rows (Root "ACME") row := by
  have hkeys : linkedDatabase.ForeignKeys := by
    constructor <;> decide
  have hforeign : linkedDatabase.store.foreignReference "ACME" = false := by decide
  refine (cleanup_exact hkeys "ACME" "session").2 fun houtside => Bool.false_ne_true ?_
  exact hforeign.symm.trans (foreignReference_iff.mpr houtside)

end CleanupDatabase

end CostEngine
