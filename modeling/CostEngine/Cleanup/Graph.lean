import CostEngine.Cleanup.Repository

/-! # The rows of a company in the graph of foreign keys

They are ranked in the order in which they are deleted, and nobody else's row refers to them
unless a snapshot does, which the first statement looks for. -/

namespace CostEngine

open Relational (Table ClosedUnder Reaches restricts deleteWhere deleteAll)

/-- The position of the deletion of a row; the rows of the other tables come after. -/
def CleanupRow.rank : CleanupRow → Nat
  | .dependency _ => 0
  | .dprInput _ => 1
  | .dprInputSnapshot _ => 2
  | .dprResult _ => 3
  | .attempt _ => 4
  | .snapshot _ => 5
  | .job _ => 6
  | .version _ => 7
  | .series _ => 8
  | .definitionDependency _ => 9
  | .dependencyDefinition _ => 10
  | .calculationType _ => 11
  | .asset _ => 12

theorem CleanupRow.rank_le (row : CleanupRow) : row.rank ≤ 12 := by
  cases row <;> exact Nat.le_of_ble_eq_true rfl

theorem CleanupRow.rank_lt {child parent : CleanupRow} (h : child.refers parent = true) :
    child.rank < parent.rank := by
  cases child <;> cases parent <;> first | cases h | exact Nat.le_of_ble_eq_true rfl

namespace CleanupDatabase

variable (db : CleanupDatabase) (company : String)

/-- The company of a row of the nine tables. -/
def companyOf : CleanupRow → Option String
  | .series row => db.store.seriesCompany row.id
  | .version row => db.store.versionCompany row.id
  | .job row => db.store.jobCompany row.id
  | .snapshot row => db.store.versionCompany row.datasetVersionId
  | .dependency row => db.store.snapshotCompany row.snapshotId
  | .attempt row => db.store.jobCompany row.calculationJobId
  | .dprInputSnapshot row => db.store.jobCompany row.calculationJobId
  | .dprInput row => db.store.jobCompany row.inputSnapshotId
  | .dprResult row => db.store.versionCompany row.datasetVersionId
  | .calculationType _ | .dependencyDefinition _ | .definitionDependency _ | .asset _ => none

def owned (row : CleanupRow) : Bool := db.companyOf row = some company

/-- A series of the company. -/
def Root : CleanupRow → Prop
  | .series row => row.identity.companyCode = company
  | _ => False

/-- Some snapshot of another company's version refers to a series of the company. -/
def ReferencedFromOutside : Prop :=
  ∃ d ∈ db.store.snapshotDependencies.rows, ∃ upstream ∈ db.store.datasetSeries.rows,
    ∃ b ∈ db.store.datasetBuildSnapshots.rows, ∃ v ∈ db.store.datasetVersions.rows,
    ∃ owner ∈ db.store.datasetSeries.rows, upstream.id = d.upstreamDatasetSeriesId
      ∧ b.id = d.snapshotId ∧ v.id = b.datasetVersionId ∧ owner.id = v.datasetSeriesId
      ∧ upstream.identity.companyCode = company ∧ owner.identity.companyCode ≠ company

variable {db company} {row child parent : CleanupRow} {p : CleanupRow → Bool}

/-! ## Companies along the foreign keys -/

section Companies

variable {s : Store} {c : String}

theorem seriesCompany_of_mem {r : DatasetSeries} (h : r ∈ s.datasetSeries.rows) :
    s.seriesCompany r.id = some r.identity.companyCode := by
  rw [Store.seriesCompany, Table.get?_of_mem h, Option.map_some]

theorem versionCompany_of_mem {v : DatasetVersion} (h : v ∈ s.datasetVersions.rows) :
    s.versionCompany v.id = s.seriesCompany v.datasetSeriesId := by
  rw [Store.versionCompany, Table.get?_of_mem h, Option.bind_some]

theorem jobCompany_of_mem {j : CalculationJob} (h : j ∈ s.calculationJobs.rows) :
    s.jobCompany j.id = s.versionCompany j.outputDatasetVersionId := by
  rw [Store.jobCompany, Table.get?_of_mem h, Option.bind_some]

theorem snapshotCompany_of_mem {b : DatasetBuildSnapshot} (h : b ∈ s.datasetBuildSnapshots.rows) :
    s.snapshotCompany b.id = s.versionCompany b.datasetVersionId := by
  rw [Store.snapshotCompany, Table.get?_of_mem h, Option.bind_some]

theorem exists_series {id : Uuid} (h : s.seriesCompany id = some c) :
    ∃ r ∈ s.datasetSeries.rows, r.id = id ∧ r.identity.companyCode = c := by
  obtain ⟨r, hr, hc⟩ := Option.map_eq_some_iff.mp h
  exact ⟨r, Table.get?_mem hr, Table.get?_key hr, hc⟩

theorem exists_version {id : Uuid} (h : s.versionCompany id = some c) :
    ∃ v ∈ s.datasetVersions.rows, v.id = id ∧ s.seriesCompany v.datasetSeriesId = some c := by
  obtain ⟨v, hv, hc⟩ := Option.bind_eq_some_iff.mp h
  exact ⟨v, Table.get?_mem hv, Table.get?_key hv, hc⟩

theorem exists_job {id : Uuid} (h : s.jobCompany id = some c) :
    ∃ j ∈ s.calculationJobs.rows, j.id = id ∧ s.versionCompany j.outputDatasetVersionId = some c := by
  obtain ⟨j, hj, hc⟩ := Option.bind_eq_some_iff.mp h
  exact ⟨j, Table.get?_mem hj, Table.get?_key hj, hc⟩

theorem exists_snapshot {id : Uuid} (h : s.snapshotCompany id = some c) :
    ∃ b ∈ s.datasetBuildSnapshots.rows, b.id = id ∧ s.versionCompany b.datasetVersionId = some c := by
  obtain ⟨b, hb, hc⟩ := Option.bind_eq_some_iff.mp h
  exact ⟨b, Table.get?_mem hb, Table.get?_key hb, hc⟩

end Companies

/-! ## Rows of the tables -/

section Rows

/-- The row is one of its table. -/
def Holds (db : CleanupDatabase) : CleanupRow → Prop
  | .calculationType row => row ∈ db.store.calculationTypes.rows
  | .dependencyDefinition row => row ∈ db.store.dependencyDefinitions.rows
  | .definitionDependency row => row ∈ db.store.definitionDependencies.rows
  | .series row => row ∈ db.store.datasetSeries.rows
  | .version row => row ∈ db.store.datasetVersions.rows
  | .job row => row ∈ db.store.calculationJobs.rows
  | .snapshot row => row ∈ db.store.datasetBuildSnapshots.rows
  | .dependency row => row ∈ db.store.snapshotDependencies.rows
  | .attempt row => row ∈ db.store.executionAttempts.rows
  | .asset row => row ∈ db.assets.rows
  | .dprInputSnapshot row => row ∈ db.dprInputSnapshots.rows
  | .dprInput row => row ∈ db.dprInputs
  | .dprResult row => row ∈ db.dprResults

theorem mem_rows_iff : row ∈ db.rows ↔ db.Holds row := by
  cases row <;> simp [rows, Holds]

@[simp] theorem series_mem_rows {r : DatasetSeries} :
    .series r ∈ db.rows ↔ r ∈ db.store.datasetSeries.rows := mem_rows_iff

@[simp] theorem version_mem_rows {v : DatasetVersion} :
    .version v ∈ db.rows ↔ v ∈ db.store.datasetVersions.rows := mem_rows_iff

@[simp] theorem job_mem_rows {j : CalculationJob} :
    .job j ∈ db.rows ↔ j ∈ db.store.calculationJobs.rows := mem_rows_iff

@[simp] theorem snapshot_mem_rows {b : DatasetBuildSnapshot} :
    .snapshot b ∈ db.rows ↔ b ∈ db.store.datasetBuildSnapshots.rows := mem_rows_iff

@[simp] theorem dependency_mem_rows {d : SnapshotDependency} :
    .dependency d ∈ db.rows ↔ d ∈ db.store.snapshotDependencies.rows := mem_rows_iff

@[simp] theorem dprInputSnapshot_mem_rows {i : DprInputSnapshot} :
    .dprInputSnapshot i ∈ db.rows ↔ i ∈ db.dprInputSnapshots.rows := mem_rows_iff

@[simp] theorem dprInput_mem_rows {i : DprInput} :
    .dprInput i ∈ db.rows ↔ i ∈ db.dprInputs := mem_rows_iff

/-- A deletion leaves the other rows as they are. -/
theorem rows_delete : (db.delete p).rows = db.rows.filter fun row => !p row := by
  simp [rows, delete, Table.delete, List.filter_append, List.filter_map, Function.comp_def]

theorem delete_false : db.delete (fun _ => false) = db := by
  simp [delete, Table.delete]

theorem delete_delete {q : CleanupRow → Bool} :
    (db.delete p).delete q = db.delete fun row => p row || q row := by
  simp [delete, Table.delete, List.filter_filter, Bool.and_comm]

end Rows

/-! ## References from outside -/

/-- What the first statement of the cleanup finds. -/
theorem foreignReference_iff :
    db.store.foreignReference company = true ↔ db.ReferencedFromOutside company := by
  unfold Store.foreignReference ReferencedFromOutside
  rw [List.any_eq_true]
  refine exists_congr fun d => and_congr_right fun _ => ?_
  rw [decide_eq_true_eq]
  constructor
  · rintro ⟨hupstream, hany⟩
    obtain ⟨c, hsnapshot, hne⟩ := (Option.any_eq_true _ _).mp hany
    obtain ⟨r, hr, hrid, hrc⟩ := exists_series hupstream
    obtain ⟨b, hb, hbid, hbc⟩ := exists_snapshot hsnapshot
    obtain ⟨v, hv, hvid, hvc⟩ := exists_version hbc
    obtain ⟨o, ho, hoid, hoc⟩ := exists_series hvc
    exact ⟨r, hr, b, hb, v, hv, o, ho, hrid, hbid, hvid, hoid, hrc, hoc ▸ of_decide_eq_true hne⟩
  · rintro ⟨r, hr, b, hb, v, hv, o, ho, hrid, hbid, hvid, hoid, hrc, hoc⟩
    refine ⟨by rw [← hrid, seriesCompany_of_mem hr, hrc], ?_⟩
    rw [← hbid, snapshotCompany_of_mem hb, ← hvid, versionCompany_of_mem hv, ← hoid,
      seriesCompany_of_mem ho, Option.any_some]
    exact decide_eq_true hoc

/-- A snapshot whose row refers to a version of the company is the company's. -/
theorem snapshotCompany_of_upstream (h : db.ForeignKeys)
    (hforeign : db.store.foreignReference company = false) {d : SnapshotDependency}
    (hd : d ∈ db.store.snapshotDependencies.rows)
    (hupstream : db.store.seriesCompany d.upstreamDatasetSeriesId = some company) :
    db.store.snapshotCompany d.snapshotId = some company := by
  obtain ⟨b, hb⟩ := Option.isSome_iff_exists.mp (h.dependencySnapshot d hd)
  obtain ⟨v, hv⟩ := Option.isSome_iff_exists.mp (h.snapshotVersion b (Table.get?_mem hb))
  obtain ⟨r, hr⟩ := Option.isSome_iff_exists.mp (h.versionSeries v (Table.get?_mem hv))
  have hcompany : db.store.snapshotCompany d.snapshotId = some r.identity.companyCode := by
    rw [Store.snapshotCompany, hb, Option.bind_some, Store.versionCompany, hv, Option.bind_some,
      Store.seriesCompany, hr, Option.map_some]
  have hnot := List.any_eq_false.mp hforeign d hd
  rw [decide_eq_true_eq, not_and, hcompany, Option.any_some, decide_eq_true_eq, not_not] at hnot
  rw [hcompany, hnot hupstream]

/-! ## The rows of the company are closed under the foreign keys -/

theorem closedUnder_owned (h : db.ForeignKeys)
    (hforeign : db.store.foreignReference company = false) :
    ClosedUnder CleanupRow.refers db.rows (db.owned company) := by
  intro child hchild parent hparent howned hrefers
  have howned : db.companyOf parent = some company := of_decide_eq_true howned
  refine decide_eq_true (p := db.companyOf child = some company) ?_
  cases parent with
  | calculationType t | dependencyDefinition t | definitionDependency t | asset t => cases howned
  | series r =>
      cases child with
      | version v =>
          have hv := version_mem_rows.mp hchild
          have hkey : v.datasetSeriesId = r.id := of_decide_eq_true hrefers
          exact (versionCompany_of_mem hv).trans (hkey ▸ howned)
      | _ => cases hrefers
  | version v =>
      cases child with
      | job j =>
          have hkey : j.outputDatasetVersionId = v.id := of_decide_eq_true hrefers
          exact (jobCompany_of_mem (job_mem_rows.mp hchild)).trans (hkey ▸ howned)
      | snapshot b =>
          have hkey : b.datasetVersionId = v.id := of_decide_eq_true hrefers
          exact (congrArg db.store.versionCompany hkey).trans howned
      | dependency d =>
          obtain ⟨hseries, -⟩ : _ ∧ _ := of_decide_eq_true hrefers
          have hv := version_mem_rows.mp hparent
          have hupstream := (versionCompany_of_mem hv).symm.trans howned
          exact snapshotCompany_of_upstream h hforeign (dependency_mem_rows.mp hchild)
            (hseries ▸ hupstream)
      | dprResult r =>
          have hkey : r.datasetVersionId = v.id := of_decide_eq_true hrefers
          exact (congrArg db.store.versionCompany hkey).trans howned
      | _ => cases hrefers
  | job j =>
      cases child with
      | attempt a =>
          have hkey : a.calculationJobId = j.id := of_decide_eq_true hrefers
          exact (congrArg db.store.jobCompany hkey).trans howned
      | dprInputSnapshot i =>
          have hkey : i.calculationJobId = j.id := of_decide_eq_true hrefers
          exact (congrArg db.store.jobCompany hkey).trans howned
      | _ => cases hrefers
  | snapshot b =>
      cases child with
      | dependency d =>
          have hkey : d.snapshotId = b.id := of_decide_eq_true hrefers
          have hb := snapshotCompany_of_mem (snapshot_mem_rows.mp hparent)
          exact (congrArg db.store.snapshotCompany hkey).trans (hb.trans howned)
      | _ => cases hrefers
  | dprInputSnapshot i =>
      cases child with
      | dprInput x =>
          have hkey : x.inputSnapshotId = i.calculationJobId := of_decide_eq_true hrefers
          exact (congrArg db.store.jobCompany hkey).trans howned
      | _ => cases hrefers
  | dependency d | attempt d | dprInput d | dprResult d => cases child <;> cases hrefers

theorem owned_of_root (hrow : row ∈ db.rows) (hroot : Root company row) :
    db.owned company row = true := by
  cases row with
  | series r =>
      have hroot : r.identity.companyCode = company := hroot
      exact decide_eq_true ((seriesCompany_of_mem (series_mem_rows.mp hrow)).trans
        (congrArg some hroot))
  | _ => exact hroot.elim

/-- A row of the company is a series of it, or it refers to another row of the company. -/
theorem exists_owned_parent (h : db.ForeignKeys) (hrow : row ∈ db.rows)
    (howned : db.owned company row = true) : Root company row
      ∨ ∃ parent ∈ db.rows, db.owned company parent = true ∧ row.refers parent = true := by
  have howned : db.companyOf row = some company := of_decide_eq_true howned
  have hversion : ∀ {id}, db.store.versionCompany id = some company → ∃ v : DatasetVersion,
      .version v ∈ db.rows ∧ db.owned company (.version v) = true ∧ id = v.id := by
    intro id hid
    obtain ⟨v, hv, rfl, -⟩ := exists_version hid
    exact ⟨v, version_mem_rows.mpr hv, decide_eq_true hid, rfl⟩
  have hjob : ∀ {id}, db.store.jobCompany id = some company → ∃ j : CalculationJob,
      .job j ∈ db.rows ∧ db.owned company (.job j) = true ∧ id = j.id := by
    intro id hid
    obtain ⟨j, hj, rfl, -⟩ := exists_job hid
    exact ⟨j, job_mem_rows.mpr hj, decide_eq_true hid, rfl⟩
  cases row with
  | calculationType t | dependencyDefinition t | definitionDependency t | asset t => cases howned
  | series r =>
      left
      have hr := seriesCompany_of_mem (series_mem_rows.mp hrow)
      exact Option.some.inj (hr.symm.trans howned)
  | version v =>
      right
      have hv := (versionCompany_of_mem (version_mem_rows.mp hrow)).symm.trans howned
      obtain ⟨r, hr, hkey, -⟩ := exists_series hv
      have hown : db.store.seriesCompany r.id = some company := hkey ▸ hv
      exact ⟨.series r, series_mem_rows.mpr hr, decide_eq_true hown, decide_eq_true hkey.symm⟩
  | job j =>
      right
      have hj := (jobCompany_of_mem (job_mem_rows.mp hrow)).symm.trans howned
      obtain ⟨v, hv, hown, hkey⟩ := hversion hj
      exact ⟨.version v, hv, hown, decide_eq_true hkey⟩
  | snapshot b =>
      right
      obtain ⟨v, hv, hown, hkey⟩ := hversion howned
      exact ⟨.version v, hv, hown, decide_eq_true hkey⟩
  | dprResult r =>
      right
      obtain ⟨v, hv, hown, hkey⟩ := hversion howned
      exact ⟨.version v, hv, hown, decide_eq_true hkey⟩
  | attempt a =>
      right
      obtain ⟨j, hj, hown, hkey⟩ := hjob howned
      exact ⟨.job j, hj, hown, decide_eq_true hkey⟩
  | dprInputSnapshot i =>
      right
      obtain ⟨j, hj, hown, hkey⟩ := hjob howned
      exact ⟨.job j, hj, hown, decide_eq_true hkey⟩
  | dependency d =>
      right
      obtain ⟨b, hb, hkey, hbc⟩ := exists_snapshot howned
      exact ⟨.snapshot b, snapshot_mem_rows.mpr hb, decide_eq_true hbc, decide_eq_true hkey.symm⟩
  | dprInput i =>
      right
      have hi := dprInput_mem_rows.mp hrow
      obtain ⟨x, hx⟩ := Option.isSome_iff_exists.mp (h.inputSnapshot i hi)
      have hkey : x.calculationJobId = i.inputSnapshotId := Table.get?_key hx
      have hown : db.store.jobCompany x.calculationJobId = some company := hkey ▸ howned
      exact ⟨.dprInputSnapshot x, dprInputSnapshot_mem_rows.mpr (Table.get?_mem hx),
        decide_eq_true hown, decide_eq_true hkey.symm⟩

/-- **The rows of the company are those that are reached from its series.** -/
theorem reaches_iff_owned (h : db.ForeignKeys)
    (hforeign : db.store.foreignReference company = false) (hrow : row ∈ db.rows) :
    Reaches CleanupRow.refers db.rows (Root company) row ↔ db.owned company row = true :=
  Relational.reaches_iff (closedUnder_owned h hforeign) (fun _ => owned_of_root)
    (fun _ => exists_owned_parent h) (fun _ _ => CleanupRow.rank_lt) CleanupRow.rank_le hrow

/-! ## The statements -/

/-- Each statement deletes the rows of the company of the next rank. -/
theorem cleanupStatements_eq : cleanupStatements (db.store.seriesIds company)
      (db.store.versionIds (db.store.seriesIds company))
      (db.store.jobIds (db.store.versionIds (db.store.seriesIds company)))
      (db.store.buildSnapshotIds (db.store.versionIds (db.store.seriesIds company)))
    = (List.range 9).map fun k row => db.owned company row && decide (row.rank = k) := by
  simp only [cleanupStatements, List.range, List.range.loop, List.map_cons, List.map_nil,
    List.cons.injEq, and_true, Store.mem_seriesIds, Store.mem_versionIds, Store.mem_jobIds,
    Store.mem_buildSnapshotIds]
  refine ⟨?_, ?_, ?_, ?_, ?_, ?_, ?_, ?_, ?_⟩
  all_goals
    funext row
    cases row <;> simp [owned, companyOf, CleanupRow.rank]
    exact decide_eq_decide.mpr .rfl

end CleanupDatabase

end CostEngine
