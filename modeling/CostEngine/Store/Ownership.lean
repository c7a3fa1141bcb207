import CostEngine.Store.Schema

/-! # The rows of a company

A series names its company; everything below a series belongs to the company of the series. -/

namespace CostEngine

open Relational (Table)

structure OwnedRows where
  series : List DatasetSeries
  versions : List DatasetVersion
  jobs : List CalculationJob
  attempts : List ExecutionAttempt
  snapshots : List DatasetBuildSnapshot
  dependencies : List SnapshotDependency
  deriving DecidableEq

namespace Store

variable (s : Store)

/-! ## Whose row it is -/

def seriesCompany (id : Uuid) : Option String :=
  (s.datasetSeries.get? id).map (·.identity.companyCode)

def versionCompany (id : Uuid) : Option String :=
  (s.datasetVersions.get? id).bind fun v => s.seriesCompany v.datasetSeriesId

def jobCompany (id : Uuid) : Option String :=
  (s.calculationJobs.get? id).bind fun j => s.versionCompany j.outputDatasetVersionId

def attemptCompany (id : Uuid) : Option String :=
  (s.executionAttempts.get? id).bind fun a => s.jobCompany a.calculationJobId

def snapshotCompany (id : Uuid) : Option String :=
  (s.datasetBuildSnapshots.get? id).bind fun b => s.versionCompany b.datasetVersionId

def ownedBy (company : String) : OwnedRows where
  series := s.datasetSeries.select fun r => r.identity.companyCode = company
  versions := s.datasetVersions.select fun v => s.seriesCompany v.datasetSeriesId = some company
  jobs := s.calculationJobs.select fun j =>
    s.versionCompany j.outputDatasetVersionId = some company
  attempts := s.executionAttempts.select fun a => s.jobCompany a.calculationJobId = some company
  snapshots := s.datasetBuildSnapshots.select fun b =>
    s.versionCompany b.datasetVersionId = some company
  dependencies := s.snapshotDependencies.select fun d =>
    s.snapshotCompany d.snapshotId = some company

/-! ## Writes within a company -/

/-- The row belongs to the company, before and after the write. -/
def within (company : String) : Write → Bool
  | .insertDatasetSeries row => row.identity.companyCode = company
  | .putDatasetSeries row => row.identity.companyCode = company
      ∧ s.seriesCompany row.id = some company
  | .insertDatasetVersion row => s.seriesCompany row.datasetSeriesId = some company
  | .putDatasetVersion row => s.seriesCompany row.datasetSeriesId = some company
      ∧ s.versionCompany row.id = some company
  | .insertCalculationJob row => s.versionCompany row.outputDatasetVersionId = some company
  | .putCalculationJob row => s.versionCompany row.outputDatasetVersionId = some company
      ∧ s.jobCompany row.id = some company
  | .insertDatasetBuildSnapshot row => s.versionCompany row.datasetVersionId = some company
  | .insertSnapshotDependency row => s.snapshotCompany row.snapshotId = some company
  | .insertExecutionAttempt row => s.jobCompany row.calculationJobId = some company
  | .putExecutionAttempt row => s.jobCompany row.calculationJobId = some company
      ∧ s.attemptCompany row.id = some company

/-! ## Rows that lead to a company -/

variable {s} {s' : Store} {company other : String} {w : Write}

/-- Two tables have the same rows that lead to `other` by `f`. -/
structure SameRows {α κ : Type} {key : α → κ} [DecidableEq κ] (t t' : Table α κ key)
    (f : α → Option String) (other : String) : Prop where
  get? : ∀ k, t'.get? k = t.get? k
    ∨ ((t.get? k).bind f ≠ some other ∧ (t'.get? k).bind f ≠ some other)
  select : t'.select (f · = some other) = t.select (f · = some other)

section SameRows

variable {α κ : Type} {key : α → κ} [DecidableEq κ] {t t' : Table α κ key} {a : α}
  {f f' : α → Option String}

theorem SameRows.refl : SameRows t t f other := ⟨fun _ => .inl rfl, rfl⟩

theorem SameRows.insert (ha : f a ≠ some other) : SameRows t (t.insert a) f other := by
  refine ⟨fun k => ?_, Table.select_insert_of_not (decide_eq_false ha)⟩
  rw [Table.get?_insert_eq]
  cases hk : t.get? k with
  | some b => exact .inl rfl
  | none =>
      rw [Option.none_or]
      split
      · exact .inr ⟨nofun, ha⟩
      · exact .inl rfl

theorem SameRows.put (hold : (t.get? (key a)).bind f ≠ some other) (ha : f a ≠ some other) :
    SameRows t (t.put a) f other := by
  refine ⟨fun k => ?_, Table.select_put_of_not (fun r hr => decide_eq_false fun h => hold ?_)
    (decide_eq_false ha)⟩
  · rw [Table.get?_put]
    split
    · rename_i hk
      subst hk
      refine .inr ⟨hold, ?_⟩
      cases t.get? (key a) with
      | none => simp
      | some b => exact ha
    · exact .inl rfl
  · rw [hr]
    exact h

theorem SameRows.delete {p : α → Bool} (hp : ∀ a ∈ t.rows, p a = true → f a ≠ some other) :
    SameRows t (t.delete p) f other := by
  refine ⟨fun k => ?_, ?_⟩
  · rw [Table.get?_delete]
    cases hk : t.get? k with
    | none => exact .inl rfl
    | some b =>
        rw [Option.filter_some]
        cases hpb : p b with
        | false => exact .inl rfl
        | true => exact .inr ⟨hp b (Table.get?_mem hk) hpb, nofun⟩
  · show (t.rows.filter _).filter _ = t.rows.filter _
    rw [List.filter_filter]
    refine List.filter_congr fun b hb => ?_
    cases hpb : p b with
    | false => simp
    | true => simp [hp b hb hpb]

theorem SameRows.bind_iff (h : SameRows t t' f other)
    (hf : ∀ a, f' a = some other ↔ f a = some other) (k : κ) :
    (t'.get? k).bind f' = some other ↔ (t.get? k).bind f = some other := by
  have hswap : (t'.get? k).bind f' = some other ↔ (t'.get? k).bind f = some other := by
    cases t'.get? k with
    | none => exact .rfl
    | some a => exact hf a
  rw [hswap]
  rcases h.get? k with heq | ⟨hold, hnew⟩
  · rw [heq]
  · exact ⟨fun h => absurd h hnew, fun h => absurd h hold⟩

theorem SameRows.select_eq (h : SameRows t t' f other)
    (hf : ∀ a, f' a = some other ↔ f a = some other) :
    t'.select (f' · = some other) = t.select (f · = some other) := by
  rw [← h.select]
  exact List.filter_congr fun b _ => decide_eq_decide.mpr (hf b)

end SameRows

/-! ## The rows of another company -/

/-- The same rows of every table lead to the company `other`. -/
structure SameOwned (s s' : Store) (other : String) : Prop where
  series : SameRows s.datasetSeries s'.datasetSeries (fun r => some r.identity.companyCode) other
  versions : SameRows s.datasetVersions s'.datasetVersions
    (fun v => s.seriesCompany v.datasetSeriesId) other
  jobs : SameRows s.calculationJobs s'.calculationJobs
    (fun j => s.versionCompany j.outputDatasetVersionId) other
  attempts : SameRows s.executionAttempts s'.executionAttempts
    (fun a => s.jobCompany a.calculationJobId) other
  snapshots : SameRows s.datasetBuildSnapshots s'.datasetBuildSnapshots
    (fun b => s.versionCompany b.datasetVersionId) other
  dependencies : SameRows s.snapshotDependencies s'.snapshotDependencies
    (fun d => s.snapshotCompany d.snapshotId) other

theorem SameOwned.refl : SameOwned s s other := ⟨.refl, .refl, .refl, .refl, .refl, .refl⟩

section SameOwned

variable (h : SameOwned s s' other) (id : Uuid)

include h

theorem SameOwned.seriesCompany : s'.seriesCompany id = some other ↔
    s.seriesCompany id = some other := by
  simp only [Store.seriesCompany, Option.map_eq_bind]
  exact h.series.bind_iff (fun _ => .rfl) id

theorem SameOwned.versionCompany : s'.versionCompany id = some other ↔
    s.versionCompany id = some other :=
  h.versions.bind_iff (fun v => h.seriesCompany v.datasetSeriesId) id

theorem SameOwned.jobCompany : s'.jobCompany id = some other ↔ s.jobCompany id = some other :=
  h.jobs.bind_iff (fun j => h.versionCompany j.outputDatasetVersionId) id

theorem SameOwned.snapshotCompany : s'.snapshotCompany id = some other ↔
    s.snapshotCompany id = some other :=
  h.snapshots.bind_iff (fun b => h.versionCompany b.datasetVersionId) id

omit id in
theorem SameOwned.ownedBy : s'.ownedBy other = s.ownedBy other := by
  unfold Store.ownedBy
  congr 1
  · have hseries := h.series.select
    simpa only [Option.some.injEq] using hseries
  · exact h.versions.select_eq fun v => h.seriesCompany v.datasetSeriesId
  · exact h.jobs.select_eq fun j => h.versionCompany j.outputDatasetVersionId
  · exact h.attempts.select_eq fun a => h.jobCompany a.calculationJobId
  · exact h.snapshots.select_eq fun b => h.versionCompany b.datasetVersionId
  · exact h.dependencies.select_eq fun d => h.snapshotCompany d.snapshotId

end SameOwned

theorem ne_some_of_eq {o : Option String} (h : o = some company) (hne : other ≠ company) :
    o ≠ some other := by
  rw [h]
  exact fun h' => hne (Option.some.inj h').symm

/-- A write of one company changes no row of another. -/
theorem sameOwned_apply (h : s.within company w = true) (hne : other ≠ company) :
    SameOwned s (s.apply w) other := by
  have hother : ∀ {o : Option String}, o = some company → o ≠ some other :=
    fun ho => ne_some_of_eq ho hne
  cases w with
  | insertDatasetSeries row =>
      have h := of_decide_eq_true h
      exact { SameOwned.refl with series := .insert (hother (congrArg some h)) }
  | putDatasetSeries row =>
      obtain ⟨h, hold⟩ := of_decide_eq_true h
      rw [Store.seriesCompany, Option.map_eq_bind] at hold
      exact { SameOwned.refl with series := .put (hother hold) (hother (congrArg some h)) }
  | insertDatasetVersion row =>
      exact { SameOwned.refl with versions := .insert (hother (of_decide_eq_true h)) }
  | putDatasetVersion row =>
      obtain ⟨h, hold⟩ := of_decide_eq_true h
      exact { SameOwned.refl with versions := .put (hother hold) (hother h) }
  | insertCalculationJob row =>
      exact { SameOwned.refl with jobs := .insert (hother (of_decide_eq_true h)) }
  | putCalculationJob row =>
      obtain ⟨h, hold⟩ := of_decide_eq_true h
      exact { SameOwned.refl with jobs := .put (hother hold) (hother h) }
  | insertDatasetBuildSnapshot row =>
      exact { SameOwned.refl with snapshots := .insert (hother (of_decide_eq_true h)) }
  | insertSnapshotDependency row =>
      exact { SameOwned.refl with dependencies := .insert (hother (of_decide_eq_true h)) }
  | insertExecutionAttempt row =>
      exact { SameOwned.refl with attempts := .insert (hother (of_decide_eq_true h)) }
  | putExecutionAttempt row =>
      obtain ⟨h, hold⟩ := of_decide_eq_true h
      exact { SameOwned.refl with attempts := .put (hother hold) (hother h) }

end Store

end CostEngine
