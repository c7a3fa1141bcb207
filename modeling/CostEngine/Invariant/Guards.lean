import CostEngine.Invariant.Steps

/-! # What a row lock guards

A lock on a row also fixes what belongs to the row: the attempts of a job and the phase of
its version, the snapshot of a version and what its jobs resolved to, the visible
versions of a series, the published definitions of a type. `Row.Same r s s'` says that
all this is the same in two stores. The lemmas `same_…` say which rows a write is about;
every other row stays the same. -/

namespace CostEngine

/-! ## What a lock fixes -/

/-- What the lock of a series fixes about its versions. Freezing and submitting a version
do not show. -/
def DatasetVersion.visible (v : DatasetVersion) : Uuid × Uuid × Nat × Bool × Bool :=
  (v.id, v.datasetSeriesId, v.version, v.status.isActive, v.status = .published)

/-- What the lock of a version fixes about its jobs. -/
def CalculationJob.frozen (j : CalculationJob) : Uuid × Uuid × Option Uuid :=
  (j.id, j.calculationTypeId, j.resolvedDependencyDefinitionVersionId)

/-- The phase of the version that a job belongs to. -/
def Store.phaseOf? (s : Store) (jobId : Uuid) : Option Phase := do
  let cj ← s.calculationJobs.get? jobId
  let dv ← s.datasetVersions.get? cj.outputDatasetVersionId
  pure dv.status.phase

/-! ### The same for a lock -/

def Row.Same : Row → Store → Store → Prop
  | .calculationType id, s, s' =>
      s'.calculationTypes.get? id = s.calculationTypes.get? id
        ∧ s'.publishedDefinitionsOf id = s.publishedDefinitionsOf id
  | .dependencyDefinition _, _, _ => True
  | .seriesIdentity identity, s, s' =>
      (s'.seriesWith? identity).map (·.id) = (s.seriesWith? identity).map (·.id)
  | .datasetSeries id, s, s' =>
      s'.datasetSeries.get? id = s.datasetSeries.get? id
        ∧ (s'.versionsOf id).map DatasetVersion.visible
          = (s.versionsOf id).map DatasetVersion.visible
  | .datasetVersion id, s, s' =>
      s'.datasetVersions.get? id = s.datasetVersions.get? id
        ∧ s'.snapshotsOf id = s.snapshotsOf id
        ∧ (s'.jobsOf id).map CalculationJob.frozen = (s.jobsOf id).map CalculationJob.frozen
  | .calculationJob id, s, s' =>
      s'.calculationJobs.get? id = s.calculationJobs.get? id
        ∧ s'.attemptsOf id = s.attemptsOf id ∧ s'.phaseOf? id = s.phaseOf? id
  | .datasetBuildSnapshot id, s, s' =>
      s'.datasetBuildSnapshots.get? id = s.datasetBuildSnapshots.get? id
        ∧ s'.dependenciesOf id = s.dependenciesOf id
  | .executionAttempt id, s, s' =>
      s'.executionAttempts.get? id = s.executionAttempts.get? id

namespace Row

variable {r : Row} {s s' s'' : Store}

theorem Same.refl : r.Same s s := by cases r <;> trivial

theorem Same.trans (h : r.Same s s') (h' : r.Same s' s'') : r.Same s s'' := by
  cases r with
  | dependencyDefinition id => trivial
  | seriesIdentity identity => exact Eq.trans h' h
  | executionAttempt id => exact Eq.trans h' h
  | calculationType id => exact ⟨h'.1.trans h.1, h'.2.trans h.2⟩
  | datasetSeries id => exact ⟨h'.1.trans h.1, h'.2.trans h.2⟩
  | datasetBuildSnapshot id => exact ⟨h'.1.trans h.1, h'.2.trans h.2⟩
  | datasetVersion id =>
      exact ⟨h'.1.trans h.1, h'.2.1.trans h.2.1, h'.2.2.trans h.2.2⟩
  | calculationJob id =>
      exact ⟨h'.1.trans h.1, h'.2.1.trans h.2.1, h'.2.2.trans h.2.2⟩

/-! ### Locks that are held -/

/-- A lock under which the row may be changed is held. -/
def Held (r : Row) (L : List RowLock) : Prop := ∃ l ∈ L, l.row = r ∧ l.mode.exclusive = true

theorem Held.mono {L L' : List RowLock} (h : r.Held L) (hL : ∀ l ∈ L, l ∈ L') : r.Held L' := by
  obtain ⟨l, hl, hrow⟩ := h
  exact ⟨l, hL l hl, hrow⟩

theorem Held.cons {L : List RowLock} {l : RowLock} (h : r.Held L) : r.Held (l :: L) := by
  obtain ⟨m, hm, h⟩ := h
  exact ⟨m, List.mem_cons_of_mem _ hm, h⟩

@[simp] theorem held_forUpdate {L : List RowLock} : r.Held (.forUpdate r :: L) :=
  ⟨_, List.mem_cons_self, rfl, rfl⟩

@[simp] theorem held_noKeyUpdate {L : List RowLock} : r.Held (.noKeyUpdate r :: L) :=
  ⟨_, List.mem_cons_self, rfl, rfl⟩

theorem not_held_of_free {l : RowLock} {L : List RowLock}
    (h : ∀ m ∈ L, ¬ l.conflict m) (hl : l.mode.exclusive = true) : ¬ l.row.Held L := by
  rintro ⟨m, hm, hrow, hmode⟩
  exact h m hm ⟨hrow.symm, LockMode.exclusive_conflicts hl hmode⟩

end Row

/-! ## Which rows a write is about -/

namespace Store

open Relational (Table)

variable {s : Store} {r : Row}

/-! ### Attempts -/

theorem same_putExecutionAttempt {a old : ExecutionAttempt}
    (hold : s.executionAttempts.get? a.id = some old)
    (hjob : old.calculationJobId = a.calculationJobId)
    (hr : r ≠ .executionAttempt a.id) (hr' : r ≠ .calculationJob a.calculationJobId) :
    r.Same s (s.apply (.putExecutionAttempt a)) := by
  cases r with
  | executionAttempt id =>
      have hne : a.id ≠ id := fun e => hr (e ▸ rfl)
      exact Table.get?_put.trans (if_neg hne)
  | calculationJob id =>
      -- Neither the old row nor the new one belongs to this job.
      have hne : a.calculationJobId ≠ id := fun e => hr' (e ▸ rfl)
      refine ⟨rfl, Table.select_put_of_not (fun r' hr' => ?_) (by simp [hne]), rfl⟩
      obtain rfl : old = r' := Option.some.inj (hold.symm.trans hr')
      simp [hjob, hne]
  | _ => trivial

theorem same_insertExecutionAttempt {a : ExecutionAttempt}
    (hnew : s.executionAttempts.get? a.id = none)
    (hr : r ≠ .executionAttempt a.id) (hr' : r ≠ .calculationJob a.calculationJobId) :
    r.Same s (s.apply (.insertExecutionAttempt a)) := by
  cases r with
  | executionAttempt id =>
      have hne : a.id ≠ id := fun e => hr (e ▸ rfl)
      exact (Table.get?_insert hnew).trans (if_neg hne)
  | calculationJob id =>
      -- The new attempt belongs to another job.
      have hne : a.calculationJobId ≠ id := fun e => hr' (e ▸ rfl)
      refine ⟨rfl, ?_, rfl⟩
      show (s.executionAttempts.insert a).select _ = _
      rw [Table.select_insert hnew, List.filter_cons_of_neg (by simp [hne])]
      exact List.append_nil _
  | _ => trivial

/-! ### Jobs -/

theorem same_putCalculationJob {j old : CalculationJob}
    (hold : s.calculationJobs.get? j.id = some old)
    (hversion : old.outputDatasetVersionId = j.outputDatasetVersionId)
    (htype : old.calculationTypeId = j.calculationTypeId)
    (hr : r ≠ .calculationJob j.id)
    (hr' : r ≠ .datasetVersion j.outputDatasetVersionId ∨
      old.resolvedDependencyDefinitionVersionId = j.resolvedDependencyDefinitionVersionId) :
    r.Same s (s.apply (.putCalculationJob j)) := by
  cases r with
  | calculationJob id =>
      have hne : j.id ≠ id := fun e => hr (e ▸ rfl)
      have hget : (s.calculationJobs.put j).get? id = s.calculationJobs.get? id :=
        Table.get?_put.trans (if_neg hne)
      refine ⟨hget, rfl, ?_⟩
      show ((s.calculationJobs.put j).get? id).bind _ = _
      rw [hget]
      rfl
  | datasetVersion id =>
      refine ⟨rfl, rfl, ?_⟩
      -- Another version, or a change that the lock of the version does not fix.
      rcases hr' with hne | hres
      · have hne : j.outputDatasetVersionId ≠ id := fun e => hne (e ▸ rfl)
        refine congrArg _ (Table.select_put_of_not (fun r' hr' => ?_) (by simp [hne]))
        obtain rfl : old = r' := Option.some.inj (hold.symm.trans hr')
        simp [hversion, hne]
      · refine Table.map_select_put fun r' hr' => ?_
        obtain rfl : old = r' := Option.some.inj (hold.symm.trans hr')
        have hid : old.id = j.id := Table.get?_key hold
        exact ⟨by simp [CalculationJob.frozen, hid, htype, hres], by simp [hversion]⟩
  | _ => trivial

/-! ### New jobs -/

theorem same_insertCalculationJob {j : CalculationJob}
    (hnew : s.calculationJobs.get? j.id = none)
    (hr : r ≠ .calculationJob j.id) (hr' : r ≠ .datasetVersion j.outputDatasetVersionId) :
    r.Same s (s.apply (.insertCalculationJob j)) := by
  cases r with
  | calculationJob id =>
      have hne : j.id ≠ id := fun e => hr (e ▸ rfl)
      have hget : (s.calculationJobs.insert j).get? id = s.calculationJobs.get? id :=
        (Table.get?_insert hnew).trans (if_neg hne)
      refine ⟨hget, rfl, ?_⟩
      show ((s.calculationJobs.insert j).get? id).bind _ = _
      rw [hget]
      rfl
  | datasetVersion id =>
      have hne : j.outputDatasetVersionId ≠ id := fun e => hr' (e ▸ rfl)
      refine ⟨rfl, rfl, ?_⟩
      show ((s.calculationJobs.insert j).select _).map _ = _
      rw [Table.select_insert hnew, List.filter_cons_of_neg (by simp [hne]), List.filter_nil,
        List.append_nil]
      rfl
  | _ => trivial

/-! ### Versions -/

theorem same_putDatasetVersion {v old : DatasetVersion}
    (hold : s.datasetVersions.get? v.id = some old)
    (hseries : old.datasetSeriesId = v.datasetSeriesId)
    (hr : r ≠ .datasetVersion v.id)
    (hr' : r ≠ .datasetSeries v.datasetSeriesId ∨ old.visible = v.visible)
    (hjobs : old.status.phase = v.status.phase ∨
      ∀ j ∈ s.jobsOf v.id, r ≠ .calculationJob j.id) :
    r.Same s (s.apply (.putDatasetVersion v)) := by
  cases r with
  | datasetVersion id =>
      have hne : v.id ≠ id := fun e => hr (e ▸ rfl)
      exact ⟨Table.get?_put.trans (if_neg hne), rfl, rfl⟩
  | datasetSeries id =>
      refine ⟨rfl, ?_⟩
      -- Another series, or a change that the lock of the series does not fix.
      rcases hr' with hne | hvis
      · have hne : v.datasetSeriesId ≠ id := fun e => hne (e ▸ rfl)
        refine congrArg _ (Table.select_put_of_not (fun r' hr' => ?_) (by simp [hne]))
        obtain rfl : old = r' := Option.some.inj (hold.symm.trans hr')
        simp [hseries, hne]
      · refine Table.map_select_put fun r' hr' => ?_
        obtain rfl : old = r' := Option.some.inj (hold.symm.trans hr')
        exact ⟨hvis, by simp [hseries]⟩
  | calculationJob id =>
      refine ⟨rfl, rfl, ?_⟩
      show (s.calculationJobs.get? id).bind _ = (s.calculationJobs.get? id).bind _
      cases hj : s.calculationJobs.get? id with
      | none => rfl
      | some j =>
          show ((s.datasetVersions.put v).get? _).bind _
            = (s.datasetVersions.get? j.outputDatasetVersionId).bind _
          rw [Table.get?_put]
          -- Only a job of this version could see the change of phase.
          by_cases hv : v.id = j.outputDatasetVersionId
          · rw [if_pos hv, ← hv, hold]
            rcases hjobs with hphase | hjobs
            · exact congrArg some hphase.symm
            · refine absurd ?_ (hjobs j (Table.mem_select.mpr
                ⟨Table.get?_mem hj, by simp [hv]⟩))
              rw [Table.get?_key hj]
          · rw [if_neg hv]
  | _ => trivial

/-! ### New versions -/

theorem same_insertDatasetVersion {v : DatasetVersion}
    (hnew : s.datasetVersions.get? v.id = none) (hjobs : s.jobsOf v.id = [])
    (hr : r ≠ .datasetVersion v.id) (hr' : r ≠ .datasetSeries v.datasetSeriesId) :
    r.Same s (s.apply (.insertDatasetVersion v)) := by
  cases r with
  | datasetVersion id =>
      have hne : v.id ≠ id := fun e => hr (e ▸ rfl)
      exact ⟨(Table.get?_insert hnew).trans (if_neg hne), rfl, rfl⟩
  | datasetSeries id =>
      have hne : v.datasetSeriesId ≠ id := fun e => hr' (e ▸ rfl)
      refine ⟨rfl, ?_⟩
      show ((s.datasetVersions.insert v).select _).map _ = _
      rw [Table.select_insert hnew, List.filter_cons_of_neg (by simp [hne]), List.filter_nil,
        List.append_nil]
      rfl
  | calculationJob id =>
      refine ⟨rfl, rfl, ?_⟩
      show (s.calculationJobs.get? id).bind _ = (s.calculationJobs.get? id).bind _
      cases hj : s.calculationJobs.get? id with
      | none => rfl
      | some j =>
          -- The new version has no jobs yet.
          have hne : v.id ≠ j.outputDatasetVersionId := by
            intro e
            have : j ∈ s.jobsOf v.id :=
              Table.mem_select.mpr ⟨Table.get?_mem hj, by simp [e]⟩
            rw [hjobs] at this
            cases this
          show ((s.datasetVersions.insert v).get? _).bind _
            = (s.datasetVersions.get? j.outputDatasetVersionId).bind _
          rw [Table.get?_insert hnew, if_neg hne]
  | _ => trivial

/-! ### Series -/

theorem same_putDatasetSeries {r' old : DatasetSeries}
    (hold : s.datasetSeries.get? r'.id = some old) (hident : old.identity = r'.identity)
    (hr : r ≠ .datasetSeries r'.id) : r.Same s (s.apply (.putDatasetSeries r')) := by
  cases r with
  | datasetSeries id =>
      have hne : r'.id ≠ id := fun e => hr (e ▸ rfl)
      exact ⟨Table.get?_put.trans (if_neg hne), rfl⟩
  | seriesIdentity identity =>
      have hrows : ∀ row ∈ s.datasetSeries.rows, row.id = r'.id →
          row.identity = r'.identity := by
        intro row hrow hid
        rw [← hident]
        have hget : s.datasetSeries.get? r'.id = some row :=
          Table.get?_eq_some.mpr ⟨hrow, hid⟩
        rw [hold] at hget
        rw [Option.some.inj hget]
      -- The row keeps its identity, so the search finds what it found.
      show (((s.datasetSeries.put r').rows).find? _).map _ = (s.datasetSeries.rows.find? _).map _
      unfold Table.put
      dsimp only
      generalize s.datasetSeries.rows = rows at hrows
      induction rows with
      | nil => rfl
      | cons row rows ih =>
          have ih := ih fun row hrow => hrows row (List.mem_cons_of_mem _ hrow)
          rw [List.map_cons]
          by_cases hid : row.id = r'.id
          · have hi := hrows row List.mem_cons_self hid
            rw [if_pos hid, List.find?_cons, List.find?_cons, hi]
            split
            · simp [hid]
            · exact ih
          · rw [if_neg hid, List.find?_cons, List.find?_cons]
            split
            · rfl
            · exact ih
  | _ => trivial

theorem same_insertDatasetSeries {r' : DatasetSeries}
    (hnew : s.datasetSeries.get? r'.id = none) (hr : r ≠ .datasetSeries r'.id)
    (hr' : r ≠ .seriesIdentity r'.identity) :
    r.Same s (s.apply (.insertDatasetSeries r')) := by
  cases r with
  | datasetSeries id =>
      have hne : r'.id ≠ id := fun e => hr (e ▸ rfl)
      exact ⟨(Table.get?_insert hnew).trans (if_neg hne), rfl⟩
  | seriesIdentity identity =>
      have hne : r'.identity ≠ identity := fun e => hr' (e ▸ rfl)
      show ((s.datasetSeries.insert r').rows.find? _).map _ = _
      rw [Table.rows_insert hnew, List.find?_append,
        List.find?_cons_of_neg (by simp [hne]), List.find?_nil, Option.or_none]
      rfl
  | _ => trivial

/-! ### Snapshots -/

theorem same_insertDatasetBuildSnapshot {b : DatasetBuildSnapshot}
    (hnew : s.datasetBuildSnapshots.get? b.id = none)
    (hr : r ≠ .datasetBuildSnapshot b.id) (hr' : r ≠ .datasetVersion b.datasetVersionId) :
    r.Same s (s.apply (.insertDatasetBuildSnapshot b)) := by
  cases r with
  | datasetBuildSnapshot id =>
      have hne : b.id ≠ id := fun e => hr (e ▸ rfl)
      exact ⟨(Table.get?_insert hnew).trans (if_neg hne), rfl⟩
  | datasetVersion id =>
      have hne : b.datasetVersionId ≠ id := fun e => hr' (e ▸ rfl)
      refine ⟨rfl, ?_, rfl⟩
      show (s.datasetBuildSnapshots.insert b).select _ = _
      rw [Table.select_insert hnew, List.filter_cons_of_neg (by simp [hne])]
      exact List.append_nil _
  | _ => trivial

theorem same_insertSnapshotDependency {d : SnapshotDependency}
    (hr : r ≠ .datasetBuildSnapshot d.snapshotId) :
    r.Same s (s.apply (.insertSnapshotDependency d)) := by
  cases r with
  | datasetBuildSnapshot id =>
      have hne : d.snapshotId ≠ id := fun e => hr (e ▸ rfl)
      refine ⟨rfl, ?_⟩
      exact Table.select_insert_of_not (by simp [hne])
  | _ => trivial

end Store

end CostEngine
