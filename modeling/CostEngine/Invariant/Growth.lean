import CostEngine.Invariant.Guards

/-! # The store only grows

`Store.Grows s s'` is what every later store `s'` keeps of an earlier one: rows are never
deleted and change by their steps only, the jobs of a version are fixed when it is
created, its snapshot once it is frozen, and an abandoned version gets no more attempts.
A transaction is taken apart write by write: each lemma `Grows.put…` and `Grows.insert…`
adds one write to those that brought the store `s₀` to `s`. -/

namespace CostEngine

open Relation (ReflTransGen)
open Relational (Table)

namespace Store

/-! ### Growth of the store -/

/-- What a job is for: its id and its type. -/
def jobKey (j : CalculationJob) : Uuid × Uuid := (j.id, j.calculationTypeId)

structure Grows (s s' : Store) : Prop where
  types : ∀ id ct, s.calculationTypes.get? id = some ct →
    ∃ ct', s'.calculationTypes.get? id = some ct' ∧ ct'.domain = ct.domain
      ∧ ct'.code = ct.code
  definitions : ∀ id d, s.dependencyDefinitions.get? id = some d → d.status = .published →
    s'.dependencyDefinitions.get? id = some d ∧ s'.definitionRowsOf id = s.definitionRowsOf id
  series : s.datasetSeries.Grows SeriesStep s'.datasetSeries
  versions : s.datasetVersions.Grows VersionStep s'.datasetVersions
  jobs : s.calculationJobs.Grows JobStep s'.calculationJobs
  snapshots : ∀ id b, s.datasetBuildSnapshots.get? id = some b →
    s'.datasetBuildSnapshots.get? id = some b
  attempts : s.executionAttempts.Grows AttemptStep s'.executionAttempts
  jobsOf : ∀ v, s.datasetVersions.get? v ≠ none →
    (s'.jobsOf v).map jobKey = (s.jobsOf v).map jobKey
  snapshotsOf : ∀ v, s.snapshotsOf v ≠ [] → s'.snapshotsOf v = s.snapshotsOf v
  dependenciesOf : ∀ b, s.datasetBuildSnapshots.get? b ≠ none →
    s'.dependenciesOf b = s.dependenciesOf b
  attemptsOf : ∀ j, ((s.attemptsOf j).map (·.id)).IsPrefix ((s'.attemptsOf j).map (·.id))
  abandoned : ∀ j, s.phaseOf? j = some .abandoned → s'.attemptsOf j = s.attemptsOf j

namespace Grows

variable {s₀ s s' s'' : Store}

theorem refl : Grows s s where
  types _ ct h := ⟨ct, h, rfl, rfl⟩
  definitions _ _ h _ := ⟨h, rfl⟩
  series := .refl
  versions := .refl
  jobs := .refl
  snapshots _ _ h := h
  attempts := .refl
  jobsOf _ _ := rfl
  snapshotsOf _ _ := rfl
  dependenciesOf _ _ := rfl
  attemptsOf _ := List.prefix_rfl
  abandoned _ _ := rfl

/-! ## What is known of one row later -/

section Rows

variable (h : Grows s s') {id : Uuid}
include h

theorem type {ct : CalculationType} (hct : s.calculationTypes.get? id = some ct) :
    ∃ ct', s'.calculationTypes.get? id = some ct' ∧ ct'.domain = ct.domain
      ∧ ct'.code = ct.code := h.types id ct hct

theorem seriesRow {r : DatasetSeries} (hr : s.datasetSeries.get? id = some r) :
    ∃ r', s'.datasetSeries.get? id = some r' ∧ r'.identity = r.identity := by
  obtain ⟨r', hr', hs⟩ := h.series id r hr
  exact ⟨r', hr', (series_columns hs).2.1⟩

theorem version {v : DatasetVersion} (hv : s.datasetVersions.get? id = some v) :
    ∃ v', s'.datasetVersions.get? id = some v' ∧ ReflTransGen VersionStep v v' :=
  h.versions id v hv

theorem job {j : CalculationJob} (hj : s.calculationJobs.get? id = some j) :
    ∃ j', s'.calculationJobs.get? id = some j' ∧ ReflTransGen JobStep j j' :=
  h.jobs id j hj

theorem attempt {a : ExecutionAttempt} (ha : s.executionAttempts.get? id = some a) :
    ∃ a', s'.executionAttempts.get? id = some a' ∧ ReflTransGen AttemptStep a a' :=
  h.attempts id a ha

theorem version_ne_none (hv : s.datasetVersions.get? id ≠ none) :
    s'.datasetVersions.get? id ≠ none := by
  obtain ⟨v, hv⟩ := Option.ne_none_iff_exists'.mp hv
  obtain ⟨v', hv', -⟩ := h.version hv
  rw [hv']
  exact Option.some_ne_none _

theorem snapshot_ne_none (hb : s.datasetBuildSnapshots.get? id ≠ none) :
    s'.datasetBuildSnapshots.get? id ≠ none := by
  obtain ⟨b, hb⟩ := Option.ne_none_iff_exists'.mp hb
  rw [h.snapshots id b hb]
  exact Option.some_ne_none _

theorem phaseOf_abandoned (hp : s.phaseOf? id = some .abandoned) :
    s'.phaseOf? id = some .abandoned := by
  simp only [phaseOf?, Option.bind_eq_bind, Option.pure_def, Option.bind_eq_some_iff,
    Option.some.injEq] at hp ⊢
  obtain ⟨j, hj, v, hv, hphase⟩ := hp
  obtain ⟨j', hj', hsj⟩ := h.job hj
  obtain ⟨v', hv', hsv⟩ := h.version hv
  -- An abandoned version stays abandoned.
  have hfinal : v.status.isFinal = true := by
    revert hphase
    cases v.status <;> simp [DatasetVersionStatus.phase, DatasetVersionStatus.isFinal]
  rw [version_final hsv hfinal] at hv'
  exact ⟨j', hj', v, by rw [(job_columns hsj).2.1]; exact hv', hphase⟩

end Rows

/-! ### Growth is transitive -/

theorem trans (h : Grows s s') (h' : Grows s' s'') : Grows s s'' where
  types id ct hct := by
    obtain ⟨ct', hct', hd, hc⟩ := h.types id ct hct
    obtain ⟨ct'', hct'', hd', hc'⟩ := h'.types id ct' hct'
    exact ⟨ct'', hct'', hd'.trans hd, hc'.trans hc⟩
  definitions id d hd hp := by
    obtain ⟨hd', hr⟩ := h.definitions id d hd hp
    obtain ⟨hd'', hr'⟩ := h'.definitions id d hd' hp
    exact ⟨hd'', hr'.trans hr⟩
  series := h.series.trans h'.series
  versions := h.versions.trans h'.versions
  jobs := h.jobs.trans h'.jobs
  snapshots id b hb := h'.snapshots id b (h.snapshots id b hb)
  attempts := h.attempts.trans h'.attempts
  jobsOf v hv := (h'.jobsOf v (h.version_ne_none hv)).trans (h.jobsOf v hv)
  snapshotsOf v hv := by
    have := h.snapshotsOf v hv
    rw [h'.snapshotsOf v (this ▸ hv), this]
  dependenciesOf b hb :=
    (h'.dependenciesOf b (h.snapshot_ne_none hb)).trans (h.dependenciesOf b hb)
  attemptsOf j := (h.attemptsOf j).trans (h'.attemptsOf j)
  abandoned j hj := (h'.abandoned j (h.phaseOf_abandoned hj)).trans (h.abandoned j hj)

/-! ## One write more -/

section Writes

variable (h : Grows s₀ s)
include h

/-! ### Attempts -/

theorem putExecutionAttempt {a r : ExecutionAttempt}
    (hr : s.executionAttempts.get? a.id = some r) (hstep : AttemptStep r a)
    (hphase : s₀.phaseOf? a.calculationJobId ≠ some .abandoned) :
    Grows s₀ (s.apply (.putExecutionAttempt a)) where
  __ := h
  attempts := h.attempts.trans (Table.grows_put hr hstep)
  attemptsOf j := by
    have hids : ((s.executionAttempts.put a).select fun a => a.calculationJobId = j).map
        (·.id) = (s.attemptsOf j).map (·.id) := by
      refine Table.map_select_put fun r' hr' => ?_
      obtain rfl : r = r' := Option.some.inj (hr.symm.trans hr')
      -- A step keeps the id and the job, so the list of ids is the same.
      obtain ⟨hid, hjob, -⟩ := hstep.columns
      exact ⟨hid.symm, by simp [hjob]⟩
    show List.IsPrefix _ (((s.executionAttempts.put a).select _).map _)
    rw [hids]
    exact h.attemptsOf j
  abandoned j hj := by
    -- A job of an abandoned version keeps its attempts, so this is another job.
    have hne : a.calculationJobId ≠ j := fun e => hphase (e ▸ hj)
    refine Eq.trans ?_ (h.abandoned j hj)
    refine Table.select_put_of_not (fun r' hr' => ?_) (by simp [hne])
    obtain rfl : r = r' := Option.some.inj (hr.symm.trans hr')
    simp [← hstep.columns.2.1, hne]

theorem insertExecutionAttempt {a : ExecutionAttempt}
    (hnew : s.executionAttempts.get? a.id = none)
    (hphase : s₀.phaseOf? a.calculationJobId ≠ some .abandoned) :
    Grows s₀ (s.apply (.insertExecutionAttempt a)) where
  __ := h
  attempts := h.attempts.trans Table.grows_insert
  attemptsOf j := by
    -- The new attempt comes last.
    refine (h.attemptsOf j).trans ?_
    show List.IsPrefix _ (List.map _ ((s.executionAttempts.insert a).select _))
    rw [Table.select_insert hnew, List.map_append]
    exact List.prefix_append _ _
  abandoned j hj := by
    have hne : a.calculationJobId ≠ j := fun e => hphase (e ▸ hj)
    refine Eq.trans ?_ (h.abandoned j hj)
    show (s.executionAttempts.insert a).select _ = _
    rw [Table.select_insert hnew, List.filter_cons_of_neg (by simp [hne])]
    exact List.append_nil _

/-! ### Jobs -/

theorem putCalculationJob {j r : CalculationJob}
    (hr : s.calculationJobs.get? j.id = some r) (hstep : JobStep r j) :
    Grows s₀ (s.apply (.putCalculationJob j)) where
  __ := h
  jobs := h.jobs.trans (Table.grows_put hr hstep)
  jobsOf v hv := by
    refine Eq.trans ?_ (h.jobsOf v hv)
    refine Table.map_select_put fun r' hr' => ?_
    obtain rfl : r = r' := Option.some.inj (hr.symm.trans hr')
    -- A step keeps the id, the version and the type.
    obtain ⟨hid, hversion, htype, -⟩ := hstep.columns
    exact ⟨by simp [jobKey, hid, htype], by simp [hversion]⟩

theorem insertCalculationJob {j : CalculationJob}
    (hnew : s.calculationJobs.get? j.id = none)
    (hversion : s₀.datasetVersions.get? j.outputDatasetVersionId = none) :
    Grows s₀ (s.apply (.insertCalculationJob j)) where
  __ := h
  jobs := h.jobs.trans Table.grows_insert
  jobsOf v hv := by
    -- The new job belongs to a version that was not there.
    have hne : j.outputDatasetVersionId ≠ v := fun e => hv (e ▸ hversion)
    refine Eq.trans ?_ (h.jobsOf v hv)
    show ((s.calculationJobs.insert j).select _).map _ = _
    rw [Table.select_insert hnew, List.filter_cons_of_neg (by simp [hne]),
      List.filter_nil, List.append_nil]
    rfl

/-! ### Versions and series -/

theorem putDatasetVersion {v r : DatasetVersion}
    (hr : s.datasetVersions.get? v.id = some r) (hstep : VersionStep r v) :
    Grows s₀ (s.apply (.putDatasetVersion v)) where
  __ := h
  versions := h.versions.trans (Table.grows_put hr hstep)

theorem insertDatasetVersion {v : DatasetVersion} :
    Grows s₀ (s.apply (.insertDatasetVersion v)) where
  __ := h
  versions := h.versions.trans Table.grows_insert

theorem putDatasetSeries {r r' : DatasetSeries}
    (hr : s.datasetSeries.get? r'.id = some r) (hstep : SeriesStep r r') :
    Grows s₀ (s.apply (.putDatasetSeries r')) where
  __ := h
  series := h.series.trans (Table.grows_put hr hstep)

theorem insertDatasetSeries {r : DatasetSeries} :
    Grows s₀ (s.apply (.insertDatasetSeries r)) where
  __ := h
  series := h.series.trans Table.grows_insert

/-! ### Snapshots and their rows -/

theorem insertDatasetBuildSnapshot {b : DatasetBuildSnapshot}
    (hnew : s.datasetBuildSnapshots.get? b.id = none)
    (hversion : s₀.snapshotsOf b.datasetVersionId = []) :
    Grows s₀ (s.apply (.insertDatasetBuildSnapshot b)) where
  __ := h
  snapshots id b' hb' := Table.get?_insert_of_some (h.snapshots id b' hb')
  snapshotsOf v hv := by
    -- The version had no snapshot.
    have hne : b.datasetVersionId ≠ v := fun e => hv (e ▸ hversion)
    refine Eq.trans ?_ (h.snapshotsOf v hv)
    show (s.datasetBuildSnapshots.insert b).select _ = _
    rw [Table.select_insert hnew, List.filter_cons_of_neg (by simp [hne])]
    exact List.append_nil _

theorem insertSnapshotDependency {d : SnapshotDependency}
    (hsnapshot : s₀.datasetBuildSnapshots.get? d.snapshotId = none) :
    Grows s₀ (s.apply (.insertSnapshotDependency d)) where
  __ := h
  dependenciesOf b hb := by
    -- The snapshot was not there.
    have hne : d.snapshotId ≠ b := fun e => hb (e ▸ hsnapshot)
    exact (Table.select_insert_of_not (by simp [hne])).trans (h.dependenciesOf b hb)

end Writes

end Grows

end Store

end CostEngine
