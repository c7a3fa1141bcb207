import CostEngine.CalculationJob.PreparationService
import CostEngine.Invariant.Growth
import CostEngine.Invariant.History

/-! # The invariant of the store

`Store.Consistent` couples four tables: the job status summarises the attempts
(`History`), the phase of a version says how much of its build is frozen and what its jobs
may be doing (`VersionOk`), rows refer to rows that exist (`References`), and the series
keep their versions apart (`SeriesOk`). What is frozen stays frozen in every later store
(`Frozen.grows`). -/

namespace CostEngine

open Relation (ReflTransGen)
open Relational (Table)

/-! ## The frozen build -/

namespace Store

/-- The snapshot has exactly one dependency for each domain the definition requires. -/
def Covers (s : Store) (snapshotId definitionId : Uuid) : Prop :=
  ∀ domain ∈ s.requiredDomainsOf definitionId,
    ∃ f, (s.frozenDependencies snapshotId).filter (·.identity.domain = domain) = [f]

/-- The job resolved to a published definition of its type, which the snapshot covers. -/
def Resolved (s : Store) (snapshotId : Uuid) (j : CalculationJob) : Prop :=
  ∃ d, j.resolvedDependencyDefinitionVersionId = some d.id
    ∧ s.dependencyDefinitions.get? d.id = some d ∧ d.status = .published
    ∧ d.calculationTypeId = j.calculationTypeId ∧ s.Covers snapshotId d.id

/-- One snapshot, and every job resolved. -/
def Frozen (s : Store) (datasetVersionId : Uuid) : Prop :=
  ∃ b, s.snapshotsOf datasetVersionId = [b]
    ∧ ∀ j ∈ s.jobsOf datasetVersionId, s.Resolved b.id j

/-- No snapshot, nothing resolved, nothing attempted. -/
def Unfrozen (s : Store) (datasetVersionId : Uuid) : Prop :=
  s.snapshotsOf datasetVersionId = [] ∧ ∀ j ∈ s.jobsOf datasetVersionId,
    j.resolvedDependencyDefinitionVersionId = none ∧ s.attemptsOf j.id = []

end Store

/-! ## The parts of the invariant -/

/-- Which timestamps of a version are set, by its status. -/
structure DatasetVersion.Timed (v : DatasetVersion) : Prop where
  draft : v.status.phase = .draft → v.buildingStartedAt = none
  building : v.status.phase = .building ∨ v.status.phase = .settled →
    v.buildingStartedAt.isSome
  validating : v.validatingAt.isSome ↔ v.status.phase = .settled
  published : v.publishedAt.isSome ↔ v.status = .published
  rejected : v.rejectedAt.isSome ↔ v.status = .rejected
  abandoned : v.abandonedAt.isSome ↔ v.status = .abandoned

namespace Store

/-- What a version may look like in each phase. -/
def Build (s : Store) (v : DatasetVersion) : Prop :=
  match v.status.phase with
  | .draft => s.Unfrozen v.id
  | .building => s.Frozen v.id
  | .settled => s.Frozen v.id ∧ ∀ j ∈ s.jobsOf v.id, j.status = .succeeded
  | .abandoned => (s.Unfrozen v.id ∨ s.Frozen v.id) ∧
      ∀ j ∈ s.jobsOf v.id, ∀ a ∈ s.attemptsOf j.id, a.status.isActive = false

structure VersionOk (s : Store) (v : DatasetVersion) : Prop where
  timed : v.Timed
  jobs : s.jobsOf v.id ≠ []
  build : s.Build v

/-- Every row refers to rows that exist. -/
structure References (s : Store) : Prop where
  version : ∀ id v, s.datasetVersions.get? id = some v →
    ∃ r, s.datasetSeries.get? v.datasetSeriesId = some r ∧ v.version ≤ r.lastAllocatedVersion
  job : ∀ id j, s.calculationJobs.get? id = some j → ∃ v r ct,
    s.datasetVersions.get? j.outputDatasetVersionId = some v
      ∧ s.datasetSeries.get? v.datasetSeriesId = some r
      ∧ s.calculationTypes.get? j.calculationTypeId = some ct
      ∧ ct.domain = r.identity.domain
  attempt : ∀ id a, s.executionAttempts.get? id = some a →
    s.calculationJobs.get? a.calculationJobId ≠ none
      ∧ a.airflowDagRunId = airflowDagRunIdOf id
  snapshot : ∀ id b, s.datasetBuildSnapshots.get? id = some b →
    s.datasetVersions.get? b.datasetVersionId ≠ none
  dependency : ∀ id d, s.snapshotDependencies.get? id = some d →
    s.datasetBuildSnapshots.get? d.snapshotId ≠ none
      ∧ ∃ r v, s.datasetSeries.get? d.upstreamDatasetSeriesId = some r
        ∧ s.datasetVersions.get? d.upstreamDatasetVersionId = some v
        ∧ v.datasetSeriesId = d.upstreamDatasetSeriesId

/-- One series for each identity, and in each series the versions `1..n` in the order they
were created, with one active version. -/
structure SeriesOk (s : Store) : Prop where
  numbered : ∀ id r, s.datasetSeries.get? id = some r →
    (s.versionsOf id).map (·.version) = List.range' 1 r.lastAllocatedVersion
  identity : ∀ id id' r r', s.datasetSeries.get? id = some r →
    s.datasetSeries.get? id' = some r' → r.identity = r'.identity → id = id'
  number : ∀ id id' v v', s.datasetVersions.get? id = some v →
    s.datasetVersions.get? id' = some v' → v.datasetSeriesId = v'.datasetSeriesId →
    v.version = v'.version → id = id'
  active : ∀ id id' v v', s.datasetVersions.get? id = some v →
    s.datasetVersions.get? id' = some v' → v.datasetSeriesId = v'.datasetSeriesId →
    v.status.isActive = true → v'.status.isActive = true → id = id'

structure Consistent (s : Store) : Prop where
  references : s.References
  series : s.SeriesOk
  history : ∀ id j, s.calculationJobs.get? id = some j → History (s.attemptsOf id) j.status
  version : ∀ id v, s.datasetVersions.get? id = some v → s.VersionOk v

end Store

/-! ## Members of the selections -/

namespace Store

variable {s : Store}

theorem mem_jobsOf {j : CalculationJob} {v : Uuid} :
    j ∈ s.jobsOf v ↔ s.calculationJobs.get? j.id = some j ∧ j.outputDatasetVersionId = v := by
  rw [jobsOf, Table.mem_select, Table.mem_rows, decide_eq_true_eq]

theorem mem_attemptsOf {a : ExecutionAttempt} {j : Uuid} :
    a ∈ s.attemptsOf j ↔
      s.executionAttempts.get? a.id = some a ∧ a.calculationJobId = j := by
  rw [attemptsOf, Table.mem_select, Table.mem_rows, decide_eq_true_eq]

theorem mem_versionsOf {v : DatasetVersion} {r : Uuid} :
    v ∈ s.versionsOf r ↔ s.datasetVersions.get? v.id = some v ∧ v.datasetSeriesId = r := by
  rw [versionsOf, Table.mem_select, Table.mem_rows, decide_eq_true_eq]

theorem mem_snapshotsOf {b : DatasetBuildSnapshot} {v : Uuid} :
    b ∈ s.snapshotsOf v ↔
      s.datasetBuildSnapshots.get? b.id = some b ∧ b.datasetVersionId = v := by
  rw [snapshotsOf, Table.mem_select, Table.mem_rows, decide_eq_true_eq]

theorem mem_dependenciesOf {d : SnapshotDependency} {b : Uuid} :
    d ∈ s.dependenciesOf b ↔
      s.snapshotDependencies.get? (d.snapshotId, d.upstreamDatasetSeriesId) = some d
        ∧ d.snapshotId = b := by
  rw [dependenciesOf, Table.mem_select, Table.mem_rows, decide_eq_true_eq]

theorem mem_attemptsOf_of_get? {a : ExecutionAttempt} {id : Uuid}
    (h : s.executionAttempts.get? id = some a) : a ∈ s.attemptsOf a.calculationJobId :=
  mem_attemptsOf.mpr ⟨(Table.get?_key h).symm ▸ h, rfl⟩

theorem mem_jobsOf_of_get? {j : CalculationJob} {id : Uuid}
    (h : s.calculationJobs.get? id = some j) : j ∈ s.jobsOf j.outputDatasetVersionId :=
  mem_jobsOf.mpr ⟨(Table.get?_key h).symm ▸ h, rfl⟩

theorem phaseOf?_eq {j : CalculationJob} {v : DatasetVersion} {id : Uuid}
    (hj : s.calculationJobs.get? id = some j)
    (hv : s.datasetVersions.get? j.outputDatasetVersionId = some v) :
    s.phaseOf? id = some v.status.phase := by
  simp [phaseOf?, hj, hv]

end Store

/-! ## What is frozen stays frozen -/

namespace Store

variable {s s' : Store}

/-- The frozen dependencies of a snapshot are rebuilt from its rows at every dispatch,
always with the same result. -/
theorem frozenDependencies_grows (h : s.References) (hg : s.Grows s') {b : Uuid}
    (hb : s.datasetBuildSnapshots.get? b ≠ none) :
    s'.frozenDependencies b = s.frozenDependencies b := by
  unfold frozenDependencies
  rw [hg.dependenciesOf b hb]
  refine List.filterMap_congr fun d hd => ?_
  obtain ⟨-, r, v, hr, hv, hvr⟩ := h.dependency _ d (mem_dependenciesOf.mp hd).1
  obtain ⟨r', hr', hid⟩ := hg.seriesRow hr
  obtain ⟨v', hv', hsv⟩ := hg.version hv
  obtain ⟨-, hvs, hvn, -⟩ := version_columns hsv
  simp [hr, hv, hr', hv', hid, hvs, hvn]

theorem requiredDomainsOf_grows (hg : s.Grows s') {d : DependencyDefinition}
    (hd : s.dependencyDefinitions.get? d.id = some d) (hp : d.status = .published) :
    s'.requiredDomainsOf d.id = s.requiredDomainsOf d.id := by
  unfold requiredDomainsOf
  rw [(hg.definitions d.id d hd hp).2]

theorem Resolved.grows (h : s.References) (hg : s.Grows s') {b : Uuid}
    (hb : s.datasetBuildSnapshots.get? b ≠ none) {j j' : CalculationJob}
    (hj : ReflTransGen JobStep j j') (hr : s.Resolved b j) : s'.Resolved b j' := by
  obtain ⟨d, hres, hd, hp, htype, hcov⟩ := hr
  obtain ⟨-, -, htype', -, hres'⟩ := job_columns hj
  refine ⟨d, hres' _ hres, (hg.definitions d.id d hd hp).1, hp, htype.trans htype'.symm, ?_⟩
  unfold Covers
  rw [requiredDomainsOf_grows hg hd hp, frozenDependencies_grows h hg hb]
  exact hcov

/-- A job of an existing version was there already when the version was. -/
theorem Grows.jobsOf_back (hg : s.Grows s') {v : Uuid}
    (hv : s.datasetVersions.get? v ≠ none) {j' : CalculationJob} (hj : j' ∈ s'.jobsOf v) :
    ∃ j ∈ s.jobsOf v, ReflTransGen JobStep j j' := by
  have hkey : jobKey j' ∈ (s.jobsOf v).map jobKey := by
    rw [← hg.jobsOf v hv]
    exact List.mem_map_of_mem hj
  obtain ⟨j, hj₀, hk⟩ := List.mem_map.mp hkey
  obtain ⟨hid, -⟩ : j.id = j'.id ∧ j.calculationTypeId = j'.calculationTypeId := by
    simpa [jobKey] using hk
  obtain ⟨j₁, hj₁, hs⟩ := hg.job (mem_jobsOf.mp hj₀).1
  rw [hid, (mem_jobsOf.mp hj).1] at hj₁
  cases hj₁
  exact ⟨j, hj₀, hs⟩

theorem Frozen.grows (h : s.References) (hg : s.Grows s') {v : Uuid}
    (hv : s.datasetVersions.get? v ≠ none) (hf : s.Frozen v) : s'.Frozen v := by
  obtain ⟨b, hb, hres⟩ := hf
  have hb' : s'.snapshotsOf v = [b] := by
    rw [hg.snapshotsOf v (by rw [hb]; simp), hb]
  have hbget : s.datasetBuildSnapshots.get? b.id ≠ none := by
    have : b ∈ s.snapshotsOf v := by rw [hb]; simp
    rw [(mem_snapshotsOf.mp this).1]
    simp
  refine ⟨b, hb', fun j' hj' => ?_⟩
  obtain ⟨j, hj, hs⟩ := hg.jobsOf_back hv hj'
  exact (hres j hj).grows h hg hbget hs

end Store

/-! ## What the invariant says about a running execution -/

namespace Store.Consistent

variable {s : Store} (h : s.Consistent)
include h

/-- The version of a job, with its phase. -/
theorem versionOf {id : Uuid} {j : CalculationJob} (hj : s.calculationJobs.get? id = some j) :
    ∃ v, s.datasetVersions.get? j.outputDatasetVersionId = some v ∧ s.VersionOk v
      ∧ j ∈ s.jobsOf v.id := by
  obtain ⟨v, -, -, hv, -⟩ := h.references.job id j hj
  refine ⟨v, hv, h.version _ v hv, ?_⟩
  rw [Table.get?_key hv]
  exact mem_jobsOf_of_get? hj

/-- The job of an attempt, with its history. -/
theorem jobOf {id : Uuid} {a : ExecutionAttempt}
    (ha : s.executionAttempts.get? id = some a) :
    ∃ j, s.calculationJobs.get? a.calculationJobId = some j
      ∧ History (s.attemptsOf a.calculationJobId) j.status
      ∧ a ∈ s.attemptsOf a.calculationJobId := by
  obtain ⟨j, hj⟩ := Option.ne_none_iff_exists'.mp (h.references.attempt id a ha).1
  exact ⟨j, hj, h.history _ j hj, mem_attemptsOf_of_get? ha⟩

/-- A job that has ever been attempted belongs to a frozen version. -/
theorem frozen_of_attempt {id : Uuid} {j : CalculationJob}
    (hj : s.calculationJobs.get? id = some j) {a : ExecutionAttempt}
    (ha : a ∈ s.attemptsOf id) : ∃ v,
      s.datasetVersions.get? j.outputDatasetVersionId = some v ∧ s.VersionOk v
        ∧ v.status ≠ .draft ∧ s.Frozen v.id := by
  obtain ⟨v, hv, hok, hjv⟩ := h.versionOf hj
  refine ⟨v, hv, hok, ?_⟩
  have hid : j.id = id := Table.get?_key hj
  have hb := hok.build
  have hne : ¬ s.Unfrozen v.id := by
    rintro ⟨-, hjobs⟩
    have := (hjobs j hjv).2
    rw [hid] at this
    rw [this] at ha
    cases ha
  unfold Store.Build at hb
  cases hs : v.status <;> simp only [hs, DatasetVersionStatus.phase] at hb
  · exact absurd hb hne
  · exact ⟨by decide, hb⟩
  · exact ⟨by decide, hb.1⟩
  · exact ⟨by decide, hb.1⟩
  · exact ⟨by decide, hb.1⟩
  · exact ⟨by decide, hb.1.resolve_left hne⟩

/-- An active attempt keeps its version in `BUILDING`. -/
theorem building_of_active {id : Uuid} {j : CalculationJob}
    (hj : s.calculationJobs.get? id = some j) {a : ExecutionAttempt}
    (ha : a ∈ s.attemptsOf id) (hactive : a.status.isActive = true) : ∃ v,
      s.datasetVersions.get? j.outputDatasetVersionId = some v ∧ s.VersionOk v
        ∧ v.status = .building ∧ s.Frozen v.id := by
  obtain ⟨v, hv, hok, hdraft, hfrozen⟩ := h.frozen_of_attempt hj ha
  refine ⟨v, hv, hok, ?_, hfrozen⟩
  have hjv : j ∈ s.jobsOf v.id := by
    rw [Table.get?_key hv]
    exact mem_jobsOf_of_get? hj
  have hid : j.id = id := Table.get?_key hj
  -- Outside BUILDING the job would be SUCCEEDED or its attempts over.
  have hsettled : ¬ ∀ j ∈ s.jobsOf v.id, j.status = .succeeded := by
    intro hall
    have hh := h.history id j hj
    obtain ⟨b, hb, hbs⟩ := hh.succeeded_iff.mp (hall j hjv)
    obtain ⟨init, hinit⟩ := hh.eq_append_of_not_dead hb (by rw [hbs]; rfl)
    rw [hinit] at ha hh
    rcases List.mem_append.mp ha with ha | ha
    · have := hh.init_dead a ha
      revert this hactive
      cases a.status <;> decide
    · rw [List.mem_singleton.mp ha, hbs] at hactive
      cases hactive
  have habandoned : ¬ ∀ j ∈ s.jobsOf v.id, ∀ a ∈ s.attemptsOf j.id,
      a.status.isActive = false := by
    intro hall
    rw [hall j hjv a (hid.symm ▸ ha)] at hactive
    cases hactive
  have hb := hok.build
  unfold Store.Build at hb
  cases hs : v.status <;> simp only [hs, DatasetVersionStatus.phase] at hb
  · exact absurd hs hdraft
  · rfl
  · exact absurd hb.2 hsettled
  · exact absurd hb.2 hsettled
  · exact absurd hb.2 hsettled
  · exact absurd hb.2 habandoned

/-- The run id of an attempt determines the attempt. -/
theorem attempt_of_identity {id id' : Uuid} {a a' : ExecutionAttempt}
    (ha : s.executionAttempts.get? id = some a)
    (ha' : s.executionAttempts.get? id' = some a') (hi : a.identity = a'.identity) :
    id = id' := by
  have hrun : a.airflowDagRunId = a'.airflowDagRunId := congrArg (·.airflowDagRunId) hi
  rw [(h.references.attempt id a ha).2, (h.references.attempt id' a' ha').2] at hrun
  exact String.append_right_inj _ |>.mp hrun

end Store.Consistent

end CostEngine
