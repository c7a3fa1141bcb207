import CostEngine.Invariant.Creation

/-! # Freezing a build

The change that moves a version from `DRAFT` to `BUILDING`: every job gets its
definition, the snapshot and its dependencies are inserted, and the version is updated. -/

namespace CostEngine

open Relation (ReflTransGen)
open Relational (Table)

/-- The job with the definition that its type resolves to. -/
def CalculationJob.resolveTo (resolve : Uuid → Uuid) (j : CalculationJob) : CalculationJob :=
  { j with resolvedDependencyDefinitionVersionId := some (resolve j.calculationTypeId) }

/-! ### Upstreams -/

/-- An upstream series with the version that is frozen of it. -/
abbrev Upstream := DatasetSeries × DatasetVersion

def Upstream.dependency (snapshotId : Uuid) (u : Upstream) : SnapshotDependency :=
  { snapshotId, upstreamDatasetSeriesId := u.1.id, upstreamDatasetVersionId := u.2.id }

def Upstream.frozen (u : Upstream) : FrozenUpstreamDatasetVersion where
  identity := u.1.identity
  datasetSeriesId := u.1.id
  datasetVersionId := u.2.id
  version := u.2.version

namespace Store

variable {s : Store} {L : List RowLock}

def freezing (now : Time) (v : DatasetVersion) (b : DatasetBuildSnapshot)
    (resolve : Uuid → Uuid) (jobs : List CalculationJob) (upstreams : List Upstream) :
    List Write :=
  jobs.map (fun j => .putCalculationJob (j.resolveTo resolve))
    ++ [.insertDatasetBuildSnapshot b]
    ++ upstreams.map (fun u => .insertSnapshotDependency (u.dependency b.id))
    ++ [.putDatasetVersion (v.building now)]

/-! ### What may be frozen -/

/-- What may be frozen. -/
structure Freezing (s : Store) (v : DatasetVersion) (b : DatasetBuildSnapshot)
    (resolve : Uuid → Uuid) (jobs : List CalculationJob) (upstreams : List Upstream) :
    Prop where
  version : s.datasetVersions.get? v.id = some v
  draft : v.status = .draft
  fresh : s.datasetBuildSnapshots.get? b.id = none
  owner : b.datasetVersionId = v.id
  jobs_iff : ∀ j, j ∈ jobs ↔ j ∈ s.jobsOf v.id
  resolved : ∀ j ∈ jobs, ∃ d, d.id = resolve j.calculationTypeId
    ∧ s.dependencyDefinitions.get? d.id = some d ∧ d.status = .published
    ∧ d.calculationTypeId = j.calculationTypeId
    ∧ ∀ domain ∈ s.requiredDomainsOf d.id, ∃ u ∈ upstreams, u.1.identity.domain = domain
  upstream : ∀ u ∈ upstreams, s.datasetSeries.get? u.1.id = some u.1
    ∧ s.datasetVersions.get? u.2.id = some u.2 ∧ u.2.datasetSeriesId = u.1.id
  domains_nodup : (upstreams.map (·.1.identity.domain)).Nodup

/-! ## The store after the writes -/

theorem foldl_putCalculationJob (resolve : Uuid → Uuid) (jobs : List CalculationJob)
    (s : Store) :
    (jobs.map fun j => Write.putCalculationJob (j.resolveTo resolve)).foldl Store.apply s
      = { s with calculationJobs :=
            jobs.foldl (fun t j => t.put (j.resolveTo resolve)) s.calculationJobs } := by
  induction jobs generalizing s with
  | nil => rfl
  | cons j jobs ih => rw [List.map_cons, List.foldl_cons, ih]; rfl

theorem foldl_insertSnapshotDependency (snapshotId : Uuid) (upstreams : List Upstream)
    (s : Store) :
    (upstreams.map fun u => Write.insertSnapshotDependency (u.dependency snapshotId)).foldl
        Store.apply s
      = { s with
          snapshotDependencies := (upstreams.map (Upstream.dependency snapshotId)).foldl
            Table.insert s.snapshotDependencies } := by
  induction upstreams generalizing s with
  | nil => rfl
  | cons u us ih => rw [List.map_cons, List.foldl_cons, ih]; rfl

/-- The store after the writes of `freezing`. -/
def frozenStore (s : Store) (now : Time) (v : DatasetVersion) (b : DatasetBuildSnapshot)
    (resolve : Uuid → Uuid) (jobs : List CalculationJob) (upstreams : List Upstream) : Store :=
  { s with
    datasetVersions := s.datasetVersions.put (v.building now)
    calculationJobs := jobs.foldl (fun t j => t.put (j.resolveTo resolve)) s.calculationJobs
    datasetBuildSnapshots := s.datasetBuildSnapshots.insert b
    snapshotDependencies := (upstreams.map (Upstream.dependency b.id)).foldl Table.insert
      s.snapshotDependencies }

theorem foldl_freezing (now : Time) (v : DatasetVersion) (b : DatasetBuildSnapshot)
    (resolve : Uuid → Uuid) (jobs : List CalculationJob) (upstreams : List Upstream)
    (s : Store) : (freezing now v b resolve jobs upstreams).foldl Store.apply s
      = s.frozenStore now v b resolve jobs upstreams := by
  rw [freezing, List.foldl_append, List.foldl_append, List.foldl_append,
    foldl_putCalculationJob, List.foldl_cons, List.foldl_nil, foldl_insertSnapshotDependency]
  rfl

/-! ### The rows of the tables -/

namespace Freezing

variable {now : Time} {v : DatasetVersion} {b : DatasetBuildSnapshot} {resolve : Uuid → Uuid}
variable {jobs : List CalculationJob} {upstreams : List Upstream}
variable (hf : s.Freezing v b resolve jobs upstreams)

/-- What the writes do to the row of a job. -/
def jobImage (resolve : Uuid → Uuid) (v : DatasetVersion) (j : CalculationJob) :
    CalculationJob :=
  if j.outputDatasetVersionId = v.id then j.resolveTo resolve else j

omit hf in
theorem jobImage_columns (j : CalculationJob) : (jobImage resolve v j).id = j.id
    ∧ (jobImage resolve v j).outputDatasetVersionId = j.outputDatasetVersionId
    ∧ (jobImage resolve v j).calculationTypeId = j.calculationTypeId
    ∧ (jobImage resolve v j).status = j.status := by
  unfold jobImage
  split <;> exact ⟨rfl, rfl, rfl, rfl⟩

include hf

theorem rows : (s.frozenStore now v b resolve jobs upstreams).calculationJobs.rows
    = s.calculationJobs.rows.map (jobImage resolve v) := by
  refine (Table.rows_foldl_put (f := CalculationJob.resolveTo resolve) (fun _ => rfl)
    (fun _ => rfl) ?_).trans (List.map_congr_left fun r hr => ?_)
  · -- The jobs that are written are rows of the table.
    intro j hj r hr hk
    have hget : s.calculationJobs.get? j.id = some j :=
      (mem_jobsOf.mp ((hf.jobs_iff j).mp hj)).1
    rw [Table.get?_eq_some.mpr ⟨hr, hk⟩] at hget
    rw [Option.some.inj hget]
  · unfold jobImage
    -- Written are exactly the jobs of the version.
    have hiff : r.id ∈ jobs.map (·.id) ↔ r.outputDatasetVersionId = v.id := by
      rw [List.mem_map]
      constructor
      · rintro ⟨j, hj, hid⟩
        obtain ⟨hget, hjv⟩ := mem_jobsOf.mp ((hf.jobs_iff j).mp hj)
        rw [hid, Table.get?_of_mem hr] at hget
        rw [Option.some.inj hget]
        exact hjv
      · intro hv
        exact ⟨r, (hf.jobs_iff r).mpr (mem_jobsOf.mpr ⟨Table.get?_of_mem hr, hv⟩), rfl⟩
    simp only [hiff]

theorem job_get? (id : Uuid) :
    (s.frozenStore now v b resolve jobs upstreams).calculationJobs.get? id
      = (s.calculationJobs.get? id).map (jobImage resolve v) :=
  Table.get?_of_rows_map (fun j => (jobImage_columns j).1) hf.rows

theorem jobsOf_eq (id : Uuid) :
    (s.frozenStore now v b resolve jobs upstreams).jobsOf id
      = (s.jobsOf id).map (jobImage resolve v) :=
  Table.select_of_rows_map (fun j => by rw [(jobImage_columns j).2.1]) hf.rows

theorem jobsOf_other {id : Uuid} (hid : id ≠ v.id) :
    (s.frozenStore now v b resolve jobs upstreams).jobsOf id = s.jobsOf id := by
  rw [hf.jobsOf_eq]
  conv_rhs => rw [← List.map_id (s.jobsOf id)]
  refine List.map_congr_left fun j hj => ?_
  -- The job belongs to another version, so its image is the job.
  have := (mem_jobsOf.mp hj).2
  exact if_neg (this ▸ hid)

theorem version_get? (id : Uuid) :
    (s.frozenStore now v b resolve jobs upstreams).datasetVersions.get? id
      = if v.id = id then some (v.building now) else s.datasetVersions.get? id := by
  refine Table.get?_put.trans ?_
  show (if v.id = id then _ else _) = _
  split
  · rename_i he
    rw [← he, hf.version]
    rfl
  · rfl

theorem series_nodup : (upstreams.map (·.1.id)).Nodup := by
  have h := hf.domains_nodup
  unfold List.Nodup at h ⊢
  rw [List.pairwise_map] at h ⊢
  refine h.imp_of_mem fun {u u'} hu hu' hne he => hne ?_
  -- Two upstreams of one series would be two of one domain.
  have h₁ := (hf.upstream u hu).1
  rw [he, (hf.upstream u' hu').1] at h₁
  rw [Option.some.inj h₁]

theorem dependency_nodup : ((upstreams.map (Upstream.dependency b.id)).map
    fun d => (d.snapshotId, d.upstreamDatasetSeriesId)).Nodup := by
  rw [List.map_map]
  have h := hf.series_nodup
  unfold List.Nodup at h ⊢
  rw [List.pairwise_map] at h ⊢
  exact h.imp fun hne he => hne (congrArg Prod.snd he)

theorem dependency_fresh (h : s.References) :
    ∀ d ∈ upstreams.map (Upstream.dependency b.id),
      s.snapshotDependencies.get? (d.snapshotId, d.upstreamDatasetSeriesId) = none := by
  intro d hd
  obtain ⟨u, -, rfl⟩ := List.mem_map.mp hd
  by_contra hne
  obtain ⟨d', hd'⟩ := Option.ne_none_iff_exists'.mp hne
  -- A dependency belongs to a snapshot that is there.
  have hb := (h.dependency _ d' hd').1
  have hk : d'.snapshotId = b.id := congrArg Prod.fst (Table.get?_key hd')
  exact hb (hk ▸ hf.fresh)

theorem dependenciesOf_eq (h : s.References) (id : Uuid) :
    (s.frozenStore now v b resolve jobs upstreams).dependenciesOf id
      = if b.id = id then upstreams.map (Upstream.dependency b.id)
        else s.dependenciesOf id := by
  refine (Table.select_foldl_insert hf.dependency_nodup (hf.dependency_fresh h)).trans ?_
  split
  · rename_i he
    -- The snapshot is new, so its dependencies are those of the freeze.
    subst he
    rw [List.filter_eq_self.mpr]
    · exact (congrArg (· ++ _) (h.dependenciesOf_eq_nil hf.fresh)).trans (List.nil_append _)
    · intro d hd
      obtain ⟨u, -, rfl⟩ := List.mem_map.mp hd
      simp [Upstream.dependency]
  · rename_i hne
    rw [List.filter_eq_nil_iff.mpr, List.append_nil]
    · rfl
    · intro d hd
      obtain ⟨u, -, rfl⟩ := List.mem_map.mp hd
      simp [Upstream.dependency, hne]

/-- Freezing does not change what an upstream version is. -/
theorem upstream_version (now : Time) {u : Upstream} (hu : u ∈ upstreams) :
    ∃ w, (s.frozenStore now v b resolve jobs upstreams).datasetVersions.get? u.2.id = some w
      ∧ w.datasetSeriesId = u.2.datasetSeriesId ∧ w.version = u.2.version := by
  obtain ⟨-, hv, -⟩ := hf.upstream u hu
  rw [hf.version_get?]
  split
  · rename_i he
    rw [← he, hf.version] at hv
    rw [← Option.some.inj hv]
    exact ⟨_, rfl, rfl, rfl⟩
  · exact ⟨u.2, hv, rfl, rfl⟩

/-! ### What a dispatch reads -/

/-- What a dispatch will read back from the snapshot. -/
theorem frozenDependencies_eq (h : s.References) :
    (s.frozenStore now v b resolve jobs upstreams).frozenDependencies b.id
      = upstreams.map Upstream.frozen := by
  unfold frozenDependencies
  rw [hf.dependenciesOf_eq h, if_pos rfl, List.filterMap_map, ← List.filterMap_eq_map]
  refine List.filterMap_congr fun u hu => ?_
  obtain ⟨hr, hv, hs⟩ := hf.upstream u hu
  obtain ⟨w, hw, hws, hwn⟩ := hf.upstream_version now hu
  have hr' : (s.frozenStore now v b resolve jobs upstreams).datasetSeries.get? u.1.id
      = some u.1 := hr
  simp [Upstream.dependency, hr', hw, hws, hs, hwn, Upstream.frozen]

theorem snapshotsOf_eq (h : s.Consistent) (id : Uuid) :
    (s.frozenStore now v b resolve jobs upstreams).snapshotsOf id
      = if v.id = id then [b] else s.snapshotsOf id := by
  refine (Table.select_insert hf.fresh).trans ?_
  split
  · rename_i he
    subst he
    -- A draft has no snapshot.
    have hnil : s.snapshotsOf v.id = [] := by
      have hb := (h.version _ v hf.version).build
      unfold Store.Build at hb
      rw [hf.draft] at hb
      exact hb.1
    rw [List.filter_cons_of_pos (by simp [hf.owner]), List.filter_nil]
    exact (congrArg (· ++ _) hnil).trans (List.nil_append _)
  · rename_i hne
    rw [List.filter_cons_of_neg (by simpa [hf.owner] using hne), List.filter_nil,
      List.append_nil]
    rfl

/-! ## The change -/

theorem grows (h : s.Consistent) :
    s.Grows (s.frozenStore now v b resolve jobs upstreams) :=
  { Grows.refl with
    versions := Table.grows_put (show s.datasetVersions.get? (v.building now).id = some v from
      hf.version) ⟨now, .building v hf.draft⟩
    jobs := by
      intro id j hj
      refine ⟨jobImage resolve v j, by rw [hf.job_get?, hj]; rfl, ?_⟩
      unfold jobImage
      split
      · rename_i hjv
        -- The jobs of a draft have resolved nothing.
        have hb := (h.version _ v hf.version).build
        unfold Store.Build at hb
        rw [hf.draft] at hb
        have hmem : j ∈ s.jobsOf v.id := hjv ▸ mem_jobsOf_of_get? hj
        exact .single (.resolved j _ (hb.2 j hmem).1)
      · exact .refl
    snapshots := fun id b' hb' => Table.get?_insert_of_some hb'
    jobsOf := by
      intro id _
      rw [hf.jobsOf_eq, List.map_map]
      refine List.map_congr_left fun j _ => ?_
      obtain ⟨hid, -, htype, -⟩ : (jobImage resolve v j).id = j.id ∧ _ := jobImage_columns j
      simp [jobKey, hid, htype]
    snapshotsOf := by
      intro id hne
      rw [hf.snapshotsOf_eq h]
      split
      · rename_i he
        -- Nothing was frozen of a draft, so no snapshot is replaced.
        have hb := (h.version _ v hf.version).build
        unfold Store.Build at hb
        rw [hf.draft] at hb
        exact absurd hb.1 (he ▸ hne)
      · rfl
    dependenciesOf := by
      intro id hne
      rw [hf.dependenciesOf_eq h.references, if_neg]
      exact fun e => hne (e ▸ hf.fresh) }

/-! ### The build is frozen -/

theorem frozen (h : s.Consistent) :
    (s.frozenStore now v b resolve jobs upstreams).Frozen v.id := by
  refine ⟨b, by rw [hf.snapshotsOf_eq h, if_pos rfl], fun j' hj' => ?_⟩
  rw [hf.jobsOf_eq] at hj'
  obtain ⟨j, hj, rfl⟩ := List.mem_map.mp hj'
  -- Each job has resolved to the definition of its type, whose domains are covered.
  obtain ⟨d, hid, hd, hp, htype, hcov⟩ := hf.resolved j ((hf.jobs_iff j).mpr hj)
  have himage : jobImage resolve v j = j.resolveTo resolve := if_pos (mem_jobsOf.mp hj).2
  rw [himage]
  refine ⟨d, by rw [hid]; rfl, hd, hp, htype, fun domain hdomain => ?_⟩
  obtain ⟨u, hu, rfl⟩ := hcov domain hdomain
  refine ⟨u.frozen, ?_⟩
  rw [hf.frozenDependencies_eq h.references, List.filter_map]
  -- One upstream for each domain.
  have hone : upstreams.filter (fun u' => u'.1.identity.domain = u.1.identity.domain) = [u] := by
    have hnodup := hf.domains_nodup
    clear hf hcov hdomain hd himage hj' hj
    induction upstreams with
    | nil => cases hu
    | cons w ws ih =>
        rw [List.map_cons, List.nodup_cons] at hnodup
        rcases List.mem_cons.mp hu with rfl | hu
        · rw [List.filter_cons_of_pos (by simp), List.filter_eq_nil_iff.mpr]
          intro u' hu' he
          rw [decide_eq_true_eq] at he
          exact hnodup.1 (he ▸ List.mem_map_of_mem hu')
        · rw [List.filter_cons_of_neg, ih hu hnodup.2]
          intro he
          rw [decide_eq_true_eq] at he
          exact hnodup.1 (List.mem_map.mpr ⟨u, hu, he.symm⟩)
  exact congrArg (List.map Upstream.frozen) hone

end Freezing

/-! ### The freeze as a change -/

theorem Change.freeze (h : s.Consistent) {now : Time} {v : DatasetVersion}
    {b : DatasetBuildSnapshot} {resolve : Uuid → Uuid} {jobs : List CalculationJob}
    {upstreams : List Upstream} (hf : s.Freezing v b resolve jobs upstreams)
    (hL : Row.Held (.datasetVersion v.id) L) (hL' : Row.Held (.datasetBuildSnapshot b.id) L)
    (hjobs : ∀ j ∈ jobs, Row.Held (.calculationJob j.id) L) :
    s.Change now L ((freezing now v b resolve jobs upstreams).foldl Store.apply s) := by
  rw [foldl_freezing]
  have hg : s.Grows (s.frozenStore now v b resolve jobs upstreams) := hf.grows h
  have hok := h.version _ v hf.version
  have hseries : (s.apply (.putDatasetVersion (v.building now))).SeriesOk :=
    h.series.put hf.version ⟨now, .building v hf.draft⟩
  refine ⟨⟨?_, ⟨hseries.numbered, hseries.identity, hseries.number, hseries.active⟩, ?_, ?_⟩,
    hg, ?_, ?_⟩
  · refine h.references.grows hg ?_ ?_ ?_ ?_ ?_
    · exact fun id' v h₁ h₂ => Table.no_row (Table.get?_put_eq_none.mpr h₁) h₂
    · -- No new jobs, only resolutions of those that are there.
      intro id j h₁ h₂
      rw [hf.job_get?, h₁] at h₂
      cases h₂
    · exact fun id' v h₁ h₂ => Table.no_row h₁ h₂
    · intro id b' h₁ h₂
      have h₂ := (Table.get?_insert hf.fresh).symm.trans h₂
      split at h₂
      · cases h₂
        rw [hf.owner, hf.version_get?, if_pos rfl]
        exact Option.some_ne_none _
      · exact Table.no_row h₁ h₂
    · intro id d h₁ h₂
      -- The new dependencies are those of the upstreams.
      have hd : d ∈ upstreams.map (Upstream.dependency b.id) := by
        have h₂ := (Table.get?_foldl_insert hf.dependency_nodup
          (hf.dependency_fresh h.references)).symm.trans h₂
        rw [h₁, Option.none_or] at h₂
        exact List.mem_of_find?_eq_some h₂
      obtain ⟨u, hu, rfl⟩ := List.mem_map.mp hd
      obtain ⟨hr, hw, hs⟩ := hf.upstream u hu
      refine ⟨?_, u.1, ?_⟩
      · exact Table.row_ne_none ((Table.get?_insert hf.fresh).trans (if_pos rfl))
      · obtain ⟨w, hw', hws, -⟩ := hf.upstream_version now hu
        exact ⟨w, hr, hw', hws.trans hs⟩
  · intro id j' hj'
    rw [hf.job_get?, Option.map_eq_some_iff] at hj'
    obtain ⟨j, hj, rfl⟩ := hj'
    -- The status of a job is not touched, nor are its attempts.
    rw [(Freezing.jobImage_columns j).2.2.2]
    exact h.history id j hj
  · intro id w hw
    rw [hf.version_get?] at hw
    split at hw
    · cases hw
      -- The version enters `BUILDING` with its timestamp, and what it has is frozen.
      refine ⟨?_, ?_, ?_⟩
      · have ht := hok.timed
        have hv := ht.validating
        have hp := ht.published
        have hr := ht.rejected
        have ha := ht.abandoned
        rw [hf.draft] at hv hp hr ha
        exact ⟨fun hd => (by cases hd), fun _ => rfl,
          by simpa [DatasetVersion.building, DatasetVersionStatus.phase] using hv,
          by simpa [DatasetVersion.building] using hp,
          by simpa [DatasetVersion.building] using hr,
          by simpa [DatasetVersion.building] using ha⟩
      · show (s.frozenStore now v b resolve jobs upstreams).jobsOf v.id ≠ []
        rw [hf.jobsOf_eq, ne_eq, List.map_eq_nil_iff]
        exact hok.jobs
      · exact hf.frozen h
    · rename_i hne
      -- Snapshots and jobs of the other versions are as they were.
      have hid : w.id = id := Table.get?_key hw
      have hne' : w.id ≠ v.id := fun e => hne (e.symm.trans hid)
      refine (h.version id w hw).grows h.references hg (hid.symm ▸ Table.row_ne_none hw) ?_
      refine fun _ => ⟨?_, hf.jobsOf_other hne', fun _ _ => rfl⟩
      rw [hf.snapshotsOf_eq h, if_neg hne'.symm]
  · intro row hr
    cases row with
    | datasetSeries id =>
        -- Active before and after, so the series does not see the freeze.
        refine ⟨rfl, Table.map_select_put fun w hw => ?_⟩
        obtain rfl := Option.some.inj (hf.version.symm.trans hw)
        refine ⟨?_, rfl⟩
        simp [DatasetVersion.visible, DatasetVersion.building, hf.draft,
          DatasetVersionStatus.isActive]
    | datasetVersion id =>
        have hne : v.id ≠ id := fun e => hr (e ▸ hL)
        refine ⟨?_, ?_, ?_⟩
        · rw [hf.version_get?, if_neg hne]
        · rw [hf.snapshotsOf_eq h, if_neg hne]
        · rw [hf.jobsOf_other (Ne.symm hne)]
    | calculationJob id =>
        -- The jobs of the version are locked, so this is none of them.
        have hne : ∀ j, s.calculationJobs.get? id = some j → j.outputDatasetVersionId ≠ v.id := by
          intro j hj he
          have hmem : j ∈ jobs := (hf.jobs_iff j).mpr (he ▸ mem_jobsOf_of_get? hj)
          exact hr (Table.get?_key hj ▸ hjobs j hmem)
        have hget : (s.frozenStore now v b resolve jobs upstreams).calculationJobs.get? id
            = s.calculationJobs.get? id := by
          rw [hf.job_get?]
          cases hj : s.calculationJobs.get? id with
          | none => rfl
          | some j => exact congrArg some (if_neg (hne j hj))
        refine ⟨hget, rfl, ?_⟩
        unfold phaseOf?
        rw [hget]
        cases hj : s.calculationJobs.get? id with
        | none => rfl
        | some j =>
            show ((s.frozenStore now v b resolve jobs upstreams).datasetVersions.get? _).bind _
              = (s.datasetVersions.get? j.outputDatasetVersionId).bind _
            rw [hf.version_get?, if_neg (Ne.symm (hne j hj))]
    | datasetBuildSnapshot id =>
        have hne : b.id ≠ id := fun e => hr (e ▸ hL')
        refine ⟨(Table.get?_insert hf.fresh).trans (if_neg hne), ?_⟩
        rw [hf.dependenciesOf_eq h.references, if_neg hne]
    | _ => trivial
  · refine ⟨Single.refl.attempts, fun id w hw => ?_, Single.refl.newAttempts,
      fun id w hn hw => Table.no_row (Table.get?_put_eq_none.mpr hn) hw⟩
    rw [hf.version_get?]
    split
    · rename_i he
      subst he
      obtain rfl := Option.some.inj (hf.version.symm.trans hw)
      exact ⟨_, rfl, .inr (.building v hf.draft)⟩
    · exact ⟨w, hw, .inl rfl⟩

end Store

end CostEngine
