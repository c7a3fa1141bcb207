import CostEngine.Invariant.Freezing
import CostEngine.Transaction.Resolving

/-! # First Run: the freeze

`freezeDraftBuild` under the lock of a `DRAFT` version writes what `Store.freezing` lists,
in that order. The lock of the version keeps every job of it unresolved until the
transaction gets to it. -/

namespace CostEngine

open Relational (Table)
open Concurrency (Outcome Txn Discipline)

/-! ## What the freeze leaves behind -/

namespace Store

/-! ### Latest definitions and versions -/

/-- One of the version's jobs has resolved to a definition that requires the domain. -/
def Requires (s : Store) (datasetVersionId : Uuid) (domain : String) : Prop :=
  ∃ j ∈ s.jobsOf datasetVersionId, ∃ d,
    j.resolvedDependencyDefinitionVersionId = some d ∧ domain ∈ s.requiredDomainsOf d

/-- Definitions and upstream versions are the latest, and the snapshot has one row for
each required domain and no other. -/
structure FrozenLatest (s : Store) (datasetVersionId : Uuid) (b : DatasetBuildSnapshot)
    (output : SeriesIdentity) : Prop where
  snapshot : s.snapshotsOf datasetVersionId = [b]
  definitions : ∀ j ∈ s.jobsOf datasetVersionId, ∃ d,
    j.resolvedDependencyDefinitionVersionId = some d.id
      ∧ s.LatestDefinition j.calculationTypeId d
  rows : ∀ row ∈ s.dependenciesOf b.id, ∃ r,
    s.datasetSeries.get? row.upstreamDatasetSeriesId = some r
      ∧ r.identity = { output with domain := r.identity.domain }
      ∧ s.Requires datasetVersionId r.identity.domain
      ∧ s.LatestVersion row.upstreamDatasetSeriesId row.upstreamDatasetVersionId
  domains : ∀ domain, s.Requires datasetVersionId domain →
    ∃! row, row ∈ s.dependenciesOf b.id ∧ ∃ r,
      s.datasetSeries.get? row.upstreamDatasetSeriesId = some r ∧ r.identity.domain = domain

variable {s : Store} {now : Time} {v : DatasetVersion} {b : DatasetBuildSnapshot}
variable {resolve : Uuid → Uuid} {jobs : List CalculationJob} {upstreams : List Upstream}

/-- The freeze does not touch published versions. -/
theorem Freezing.latestVersion (hf : s.Freezing v b resolve jobs upstreams)
    {datasetSeriesId id : Uuid} (h : s.LatestVersion datasetSeriesId id) :
    (s.frozenStore now v b resolve jobs upstreams).LatestVersion datasetSeriesId id := by
  obtain ⟨w, hw, hseries, hp, hmax⟩ := h
  -- The version that is frozen is a draft, and the latest one is published.
  have hne : v.id ≠ id := by
    intro he
    rw [← he, hf.version] at hw
    rw [← Option.some.inj hw, hf.draft] at hp
    cases hp
  refine ⟨w, by rw [hf.version_get?, if_neg hne, hw], hseries, hp, fun w' hw' hp' => ?_⟩
  obtain ⟨hget, hs⟩ := mem_versionsOf.mp hw'
  rw [hf.version_get?] at hget
  -- The other versions of the series keep their rows.
  split at hget
  · rw [← Option.some.inj hget] at hp'
    cases hp'
  · exact hmax w' (mem_versionsOf.mpr ⟨hget, hs⟩) hp'

theorem Freezing.requires_iff (hf : s.Freezing v b resolve jobs upstreams) {domain : String} :
    (s.frozenStore now v b resolve jobs upstreams).Requires v.id domain ↔
      ∃ j ∈ jobs, domain ∈ s.requiredDomainsOf (resolve j.calculationTypeId) := by
  unfold Requires
  rw [hf.jobsOf_eq]
  constructor
  · rintro ⟨j', hj', d, hd, hdomain⟩
    -- The jobs of the version are those resolved by the freeze, and no other.
    obtain ⟨j, hj, rfl⟩ := List.mem_map.mp hj'
    rw [show jobImage resolve v j = j.resolveTo resolve from if_pos (mem_jobsOf.mp hj).2] at hd
    refine ⟨j, (hf.jobs_iff j).mpr hj, ?_⟩
    rw [Option.some.inj hd]
    exact hdomain
  · rintro ⟨j, hj, hdomain⟩
    have hj := (hf.jobs_iff j).mp hj
    refine ⟨_, List.mem_map_of_mem hj, resolve j.calculationTypeId, ?_, hdomain⟩
    rw [show jobImage resolve v j = j.resolveTo resolve from if_pos (mem_jobsOf.mp hj).2]
    rfl

/-- Latest before the freeze is latest after it. -/
theorem Freezing.frozenLatest (hf : s.Freezing v b resolve jobs upstreams) (h : s.Consistent)
    {output : SeriesIdentity}
    (hdefinitions : ∀ j ∈ jobs, ∃ d, d.id = resolve j.calculationTypeId
      ∧ s.LatestDefinition j.calculationTypeId d)
    (hupstreams : ∀ u ∈ upstreams, u.1.identity = { output with domain := u.1.identity.domain }
      ∧ (∃ j ∈ jobs, u.1.identity.domain ∈ s.requiredDomainsOf (resolve j.calculationTypeId))
      ∧ s.LatestVersion u.1.id u.2.id) :
    (s.frozenStore now v b resolve jobs upstreams).FrozenLatest v.id b output := by
  have hrows : (s.frozenStore now v b resolve jobs upstreams).dependenciesOf b.id = _ :=
    hf.dependenciesOf_eq h.references b.id
  -- The rows of the snapshot are the upstreams that were locked.
  rw [if_pos rfl] at hrows
  refine ⟨?_, ?_, ?_, ?_⟩
  · rw [hf.snapshotsOf_eq h, if_pos rfl]
  · intro j' hj'
    rw [hf.jobsOf_eq] at hj'
    obtain ⟨j, hj, rfl⟩ := List.mem_map.mp hj'
    obtain ⟨d, hid, hd⟩ := hdefinitions j ((hf.jobs_iff j).mpr hj)
    rw [show jobImage resolve v j = j.resolveTo resolve from if_pos (mem_jobsOf.mp hj).2]
    exact ⟨d, congrArg some hid.symm, hd.row, hd.type, hd.published, hd.highest⟩
  · intro row hrow
    rw [hrows] at hrow
    obtain ⟨u, hu, rfl⟩ := List.mem_map.mp hrow
    obtain ⟨hident, hreq, hlatest⟩ := hupstreams u hu
    exact ⟨u.1, (hf.upstream u hu).1, hident, hf.requires_iff.mpr hreq, hf.latestVersion hlatest⟩
  · intro domain hdomain
    obtain ⟨j, hj, hdomain⟩ := hf.requires_iff.mp hdomain
    obtain ⟨d, hid, -, -, -, hcov⟩ := hf.resolved j hj
    obtain ⟨u, hu, rfl⟩ := hcov domain (hid ▸ hdomain)
    refine ⟨u.dependency b.id, ⟨?_, u.1, (hf.upstream u hu).1, rfl⟩, ?_⟩
    · rw [hrows]
      -- One upstream was found for each domain that is required.
      exact List.mem_map_of_mem hu
    · rintro row ⟨hrow, r, hr, hrd⟩
      rw [hrows] at hrow
      -- Two rows of one domain would be two upstreams of one domain.
      obtain ⟨u', hu', rfl⟩ := List.mem_map.mp hrow
      have hr : s.datasetSeries.get? u'.1.id = some r := hr
      obtain rfl := Option.some.inj ((hf.upstream u' hu').1.symm.trans hr)
      rw [List.inj_on_of_nodup_map hf.domains_nodup hu' hu hrd]

end Store

variable {honours : Prop} {g fl : Moment} {L : List RowLock} {ws : List Write}
variable {env : TxEnv}

/-! ## The definitions -/

/-! ### The jobs of a locked version -/

/-- Under the lock of the version, its jobs have resolved what they have in the end. -/
theorem later_resolved {g₁ : Moment} {v : Uuid} {j : CalculationJob}
    (hl : (discipline honours).Later L g₁ g) (hheld : Row.Held (.datasetVersion v) L)
    (hj : j ∈ g.db.jobsOf v) : ∃ j₁, g₁.db.calculationJobs.get? j.id = some j₁
      ∧ j₁.outputDatasetVersionId = v ∧ j₁.calculationTypeId = j.calculationTypeId
      ∧ j₁.resolvedDependencyDefinitionVersionId = j.resolvedDependencyDefinitionVersionId := by
  have hjobs := (later_same hl hheld).2.2
  have hkey : j.frozen ∈ (g₁.db.jobsOf v).map CalculationJob.frozen :=
    hjobs ▸ List.mem_map_of_mem hj
  obtain ⟨j₁, hj₁, he⟩ := List.mem_map.mp hkey
  obtain ⟨hget, hv⟩ := Store.mem_jobsOf.mp hj₁
  have he : j₁.id = j.id ∧ j₁.calculationTypeId = j.calculationTypeId
      ∧ j₁.resolvedDependencyDefinitionVersionId = j.resolvedDependencyDefinitionVersionId := by
    simpa [CalculationJob.frozen] using he
  exact ⟨j₁, he.1 ▸ hget, hv, he.2⟩

/-! ### `persistResolvedDependencyDefinition` -/

theorem wp_persistResolvedDependencyDefinition {v definitionId : Uuid} {j : CalculationJob}
    {post : Ended Bool → Prop} (hheld : Row.Held (.datasetVersion v) L)
    (hj : j ∈ g.db.jobsOf v) (hres : j.resolvedDependencyDefinitionVersionId = none)
    (hws : ∀ s : Store, (ws.foldl Store.apply s).calculationJobs.get? j.id
      = s.calculationJobs.get? j.id)
    (hpost : ∀ seen last, Moment.Grows fl last → Moment.Grows last g →
      post ⟨seen, last, .ok true, .keyShare (.dependencyDefinition definitionId) ::
        .noKeyUpdate (.calculationJob j.id) :: L, ws ++ [.putCalculationJob
          { j with resolvedDependencyDefinitionVersionId := some definitionId }]⟩) :
    (discipline honours).Wp g fl L ws (persistResolvedDependencyDefinition v j.id
      j.calculationTypeId definitionId) post := by
  obtain ⟨hget, hv⟩ := Store.mem_jobsOf.mp hj
  have hview : (ws.foldl Store.apply g.db).calculationJobs.get? j.id = some j :=
    (hws g.db).trans hget
  have hfind : ((ws.foldl Store.apply g.db).calculationJobs.get? j.id).filter (fun cj =>
      cj.outputDatasetVersionId = v ∧ cj.calculationTypeId = j.calculationTypeId
        ∧ cj.resolvedDependencyDefinitionVersionId = none) = some j := by
    rw [hview]
    simp [Option.filter, hv, hres]
  refine Discipline.wp_bind (Discipline.wp_updateReturning ?_ ?_ ?_ ?_)
  · intro g₁ hl
    exact congrArg (Option.filter _) (view_job (later_same hl Row.held_noKeyUpdate).1 ws).symm
  · intro g₁ _ _ hl hn
    -- The job was not resolved before, and nobody else resolves it under this lock.
    obtain ⟨j₁, hj₁, hv₁, htype₁, hres₁⟩ := later_resolved hl hheld hj
    have hrow : ((machine honours).view g₁.db ws).calculationJobs.get? j.id = some j₁ :=
      (hws g₁.db).trans hj₁
    simp [hrow, Option.filter, hv₁, htype₁, hres₁, hres] at hn
  · intro seen last _ _ hn
    exact Table.no_row hn hfind
  · intro seen last row hle hl hr
    obtain rfl := Option.some.inj (hfind.symm.trans hr)
    rw [Discipline.continues_ok]
    refine Discipline.wp_bind (Discipline.wp_lock fun g₂ hle₂ hl₂ => ?_)
    rw [Discipline.continues_ok]
    exact Discipline.wp_pure (hpost _ g₂ (Moment.Grows.trans hle hle₂) hl₂.le)

/-! ### The loop over the jobs -/

/-- The definition that a type resolves to. -/
def resolveIn (definitions : List DependencyDefinition) (calculationTypeId : Uuid) : Uuid :=
  ((definitions.find? fun d => d.calculationTypeId = calculationTypeId).map (·.id)).getD ""

/-- The writes for the jobs resolved so far. -/
def resolutions (definitions : List DependencyDefinition) (jobs : List CalculationJob) :
    List Write :=
  jobs.map fun j => .putCalculationJob (j.resolveTo (resolveIn definitions))

theorem resolutions_get? {definitions : List DependencyDefinition}
    {done : List CalculationJob} {id : Uuid} (hid : id ∉ done.map (·.id)) (s : Store) :
    ((resolutions definitions done).foldl Store.apply s).calculationJobs.get? id
      = s.calculationJobs.get? id := by
  induction done generalizing s with
  | nil => rfl
  | cons j done ih =>
      -- Each resolution writes the row of its own job.
      rw [List.map_cons, List.mem_cons, not_or] at hid
      exact (ih hid.2 _).trans (Table.get?_put.trans (if_neg fun he => hid.1 he.symm))

/-- The loop: the jobs `done` are resolved, those of `contexts` still to do. -/
theorem wp_freezeDefinitions {v : Uuid} {definitions : List DependencyDefinition}
    {contexts : List DatasetCalculationJobContext} {jobs done : List CalculationJob}
    {post : Ended Unit → Prop} (hle : Moment.Grows fl g)
    (hheld : Row.Held (.datasetVersion v) L)
    (hdone : ∀ j ∈ done, Row.Held (.calculationJob j.id) L)
    (hrows : List.Forall₂ (fun context j => context.id = j.id
      ∧ context.calculationTypeId = j.calculationTypeId ∧ j ∈ g.db.jobsOf v
      ∧ j.resolvedDependencyDefinitionVersionId = none
      ∧ ∃ d ∈ definitions, d.calculationTypeId = j.calculationTypeId) contexts jobs)
    (hnodup : ((done ++ jobs).map (·.id)).Nodup)
    (hpost : ∀ seen last L', Moment.Grows fl last → Moment.Grows last g →
      (∀ r : Row, r.Held L → r.Held L') →
      (∀ j ∈ done ++ jobs, Row.Held (.calculationJob j.id) L') →
      post ⟨seen, last, .ok (), L', resolutions definitions (done ++ jobs)⟩) :
    (discipline honours).Wp g fl L (resolutions definitions done)
      (freezeDefinitions v definitions contexts) post := by
  induction hrows generalizing fl L done post with
  | nil =>
      rw [List.append_nil] at hpost
      exact Discipline.wp_pure (hpost _ _ L .refl hle (fun _ h => h) hdone)
  | @cons context j contexts jobs hrow hrows ih =>
      obtain ⟨hid, htype, hj, hres, d, hd, hdtype⟩ := hrow
      cases hfind : definitions.find? fun d => d.calculationTypeId = j.calculationTypeId with
      -- Every job has a definition to resolve to: the caller has found one for each type.
      | none =>
          have := List.find?_eq_none.mp hfind d hd
          simp [hdtype] at this
      | some d' =>
          have hresolve : resolveIn definitions j.calculationTypeId = d'.id := by
            simp [resolveIn, hfind]
          -- The job is not one of those resolved so far.
          have hnew : j.id ∉ done.map (·.id) := by
            rw [List.map_append, List.map_cons, List.nodup_append] at hnodup
            exact fun h => hnodup.2.2 _ h _ List.mem_cons_self rfl
          unfold freezeDefinitions
          rw [htype, hfind, hid]
          refine Discipline.wp_bind (wp_persistResolvedDependencyDefinition hheld hj hres
            (resolutions_get? hnew) fun seen last hle₁ hg₁ => ?_)
          rw [Discipline.continues_ok, if_pos rfl]
          have hwrites : resolutions definitions done ++ [.putCalculationJob
              { j with resolvedDependencyDefinitionVersionId := some d'.id }]
              = resolutions definitions (done ++ [j]) := by
            simp [resolutions, CalculationJob.resolveTo, hresolve]
          rw [hwrites]
          refine ih hg₁ hheld.cons.cons ?_ ?_ ?_
          · -- The job resolved here joins those that are done.
            intro j' hj'
            rcases List.mem_append.mp hj' with hj' | hj'
            · exact (hdone j' hj').cons.cons
            · rw [List.mem_singleton.mp hj']
              exact Row.held_noKeyUpdate.cons
          · rwa [List.append_assoc, List.singleton_append]
          · intro seen₂ last₂ L' hle₂ hg₂ hL hjobs
            rw [List.append_assoc, List.singleton_append] at hjobs ⊢
            exact hpost _ last₂ L' (hle₁.trans hle₂) hg₂ (fun r hr => hL r hr.cons.cons) hjobs

/-! ## The snapshot -/

theorem wp_insertDatasetBuildSnapshot {v snapshotId : Uuid} {post : Ended Unit → Prop}
    (hheld : Row.Held (.datasetVersion v) L) (hnone : g.db.snapshotsOf v = [])
    (hws : ∀ s : Store,
      (ws.foldl Store.apply s).datasetBuildSnapshots = s.datasetBuildSnapshots)
    (htaken : ∀ seen last L',
      post ⟨seen, last, .error (.uniqueViolation "dataset_build_snapshots_pkey"), L', ws⟩)
    (hpost : ∀ seen last, Moment.Grows fl last → Moment.Grows last g →
      g.db.datasetBuildSnapshots.get? snapshotId = none →
      post ⟨seen, last, .ok (), .keyShare (.datasetVersion v) ::
        .forUpdate (.datasetBuildSnapshot snapshotId) :: L,
        ws ++ [.insertDatasetBuildSnapshot ⟨snapshotId, v, env.now⟩]⟩) :
    (discipline honours).Wp g fl L ws (insertDatasetBuildSnapshot env snapshotId v) post := by
  have hrows : ∀ g₁ : Moment, ((machine honours).view g₁.db ws).datasetBuildSnapshots
      = g₁.db.datasetBuildSnapshots := fun g₁ => hws g₁.db
  refine Discipline.wp_bind (Discipline.wp_insertRow ?_ ?_)
  · intro e g₁ _ _ hl hviol
    have hempty : ((machine honours).view g₁.db ws).snapshotsOf v = [] := by
      rw [← hnone, (later_same hl hheld.cons).2.1]
      exact congrArg (Table.select · _) (hws g₁.db)
    rw [hempty, if_neg (c := ([] : List DatasetBuildSnapshot) ≠ []) (by simp)] at hviol
    split at hviol
    · cases hviol
      exact htaken _ _ _
    · cases hviol
  · intro g₁ hle₁ _ hl hviol
    rw [Discipline.continues_ok]
    refine Discipline.wp_lock fun g₂ hle₂ hl₂ => ?_
    refine hpost _ g₂ (Moment.Grows.trans hle₁ hle₂) hl₂.le ?_
    rw [(later_same hl Row.held_forUpdate).1]
    rw [hrows g₁] at hviol
    by_contra hne
    rw [if_pos (Option.isSome_iff_ne_none.mpr hne)] at hviol
    cases hviol

/-- The writes for the upstream versions frozen so far. -/
def dependencies (snapshotId : Uuid) (upstreams : List Upstream) : List Write :=
  upstreams.map fun u => .insertSnapshotDependency (u.dependency snapshotId)

theorem wp_freezeUpstreams {snapshotId : Uuid} {versions : List PublishedUpstreamVersion}
    {series : List DatasetSeries} {upstreams : List Upstream} {post : Ended Unit → Prop}
    (hle : Moment.Grows fl g)
    (hrows : List.Forall₂ (fun r (u : Upstream) => u.1 = r ∧ ∃ p,
      versions.find? (fun v => v.datasetSeriesId = r.id) = some p ∧ u.2.id = p.datasetVersionId)
      series upstreams)
    (htaken : ∀ seen last L' ws', post ⟨seen, last,
      .error (.uniqueViolation "dataset_build_snapshot_dependencies_pkey"), L', ws'⟩)
    (hpost : ∀ seen last L', Moment.Grows fl last → Moment.Grows last g →
      (∀ r : Row, r.Held L → r.Held L') →
      post ⟨seen, last, .ok (), L', ws ++ dependencies snapshotId upstreams⟩) :
    (discipline honours).Wp g fl L ws (freezeUpstreams snapshotId versions series) post := by
  induction hrows generalizing fl L ws post with
  | nil =>
      refine Discipline.wp_pure ?_
      have := hpost [] fl L .refl hle fun _ h => h
      rwa [show dependencies snapshotId [] = [] from rfl, List.append_nil] at this
  | @cons r u series upstreams hrow hrows ih =>
      obtain ⟨rfl, p, hfind, hid⟩ := hrow
      unfold freezeUpstreams
      rw [hfind]
      refine Discipline.wp_bind (Discipline.wp_bind (Discipline.wp_insertRow ?_ ?_))
      · intro e g₁ _ _ _ hviol
        split at hviol
        · cases hviol
          exact htaken _ _ _ _
        · cases hviol
      · intro g₁ hle₁ _ _ _
        rw [Discipline.continues_ok]
        refine Discipline.wp_lock fun g₂ hle₂ hl₂ => ?_
        show (discipline honours).Wp _ _ _ _ (freezeUpstreams snapshotId versions series) _
        refine ih hl₂.le (fun seen last L' ws' => htaken _ _ _ _) ?_
        intro seen₃ last₃ L' hle₃ hg₃ hL
        have := hpost ([g₁] ++ [] ++ seen₃) last₃ L' (Moment.Grows.trans hle₁
          (Moment.Grows.trans hle₂ hle₃)) hg₃ fun r hr => hL r hr.cons.cons
        have hwrites : ws ++ dependencies snapshotId (u :: upstreams)
            = ws ++ [.insertSnapshotDependency (u.dependency snapshotId)]
              ++ dependencies snapshotId upstreams := by
          simp [dependencies]
        rw [hwrites] at this
        rw [← hid]
        exact this

/-- The last write of the freeze. -/
theorem wp_transitionDatasetVersionToBuilding {v : DatasetVersion} {post : Ended Bool → Prop}
    (hheld : Row.Held (.datasetVersion v.id) L)
    (hv : g.db.datasetVersions.get? v.id = some v) (hdraft : v.status = .draft)
    (hws : ∀ s : Store, (ws.foldl Store.apply s).datasetVersions = s.datasetVersions)
    (hpost : ∀ seen last, Moment.Grows fl last → Moment.Grows last g →
      post ⟨seen, last, .ok true, .noKeyUpdate (.datasetVersion v.id) :: L,
        ws ++ [.putDatasetVersion (v.building env.now)]⟩) :
    (discipline honours).Wp g fl L ws (transitionDatasetVersionToBuilding env v.id) post := by
  have hfind : ∀ g₁, (discipline honours).Later L g₁ g →
      ((ws.foldl Store.apply g₁.db).datasetVersions.get? v.id).filter (·.status = .draft)
        = some v := by
    intro g₁ hl
    rw [hws, ← (later_same hl hheld).1, hv]
    simp [Option.filter, hdraft]
  have hfind' : ((ws.foldl Store.apply g.db).datasetVersions.get? v.id).filter
      (·.status = .draft) = some v := by
    rw [hws, hv]
    simp [Option.filter, hdraft]
  refine Discipline.wp_bind (Discipline.wp_updateReturning ?_ ?_ ?_ ?_)
  · intro g₁ hl
    exact (hfind g₁ (hl.mono fun l hl => List.mem_cons_of_mem _ hl)).trans hfind'.symm
  · intro g₁ _ _ hl hn
    exact Table.no_row hn (hfind g₁ hl)
  · intro seen last _ _ hn
    exact Table.no_row hn hfind'
  · intro seen last row hle hl hr
    obtain rfl := Option.some.inj (hfind'.symm.trans hr)
    exact Discipline.wp_pure (hpost _ last hle hl.le)

end CostEngine
