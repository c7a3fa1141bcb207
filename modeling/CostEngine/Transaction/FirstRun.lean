import Mathlib.Data.List.Perm.Basic
import CostEngine.Transaction.Freezing
import CostEngine.Transaction.Retry

/-! # `prepareCalculationJobRun`

First Run. Whoever gets the lock of a `DRAFT` version first freezes it, from definitions and
upstream versions that are still the latest at the commit; everybody else finds it frozen.
Either way the selected job then gets an attempt. -/

namespace CostEngine

open Relational (Table)
open Concurrency (Outcome Txn Discipline)

variable {honours : Prop} {g fl : Moment} {L : List RowLock} {ws : List Write}
variable {env : TxEnv}

/-! ## The context of the Run -/

/-- The columns of a job and its type that `loadCalculationRunContext` lists. -/
def CalculationJob.asContext (j : CalculationJob) (ct : CalculationType) :
    DatasetCalculationJobContext where
  id := j.id
  status := j.status
  calculationTypeId := j.calculationTypeId
  calculationTypeDomain := ct.domain
  calculationTypeCode := ct.code

/-- The context names the job that is listed there. -/
def DatasetCalculationJobContext.Names (c : DatasetCalculationJobContext)
    (j : CalculationJob) : Prop := c.id = j.id ∧ c.calculationTypeId = j.calculationTypeId

namespace Store

variable {s s' : Store}

theorem mem_jobContexts {v : Uuid} {c : DatasetCalculationJobContext} :
    c ∈ s.jobContexts v ↔ ∃ j ∈ s.jobsOf v, ∃ ct,
      s.calculationTypes.get? j.calculationTypeId = some ct ∧ j.asContext ct = c := by
  unfold jobContexts
  simp only [mem_orderBy, List.mem_filterMap, Option.map_eq_some_iff]
  rfl

/-- The jobs that were listed, as they are later, in the order of the list. -/
theorem jobContexts_later (hs : s.Consistent) (hg : s.Grows s') {v : Uuid}
    (hv : s.datasetVersions.get? v ≠ none) : ∃ jobs : List CalculationJob,
      List.Forall₂ DatasetCalculationJobContext.Names (s.jobContexts v) jobs
        ∧ jobs.Perm (s'.jobsOf v) := by
  -- By induction on the list: it names the rows position by position.
  have hlisted : ∀ l l' : List CalculationJob, l'.map jobKey = l.map jobKey →
      (∀ j ∈ l, s.calculationTypes.get? j.calculationTypeId ≠ none) →
      List.Forall₂ DatasetCalculationJobContext.Names
        (l.filterMap fun j => (s.calculationTypes.get? j.calculationTypeId).map j.asContext)
        l' := by
    intro l
    induction l with
    | nil =>
        intro l' hl' _
        rw [List.map_nil, List.map_eq_nil_iff] at hl'
        rw [hl']
        exact .nil
    | cons j l ih =>
        intro l' hl' htypes
        cases l' with
        | nil => cases hl'
        | cons j' l' =>
            rw [List.map_cons, List.map_cons, List.cons.injEq] at hl'
            obtain ⟨hid, htype⟩ : j'.id = j.id ∧ j'.calculationTypeId = j.calculationTypeId := by
              simpa [jobKey] using hl'.1
            obtain ⟨ct, hct⟩ := Option.ne_none_iff_exists'.mp (htypes j List.mem_cons_self)
            rw [List.filterMap_cons, hct]
            exact .cons ⟨hid.symm, htype.symm⟩
              (ih l' hl'.2 fun k hk => htypes k (List.mem_cons_of_mem _ hk))
  have htypes : ∀ j ∈ s.jobsOf v, s.calculationTypes.get? j.calculationTypeId ≠ none := by
    intro j hj
    obtain ⟨-, -, ct, -, -, hct, -⟩ := hs.references.job _ j (mem_jobsOf.mp hj).1
    exact Table.row_ne_none hct
  exact List.perm_comp_forall₂ (orderBy_perm _ _) (hlisted _ _ (hg.jobsOf v hv) htypes)

end Store

/-! ### The two reads -/

/-- What the two reads find: the job and its version in `g₁`, the list of jobs in `g₂`. -/
structure Loaded (honours : Prop) (jobId : Uuid) (g₁ g₂ : Moment)
    (context : CalculationRunContext) (j : CalculationJob) (v : DatasetVersion)
    (r : DatasetSeries) : Prop where
  inv₁ : Invariant honours g₁
  inv₂ : Invariant honours g₂
  le : Moment.Grows g₁ g₂
  job : g₁.db.calculationJobs.get? jobId = some j
  version : g₁.db.datasetVersions.get? j.outputDatasetVersionId = some v
  series : g₁.db.datasetSeries.get? v.datasetSeriesId = some r
  context : context = {
    selectedJobId := j.id
    datasetVersionId := v.id
    datasetStatus := v.status
    outputIdentity := r.identity
    jobs := g₂.db.jobContexts v.id }

theorem wp_loadCalculationRunContext {jobId : Uuid}
    {post : Ended (Option CalculationRunContext) → Prop}
    (hnone : ∀ seen last, fl.db.calculationJobs.get? jobId = none →
      post ⟨seen, last, .ok none, L, []⟩)
    (hsome : ∀ seen g₁ g₂ context j v r, Moment.Grows fl g₁ → Moment.Grows g₂ g →
      Loaded honours jobId g₁ g₂ context j v r → post ⟨seen, g₂, .ok (some context), L, []⟩) :
    (discipline honours).Wp g fl L [] (loadCalculationRunContext jobId) post := by
  refine Discipline.wp_bind (Discipline.wp_select fun g₁ hle₁ hinv₁ _ => ?_)
  rw [Discipline.continues_ok, Concurrency.Machine.view_nil]
  cases hrow : g₁.db.jobRow? jobId with
  | none =>
      refine Discipline.wp_pure (hnone _ _ ?_)
      by_contra hne
      obtain ⟨j₀, hj₀⟩ := Option.ne_none_iff_exists'.mp hne
      obtain ⟨j, hj, -⟩ := hle₁.db.job hj₀
      -- References never dangle, so the join finds its three rows.
      obtain ⟨v, r, -, hv, hr, -⟩ := hinv₁.consistent.references.job _ j hj
      simp [Store.jobRow?, hj, hv, hr] at hrow
  | some row =>
      simp only [Store.jobRow?, Option.bind_eq_bind, Option.bind_eq_some_iff, Option.pure_def,
        Option.some.injEq] at hrow
      obtain ⟨j, hj, v, hv, r, hr, rfl⟩ := hrow
      refine Discipline.wp_bind (Discipline.wp_select fun g₂ hle₂ hinv₂ hl₂ => ?_)
      rw [Discipline.continues_ok, Concurrency.Machine.view_nil]
      exact Discipline.wp_pure
        (hsome _ g₁ g₂ _ j v r hle₁ hl₂.le ⟨hinv₁, hinv₂, hle₂, hj, hv, hr, rfl⟩)

/-! ### What the context says -/

namespace Loaded

variable {jobId : Uuid} {g₁ g₂ : Moment} {context : CalculationRunContext}
variable {j : CalculationJob} {v : DatasetVersion} {r : DatasetSeries}
variable (h : Loaded honours jobId g₁ g₂ context j v r)
include h

theorem selectedJobId : context.selectedJobId = jobId := by
  have hid : j.id = jobId := Table.get?_key h.job
  exact (congrArg (·.selectedJobId) h.context).trans hid

theorem datasetVersionId : context.datasetVersionId = j.outputDatasetVersionId := by
  have hid : v.id = j.outputDatasetVersionId := Table.get?_key h.version
  exact (congrArg (·.datasetVersionId) h.context).trans hid

theorem jobs : context.jobs = g₂.db.jobContexts context.datasetVersionId := by rw [h.context]

theorem version₂ : g₂.db.datasetVersions.get? context.datasetVersionId ≠ none := by
  obtain ⟨v', hv', -⟩ := h.le.db.version h.version
  rw [h.datasetVersionId]
  exact Table.row_ne_none hv'

theorem job₂ : ∃ j₂ ∈ g₂.db.jobsOf context.datasetVersionId, j₂.id = jobId := by
  obtain ⟨j', hj', hs⟩ := h.le.db.job h.job
  have hid : j'.id = jobId := Table.get?_key hj'
  refine ⟨j', Store.mem_jobsOf.mpr ⟨hid.symm ▸ hj', ?_⟩, hid⟩
  rw [h.datasetVersionId, (job_columns hs).2.1]

/-- The context of an existing job passes its validation. -/
theorem validate : validateImmutableContext context = none := by
  obtain ⟨j₂, hj₂, hid⟩ := h.job₂
  obtain ⟨-, -, ct, -, -, hct, -⟩ :=
    h.inv₂.consistent.references.job _ j₂ (Store.mem_jobsOf.mp hj₂).1
  have hmem : j₂.asContext ct ∈ context.jobs := by
    rw [h.jobs]
    exact Store.mem_jobContexts.mpr ⟨j₂, hj₂, ct, hct, rfl⟩
  have hselected : (context.jobs.any fun job => job.id = context.selectedJobId) = true :=
    List.any_eq_true.mpr ⟨_, hmem, by simp [CalculationJob.asContext, hid, h.selectedJobId]⟩
  -- The other jobs have types of the domain of the series, which is that of the context.
  have hdomains : (context.jobs.find? fun job =>
      job.calculationTypeDomain ≠ context.outputIdentity.domain) = none := by
    refine List.find?_eq_none.mpr fun c hc => ?_
    rw [h.jobs] at hc
    obtain ⟨j', hj', ct', hct', rfl⟩ := Store.mem_jobContexts.mp hc
    obtain ⟨hget, hjv⟩ := Store.mem_jobsOf.mp hj'
    obtain ⟨v', r', ct'', hv', hr', hct'', hdomain⟩ :=
      h.inv₂.consistent.references.job _ j' hget
    obtain rfl := Option.some.inj (hct'.symm.trans hct'')
    obtain ⟨v₂, hv₂, hsv⟩ := h.le.db.version h.version
    rw [hjv, h.datasetVersionId, hv₂] at hv'
    obtain rfl := Option.some.inj hv'
    obtain ⟨r₂, hr₂, hident⟩ := h.le.db.seriesRow h.series
    rw [(version_columns hsv).2.1, hr₂] at hr'
    obtain rfl := Option.some.inj hr'
    have hout : context.outputIdentity = r.identity := by rw [h.context]
    simp [CalculationJob.asContext, hdomain, hident, hout]
  unfold validateImmutableContext
  rw [if_neg (List.ne_nil_of_mem hmem), hselected, hdomains]
  rfl

/-- The types are those listed. -/
theorem types : ∀ job ∈ context.jobs, ∃ ct,
    g₂.db.calculationTypes.get? job.calculationTypeId = some ct
      ∧ ct.domain = job.calculationTypeDomain ∧ ct.code = job.calculationTypeCode := by
  intro c hc
  rw [h.jobs] at hc
  obtain ⟨j', -, ct, hct, rfl⟩ := Store.mem_jobContexts.mp hc
  exact ⟨ct, hct, rfl, rfl⟩

end Loaded

/-! ## The freeze -/

/-! ### What a freeze is -/

/-- The transaction has moved the version from `DRAFT` to `BUILDING`. -/
def Store.Freezes (s s' : Store) (datasetVersionId : Uuid) : Prop :=
  ∃ v v', s.datasetVersions.get? datasetVersionId = some v ∧ v.status = .draft
    ∧ s'.datasetVersions.get? datasetVersionId = some v' ∧ v'.status = .building

/-- What is frozen is the latest there is, in the series of the version's own output. -/
def Store.FreezesLatest (s s' : Store) : Prop :=
  ∀ id, s.Freezes s' id → ∃ v r b, s'.datasetVersions.get? id = some v
    ∧ s'.datasetSeries.get? v.datasetSeriesId = some r ∧ s'.FrozenLatest id b r.identity

theorem Store.freezesLatest_of_eq {s s' : Store} (h : s'.datasetVersions = s.datasetVersions) :
    s.FreezesLatest s' := by
  rintro id ⟨v, v', hv, hdraft, hv', hbuilding⟩
  rw [h, hv] at hv'
  rw [← Option.some.inj hv', hdraft] at hbuilding
  cases hbuilding

/-! ### An open version -/

/-- The version is being built, by the writes so far or before, and what else the rest of
the transaction needs to know of the writes. -/
structure Opened (honours : Prop) (jobId datasetVersionId : Uuid) (now : Time) (g : Moment)
    (snapshotId : Uuid) (L : List RowLock) (ws : List Write) : Prop where
  commit : Commit honours now L g (ws.foldl Store.apply g.db)
  attempts : ∀ s : Store, (ws.foldl Store.apply s).executionAttempts = s.executionAttempts
  version : (ws.foldl Store.apply g.db).Building datasetVersionId
  snapshot : ∃ b, (ws.foldl Store.apply g.db).snapshotsOf datasetVersionId = [b]
    ∧ b.id = snapshotId
  types : ∀ g₁ : Moment, Moment.Grows g₁ g → ∀ j₁,
    g₁.db.calculationJobs.get? jobId = some j₁ → ∃ j₂,
      (ws.foldl Store.apply g₁.db).calculationJobs.get? jobId = some j₂
        ∧ j₂.calculationTypeId = j₁.calculationTypeId
  latest : g.db.FreezesLatest (ws.foldl Store.apply g.db)
  moves : ∀ v, .putDatasetVersion v ∈ ws → v.id = datasetVersionId

/-! ### Errors -/

/-- The errors of First Run. -/
inductive PrepareFailure : ServiceError → Prop
  | calculationJobNotFound (jobId : Uuid) : PrepareFailure (.calculationJobNotFound jobId)
  | jobNotRunnable (jobId : Uuid) : PrepareFailure (.jobNotRunnable jobId)
  | definitionNotReady (codes : List String) :
      PrepareFailure (.dependencyDefinitionNotReady codes)
  | dependencyNotReady (domains : List String) : PrepareFailure (.dependencyNotReady domains)
  | uuidTaken (constraint : String) : constraint ∈ ["execution_attempts_pkey",
      "dataset_build_snapshots_pkey", "dataset_build_snapshot_dependencies_pkey"] →
      PrepareFailure (.uniqueViolation constraint)

/-! ### Reuse -/

/-- A version that is being built has nothing to resolve. -/
theorem wp_requireBuildingSnapshot {context : CalculationRunContext} {v : DatasetVersion}
    {post : Ended Uuid → Prop} (hinv : Invariant honours g)
    (hheld : Row.Held (.datasetVersion context.datasetVersionId) L)
    (hv : g.db.datasetVersions.get? context.datasetVersionId = some v)
    (hbuilding : v.status = .building)
    (hcount : context.jobs.length = (g.db.jobsOf context.datasetVersionId).length)
    (hpost : ∀ seen last snapshotId, Moment.Grows fl last → Moment.Grows last g →
      (∀ jobId now, Opened honours jobId context.datasetVersionId now g snapshotId L []) →
      post ⟨seen, last, .ok snapshotId, L, []⟩) :
    (discipline honours).Wp g fl L [] (requireBuildingSnapshot context) post := by
  have hid : v.id = context.datasetVersionId := Table.get?_key hv
  have hfrozen : g.db.Frozen context.datasetVersionId := by
    have hb := (hinv.consistent.version _ v hv).build
    unfold Store.Build at hb
    rw [hbuilding, hid] at hb
    exact hb
  obtain ⟨b, hb, hfreeze, hne⟩ := hinv.consistent.freezeState_of_frozen hv hfrozen
  refine Discipline.wp_bind (wp_readDatasetFreezeState hheld fun last hle hl => ?_)
  rw [Discipline.continues_ok, hfreeze]
  dsimp only
  rw [if_neg (by simp [hcount, hne])]
  refine Discipline.wp_pure (hpost _ last b.id hle hl.le fun jobId now => ?_)
  exact ⟨.refl hinv, fun _ => rfl, ⟨v, hv, hbuilding⟩, ⟨b, hb, rfl⟩,
    fun _ _ j₁ hj₁ => ⟨j₁, hj₁, rfl⟩, Store.freezesLatest_of_eq rfl, by simp⟩

/-! ### What has been resolved -/

/-- What `initializeOrReuseDraftDataset` has resolved when it gets to the freeze. -/
structure Prepared (g : Moment) (output : SeriesIdentity)
    (contexts : List DatasetCalculationJobContext) (definitions : List DependencyDefinition)
    (series : List DatasetSeries) (versions : List PublishedUpstreamVersion) : Prop where
  latest : definitions = g.db.latestPublishedDefinitions (contexts.map (·.calculationTypeId))
  all : ∀ c ∈ contexts, ∃ d ∈ definitions, d.calculationTypeId = c.calculationTypeId
  seriesRow : ∀ r ∈ series, g.db.datasetSeries.get? r.id = some r
  required : series.map (·.identity) = (g.db.requiredDomains (definitions.map (·.id))).map
    fun domain => { output with domain }
  latestVersion : ∀ p ∈ versions, g.db.LatestVersion p.datasetSeriesId p.datasetVersionId
  found : ∀ r ∈ series, ∃ p ∈ versions, p.datasetSeriesId = r.id

/-- The version found for a series is the one frozen of it. -/
def Pairs (versions : List PublishedUpstreamVersion) (r : DatasetSeries) (u : Upstream) : Prop :=
  u.1 = r ∧ ∃ p, versions.find? (fun v => v.datasetSeriesId = r.id) = some p
    ∧ u.2.id = p.datasetVersionId

namespace Prepared

variable {output : SeriesIdentity} {contexts : List DatasetCalculationJobContext}
variable {definitions : List DependencyDefinition} {series : List DatasetSeries}
variable {versions : List PublishedUpstreamVersion}
variable (h : Prepared g output contexts definitions series versions)
include h

/-- A type resolves to its latest definition. -/
theorem resolves {id : Uuid} (hid : ∃ d ∈ definitions, d.calculationTypeId = id) :
    ∃ d ∈ definitions, d.id = resolveIn definitions id ∧ g.db.LatestDefinition id d := by
  obtain ⟨d, hd, hdt⟩ := hid
  cases hfind : definitions.find? fun d => d.calculationTypeId = id with
  | none =>
      have := List.find?_eq_none.mp hfind d hd
      simp [hdt] at this
  | some d' =>
      have hd' := List.mem_of_find?_eq_some hfind
      have htype : d'.calculationTypeId = id := by simpa using List.find?_some hfind
      refine ⟨d', hd', by simp [resolveIn, hfind], ?_⟩
      rw [h.latest] at hd'
      exact htype ▸ Store.latestDefinition_of_eq (Store.mem_latestPublishedDefinitions hd').2

/-- A definition in the list is the one its type resolves to. -/
theorem resolve_eq {d : DependencyDefinition} (hd : d ∈ definitions) :
    resolveIn definitions d.calculationTypeId = d.id := by
  cases hfind : definitions.find? fun d' => d'.calculationTypeId = d.calculationTypeId with
  | none =>
      have := List.find?_eq_none.mp hfind d hd
      simp at this
  | some d' =>
      have hd' := List.mem_of_find?_eq_some hfind
      have htype : d'.calculationTypeId = d.calculationTypeId := by
        simpa using List.find?_some hfind
      rw [h.latest] at hd hd'
      have h₁ := (Store.mem_latestPublishedDefinitions hd).2
      have h₂ := (Store.mem_latestPublishedDefinitions hd').2
      rw [htype, h₁] at h₂
      unfold resolveIn
      rw [hfind, ← Option.some.inj h₂]
      rfl

theorem required_iff {domain : String} :
    domain ∈ g.db.requiredDomains (definitions.map (·.id)) ↔ ∃ c ∈ contexts,
      domain ∈ g.db.requiredDomainsOf (resolveIn definitions c.calculationTypeId) := by
  rw [Store.mem_requiredDomains]
  constructor
  · rintro ⟨id, hid, hdomain⟩
    obtain ⟨d, hd, rfl⟩ := List.mem_map.mp hid
    have hmem := hd
    rw [h.latest] at hmem
    obtain ⟨c, hc, hct⟩ := List.mem_map.mp (Store.mem_latestPublishedDefinitions hmem).1
    exact ⟨c, hc, by rw [hct, h.resolve_eq hd]; exact hdomain⟩
  · rintro ⟨c, hc, hdomain⟩
    obtain ⟨d, hd, hid, -⟩ := h.resolves (h.all c hc)
    exact ⟨d.id, List.mem_map_of_mem hd, hid ▸ hdomain⟩

/-- A series pairs with the row of the version found for it. -/
theorem pairs : ∃ upstreams : List Upstream, List.Forall₂ (Pairs versions) series upstreams
    ∧ ∀ u ∈ upstreams, u.1 ∈ series ∧ g.db.datasetVersions.get? u.2.id = some u.2
      ∧ u.2.datasetSeriesId = u.1.id ∧ g.db.LatestVersion u.1.id u.2.id := by
  -- By induction on the series.
  have hsub : ∀ rest : List DatasetSeries, (∀ r ∈ rest, r ∈ series) →
      ∃ upstreams : List Upstream, List.Forall₂ (Pairs versions) rest upstreams
        ∧ ∀ u ∈ upstreams, u.1 ∈ series ∧ g.db.datasetVersions.get? u.2.id = some u.2
          ∧ u.2.datasetSeriesId = u.1.id ∧ g.db.LatestVersion u.1.id u.2.id := by
    intro rest
    induction rest with
    | nil => exact fun _ => ⟨[], .nil, by simp⟩
    | cons r rest ih =>
        intro hrest
        obtain ⟨upstreams, hpairs, hall⟩ := ih fun r' hr' => hrest r' (List.mem_cons_of_mem _ hr')
        obtain ⟨p₀, hp₀, hpr₀⟩ := h.found r (hrest r List.mem_cons_self)
        cases hfind : versions.find? fun v => v.datasetSeriesId = r.id with
        | none =>
            have := List.find?_eq_none.mp hfind p₀ hp₀
            simp [hpr₀] at this
        | some p =>
            have hpr : p.datasetSeriesId = r.id := by simpa using List.find?_some hfind
            have hlatest := h.latestVersion p (List.mem_of_find?_eq_some hfind)
            have hrow := hlatest
            obtain ⟨w, hw, hws, -⟩ := hrow
            have hid : w.id = p.datasetVersionId := Table.get?_key hw
            refine ⟨(r, w) :: upstreams, .cons ⟨rfl, p, hfind, hid⟩ hpairs, ?_⟩
            intro u hu
            rcases List.mem_cons.mp hu with rfl | hu
            · refine ⟨hrest r List.mem_cons_self, hid.symm ▸ hw, hws.trans hpr, ?_⟩
              rw [hpr, ← hid] at hlatest
              exact hlatest
            · exact hall u hu
  exact hsub series fun _ hr => hr

end Prepared

/-! ### `freezeDraftBuild` -/

theorem wp_freezeDraftBuild {context : CalculationRunContext} {v : DatasetVersion}
    {definitions : List DependencyDefinition} {series : List DatasetSeries}
    {versions : List PublishedUpstreamVersion} {jobs : List CalculationJob}
    {upstreams : List Upstream} {post : Ended Uuid → Prop} (hinv : Invariant honours g)
    (hid : context.datasetVersionId = v.id) (hheld : Row.Held (.datasetVersion v.id) L)
    (hv : g.db.datasetVersions.get? v.id = some v) (hdraft : v.status = .draft)
    (hnames : List.Forall₂ DatasetCalculationJobContext.Names context.jobs jobs)
    (hperm : jobs.Perm (g.db.jobsOf v.id))
    (hdefinitions : ∀ c ∈ context.jobs,
      ∃ d ∈ definitions, d.calculationTypeId = c.calculationTypeId)
    (hpairs : List.Forall₂ (Pairs versions) series upstreams)
    (hfail : ∀ seen last L' ws' e, PrepareFailure e → post ⟨seen, last, .error e, L', ws'⟩)
    (hpost : ∀ seen last L', Moment.Grows fl last → Moment.Grows last g →
      g.db.datasetBuildSnapshots.get? (env.uuid 0) = none →
      (∀ r : Row, r.Held L → r.Held L') → Row.Held (.datasetBuildSnapshot (env.uuid 0)) L' →
      (∀ j ∈ jobs, Row.Held (.calculationJob j.id) L') →
      post ⟨seen, last, .ok (env.uuid 0), L', Store.freezing env.now v
        ⟨env.uuid 0, v.id, env.now⟩ (resolveIn definitions) jobs upstreams⟩) :
    (discipline honours).Wp g fl L []
      (freezeDraftBuild env context definitions series versions) post := by
  have hok := hinv.consistent.version _ v hv
  have hunfrozen : g.db.Unfrozen v.id := by
    have hb := hok.build
    unfold Store.Build at hb
    rwa [hdraft] at hb
  have hlength : context.jobs.length = (g.db.jobsOf v.id).length :=
    hnames.length_eq.trans hperm.length_eq
  have hne : (g.db.jobsOf v.id).length ≠ 0 := fun h0 => hok.jobs (List.length_eq_zero_iff.mp h0)
  unfold freezeDraftBuild
  rw [hid]
  refine Discipline.wp_bind (wp_readDatasetFreezeState hheld fun last₁ hle₁ hl₁ => ?_)
  rw [Discipline.continues_ok, Store.freezeState_of_unfrozen hunfrozen]
  dsimp only
  rw [if_neg (by simp [hlength, hne])]
  -- The definitions.
  have hrows : List.Forall₂ (fun (context : DatasetCalculationJobContext) j =>
      context.id = j.id ∧ context.calculationTypeId = j.calculationTypeId
        ∧ j ∈ g.db.jobsOf v.id ∧ j.resolvedDependencyDefinitionVersionId = none
        ∧ ∃ d ∈ definitions, d.calculationTypeId = j.calculationTypeId) context.jobs jobs := by
    refine List.forall₂_iff_zip.mpr ⟨hnames.length_eq, fun {c j} hz => ?_⟩
    obtain ⟨hc, hj⟩ := List.of_mem_zip hz
    obtain ⟨hcid, htype⟩ := List.forall₂_zip hnames hz
    obtain ⟨d, hd, hdt⟩ := hdefinitions c hc
    have hj := hperm.mem_iff.mp hj
    exact ⟨hcid, htype, hj, (hunfrozen.2 j hj).1, d, hd, hdt.trans htype⟩
  have hnodup : (jobs.map CalculationJob.id).Nodup := by
    rw [(hperm.map CalculationJob.id).nodup_iff]
    exact g.db.calculationJobs.nodup.sublist (List.filter_sublist.map _)
  refine Discipline.wp_bind ?_
  show (discipline honours).Wp g last₁ L (resolutions definitions [])
    (freezeDefinitions v.id definitions context.jobs) _
  refine wp_freezeDefinitions hl₁.le hheld (by simp) hrows hnodup
    fun seen₂ last₂ L₂ hle₂ hg₂ hL₂ hjobs₂ => ?_
  rw [Discipline.continues_ok]
  rw [List.nil_append] at hjobs₂ ⊢
  -- The snapshot and its rows.
  have hsnapshots : ∀ s : Store, ((resolutions definitions jobs).foldl Store.apply
      s).datasetBuildSnapshots = s.datasetBuildSnapshots := by
    intro s
    rw [resolutions, Store.foldl_putCalculationJob]
  refine Discipline.wp_bind (wp_insertDatasetBuildSnapshot (hL₂ _ hheld) hunfrozen.1 hsnapshots
    (fun seen last L' => ?_) fun seen₃ last₃ hle₃ hg₃ hfresh => ?_)
  · exact hfail _ _ _ _ _ (.uuidTaken _ (by simp))
  rw [Discipline.continues_ok]
  refine Discipline.wp_bind (wp_freezeUpstreams hg₃ hpairs (fun seen last L' ws' => ?_)
    fun seen₄ last₄ L₄ hle₄ hg₄ hL₄ => ?_)
  · exact hfail _ _ _ _ _ (.uuidTaken _ (by simp))
  rw [Discipline.continues_ok]
  -- The version itself.
  have hversions : ∀ s : Store, ((resolutions definitions jobs
      ++ [Write.insertDatasetBuildSnapshot ⟨env.uuid 0, v.id, env.now⟩]
      ++ dependencies (env.uuid 0) upstreams).foldl Store.apply s).datasetVersions
        = s.datasetVersions := by
    intro s
    rw [List.foldl_append, List.foldl_append, resolutions, dependencies,
      Store.foldl_putCalculationJob, Store.foldl_insertSnapshotDependency]
    rfl
  have hheld₄ := hL₄ _ (hL₂ _ hheld).cons.cons
  refine Discipline.wp_bind (wp_transitionDatasetVersionToBuilding hheld₄ hv hdraft hversions
    fun seen₅ last₅ hle₅ hg₅ => ?_)
  rw [Discipline.continues_ok]
  refine Discipline.wp_pure (hpost _ last₅ _ ?_ hg₅ hfresh ?_ ?_ ?_)
  · exact hle₁.trans (hle₂.trans (hle₃.trans (hle₄.trans hle₅)))
  · exact fun r hr => (hL₄ r (hL₂ r hr).cons.cons).cons
  · exact (hL₄ _ Row.held_forUpdate.cons).cons
  · exact fun j hj => (hL₄ _ (hjobs₂ j hj).cons.cons).cons

/-! ### The writes of the freeze -/

/-- Resolving jobs does not change the type of any. -/
theorem foldl_put_type {resolve : Uuid → Uuid} {jobs : List CalculationJob}
    {t : Relational.Table CalculationJob Uuid (·.id)} {id type : Uuid} {j : CalculationJob}
    (hjobs : ∀ k ∈ jobs, k.id = id → k.calculationTypeId = type)
    (hj : t.get? id = some j) (htype : j.calculationTypeId = type) :
    ∃ j', (jobs.foldl (fun t k => t.put (k.resolveTo resolve)) t).get? id = some j'
      ∧ j'.calculationTypeId = type := by
  induction jobs generalizing t j with
  | nil => exact ⟨j, hj, htype⟩
  | cons k jobs ih =>
      have hrest : ∀ k ∈ jobs, k.id = id → k.calculationTypeId = type :=
        fun k hk => hjobs k (List.mem_cons_of_mem _ hk)
      by_cases hk : (k.resolveTo resolve).id = id
      · exact ih (j := k.resolveTo resolve) hrest (by rw [Table.get?_put, if_pos hk, hj]; rfl)
          (hjobs k List.mem_cons_self hk)
      · exact ih hrest (by rw [Table.get?_put, if_neg hk, hj]) htype

/-- The freeze opens the version. -/
theorem Opened.of_freezing (hinv : Invariant honours g) {now : Time} {v : DatasetVersion}
    {r : DatasetSeries} {b : DatasetBuildSnapshot} {resolve : Uuid → Uuid}
    {jobs : List CalculationJob} {upstreams : List Upstream}
    (hf : g.db.Freezing v b resolve jobs upstreams)
    (hr : g.db.datasetSeries.get? v.datasetSeriesId = some r)
    (hL : Row.Held (.datasetVersion v.id) L) (hL' : Row.Held (.datasetBuildSnapshot b.id) L)
    (hjobs : ∀ j ∈ jobs, Row.Held (.calculationJob j.id) L)
    (hlatest : (g.db.frozenStore now v b resolve jobs upstreams).FrozenLatest v.id b r.identity)
    (jobId : Uuid) {id : Uuid} (hid : v.id = id) :
    Opened honours jobId id now g b.id L (Store.freezing now v b resolve jobs upstreams) where
  commit := by
    refine .of_change hinv (.freeze hinv.consistent hf hL hL' hjobs) fun _ _ a ha => .inl ?_
    rw [Store.foldl_freezing] at ha
    exact ha
  attempts s := by rw [Store.foldl_freezing]; rfl
  version := by
    rw [Store.foldl_freezing]
    exact ⟨v.building now, by rw [hf.version_get?, if_pos hid], rfl⟩
  snapshot := by
    rw [Store.foldl_freezing]
    exact ⟨b, by rw [hf.snapshotsOf_eq hinv.consistent, if_pos hid], rfl⟩
  types g₁ hg j₁ hj₁ := by
    rw [Store.foldl_freezing]
    refine foldl_put_type (fun j hj hid => ?_) hj₁ rfl
    obtain ⟨j', hj', hs⟩ := hg.db.job hj₁
    have hget := (Store.mem_jobsOf.mp ((hf.jobs_iff j).mp hj)).1
    rw [hid, hj'] at hget
    rw [← Option.some.inj hget]
    exact (job_columns hs).2.2.1
  -- Only this version goes from `DRAFT` to `BUILDING`.
  latest id hid := by
    rw [Store.foldl_freezing] at hid ⊢
    obtain ⟨w, w', hw, hdraft, hw', hbuilding⟩ := hid
    have hget := hw'
    rw [hf.version_get?] at hget
    split at hget
    · rename_i he
      subst he
      refine ⟨w', r, b, hw', ?_, hlatest⟩
      rw [← Option.some.inj hget]
      exact hr
    · rw [hw] at hget
      rw [← Option.some.inj hget, hdraft] at hbuilding
      cases hbuilding
  moves w hw := by
    simp only [Store.freezing, List.mem_append, List.mem_map, List.mem_singleton, reduceCtorEq,
      and_false, exists_false, or_false, false_or, Write.putDatasetVersion.injEq] at hw
    rw [hw]
    exact hid

theorem types_of_names {contexts : List DatasetCalculationJobContext}
    {jobs : List CalculationJob}
    (h : List.Forall₂ DatasetCalculationJobContext.Names contexts jobs) :
    contexts.map (·.calculationTypeId) = jobs.map (·.calculationTypeId) := by
  induction h with
  | nil => rfl
  | cons h _ ih => rw [List.map_cons, List.map_cons, h.2, ih]

theorem series_of_pairs {versions : List PublishedUpstreamVersion}
    {series : List DatasetSeries} {upstreams : List Upstream}
    (h : List.Forall₂ (Pairs versions) series upstreams) :
    upstreams.map (·.1) = series := by
  induction h with
  | nil => rfl
  | cons h _ ih => rw [List.map_cons, h.1, ih]

/-! ### A freeze from what was resolved -/

/-- The snapshot covers what the definitions require, and nothing else is frozen. -/
theorem Prepared.freezing {context : CalculationRunContext} {v : DatasetVersion}
    {definitions : List DependencyDefinition} {series : List DatasetSeries}
    {versions : List PublishedUpstreamVersion} {jobs : List CalculationJob}
    {upstreams : List Upstream} {output : SeriesIdentity} {b : DatasetBuildSnapshot}
    (hp : Prepared g output context.jobs definitions series versions)
    (hinv : Invariant honours g) (hv : g.db.datasetVersions.get? v.id = some v)
    (hdraft : v.status = .draft) (hfresh : g.db.datasetBuildSnapshots.get? b.id = none)
    (howner : b.datasetVersionId = v.id)
    (hnames : List.Forall₂ DatasetCalculationJobContext.Names context.jobs jobs)
    (hperm : jobs.Perm (g.db.jobsOf v.id))
    (hpairs : List.Forall₂ (Pairs versions) series upstreams)
    (hall : ∀ u ∈ upstreams, u.1 ∈ series ∧ g.db.datasetVersions.get? u.2.id = some u.2
      ∧ u.2.datasetSeriesId = u.1.id ∧ g.db.LatestVersion u.1.id u.2.id) (now : Time) :
    g.db.Freezing v b (resolveIn definitions) jobs upstreams
      ∧ (g.db.frozenStore now v b (resolveIn definitions) jobs upstreams).FrozenLatest
        v.id b output := by
  -- The upstream rows, as identities and as domains.
  have hidentities : upstreams.map (·.1.identity)
      = (g.db.requiredDomains (definitions.map (·.id))).map fun domain =>
        { output with domain } := by
    rw [← hp.required, ← series_of_pairs hpairs, List.map_map]
    rfl
  have hdomains : upstreams.map (·.1.identity.domain)
      = g.db.requiredDomains (definitions.map (·.id)) := by
    have := congrArg (List.map SeriesIdentity.domain) hidentities
    rw [List.map_map, List.map_map] at this
    exact this.trans (List.map_id _)
  have htypes := types_of_names hnames
  -- Every job has the latest definition of its type.
  have hresolved : ∀ j ∈ jobs, ∃ d ∈ definitions,
      d.id = resolveIn definitions j.calculationTypeId
        ∧ g.db.LatestDefinition j.calculationTypeId d := by
    intro j hj
    have hmem : j.calculationTypeId ∈ context.jobs.map (·.calculationTypeId) :=
      htypes ▸ List.mem_map_of_mem hj
    obtain ⟨c, hc, hct⟩ := List.mem_map.mp hmem
    rw [← hct]
    exact hp.resolves (hp.all c hc)
  have hf : g.db.Freezing v b (resolveIn definitions) jobs upstreams := by
    refine ⟨hv, hdraft, hfresh, howner, fun j => hperm.mem_iff, ?_, ?_, ?_⟩
    · -- A required domain is one of the domains of the upstream rows.
      intro j hj
      obtain ⟨d, hd, hid, hlatest⟩ := hresolved j hj
      refine ⟨d, hid, hlatest.row, hlatest.published, hlatest.type, fun domain hdomain => ?_⟩
      have : domain ∈ upstreams.map (·.1.identity.domain) := by
        rw [hdomains]
        exact Store.mem_requiredDomains.mpr ⟨d.id, List.mem_map_of_mem hd, hdomain⟩
      obtain ⟨u, hu, hud⟩ := List.mem_map.mp this
      exact ⟨u, hu, hud⟩
    · intro u hu
      obtain ⟨hr, hw, hs, -⟩ := hall u hu
      exact ⟨hp.seriesRow _ hr, hw, hs⟩
    · rw [hdomains]
      exact Store.requiredDomains_nodup _
  refine ⟨hf, hf.frozenLatest hinv.consistent ?_ ?_⟩
  · intro j hj
    obtain ⟨d, -, hid, hlatest⟩ := hresolved j hj
    exact ⟨d, hid, hlatest⟩
  · intro u hu
    obtain ⟨hr, -, -, hlatest⟩ := hall u hu
    refine ⟨?_, ?_, hlatest⟩
    · -- An upstream row has the company, year and period of the output.
      have : u.1.identity ∈ upstreams.map (·.1.identity) := List.mem_map_of_mem hu
      rw [hidentities] at this
      obtain ⟨domain, -, he⟩ := List.mem_map.mp this
      rw [← he]
    · -- Its domain is one that some job of the version requires.
      have : u.1.identity.domain ∈ g.db.requiredDomains (definitions.map (·.id)) :=
        hdomains ▸ List.mem_map_of_mem hu
      obtain ⟨c, hc, hdomain⟩ := hp.required_iff.mp this
      have hmem : c.calculationTypeId ∈ jobs.map (·.calculationTypeId) :=
        htypes ▸ List.mem_map_of_mem hc
      obtain ⟨j, hj, hjt⟩ := List.mem_map.mp hmem
      exact ⟨j, hj, hjt ▸ hdomain⟩

/-! ## The output version -/

variable {jobId : Uuid} {g₁ g₂ : Moment} {context : CalculationRunContext}
variable {j : CalculationJob} {v : DatasetVersion} {r : DatasetSeries}

theorem wp_reuseBuildingDataset {post : Ended Uuid → Prop}
    (h : Loaded honours jobId g₁ g₂ context j v r)
    (hrunnable : ∀ seen last L' ws', post ⟨seen, last, .error (.jobNotRunnable jobId), L', ws'⟩)
    (hpost : ∀ seen last snapshotId L' ws', Moment.Grows g₂ last → Moment.Grows last g →
      (∀ now, Opened honours jobId context.datasetVersionId now g snapshotId L' ws') →
      post ⟨seen, last, .ok snapshotId, L', ws'⟩) :
    (discipline honours).Wp g g₂ [] [] (reuseBuildingDataset context) post := by
  refine Discipline.wp_bind (wp_lockOutputDatasetVersion h.version₂ ?_)
  intro seen₁ last₁ w hle₁ hl₁ hw
  rw [Discipline.continues_ok]
  dsimp only
  -- The version may have moved on since the context was read.
  by_cases hbuilding : w.status = .building
  swap
  · rw [if_pos hbuilding]
    rw [h.selectedJobId]
    exact Discipline.wp_throw (hrunnable _ _ _ _)
  rw [if_neg (not_not.mpr hbuilding)]
  obtain ⟨jobs, hnames, hperm⟩ := Store.jobContexts_later h.inv₂.consistent
    (hle₁.trans hl₁.le).db h.version₂
  -- The list of jobs is of an earlier moment, but a version keeps its jobs.
  have hcount : context.jobs.length = (g.db.jobsOf context.datasetVersionId).length := by
    rw [h.jobs, hnames.length_eq, hperm.length_eq]
  refine wp_requireBuildingSnapshot hl₁.inv Row.held_forUpdate hw hbuilding hcount ?_
  intro seen₂ last₂ snapshotId hle₂ hg₂ hopened
  exact hpost _ _ _ _ _ (hle₁.trans hle₂) hg₂ (hopened jobId)

theorem wp_initializeOrReuseDraftDataset {post : Ended Uuid → Prop}
    (h : Loaded honours jobId g₁ g₂ context j v r) (hle : Moment.Grows g₂ g)
    (hfail : ∀ seen last L' ws' e, PrepareFailure e → post ⟨seen, last, .error e, L', ws'⟩)
    (hpost : ∀ seen last snapshotId L' ws', Moment.Grows g₂ last → Moment.Grows last g →
      Opened honours jobId context.datasetVersionId env.now g snapshotId L' ws' →
      post ⟨seen, last, .ok snapshotId, L', ws'⟩) :
    (discipline honours).Wp g g₂ [] [] (initializeOrReuseDraftDataset env context) post := by
  -- The types, their latest definitions, and the domains these require.
  refine Discipline.wp_bind (wp_lockCalculationTypes hle h.types ?_)
  intro seen₁ last₁ L₁ hle₁ hg₁ _ htypes
  rw [Discipline.continues_ok]
  refine Discipline.wp_bind (wp_findLatestPublishedDependencyDefinitions ?_ ?_)
  · intro id hid
    obtain ⟨c, hc, rfl⟩ := List.mem_map.mp hid
    exact htypes c hc
  intro last₂ hle₂ hl₂ hdefinitions
  rw [Discipline.continues_ok]
  dsimp only
  generalize hds : g.db.latestPublishedDefinitions (context.jobs.map (·.calculationTypeId))
    = definitions at hdefinitions
  split
  · exact Discipline.wp_throw (hfail _ _ _ _ _ (.definitionNotReady _))
  rename_i hmissing
  have hall : ∀ c ∈ context.jobs, ∃ d ∈ definitions,
      d.calculationTypeId = c.calculationTypeId := by
    intro c hc
    rw [not_not, List.map_eq_nil_iff, List.filter_eq_nil_iff] at hmissing
    simpa using hmissing c hc
  refine Discipline.wp_bind (wp_findRequiredDomains hl₂.le hdefinitions fun last₃ hle₃ hl₃ => ?_)
  rw [Discipline.continues_ok]
  -- The series of these domains, and their latest versions.
  refine Discipline.wp_bind (wp_lockUpstreams hl₃.le ?_)
  intro seen₄ last₄ L₄ series missing₄ hle₄ hg₄ _ hseries hrequired
  rw [Discipline.continues_ok]
  dsimp only
  split
  · exact Discipline.wp_throw (hfail _ _ _ _ _ (.dependencyNotReady _))
  rename_i hmissing₄
  refine Discipline.wp_bind (wp_findUpstreamVersions hg₄ (fun r hr => (hseries r hr).2) ?_)
  intro seen₅ last₅ versions missing₅ hle₅ hg₅ hlatest hfound
  rw [Discipline.continues_ok]
  dsimp only
  split
  · exact Discipline.wp_throw (hfail _ _ _ _ _ (.dependencyNotReady _))
  rename_i hmissing₅
  have hprepared : Prepared g context.outputIdentity context.jobs definitions series versions :=
    ⟨hds.symm, hall, fun r hr => (hseries r hr).1, hrequired (not_not.mp hmissing₄), hlatest,
      hfound (not_not.mp hmissing₅)⟩
  -- The version, under its lock.
  have hle₂₅ : Moment.Grows g₂ last₅ := hle₁.trans (hle₂.trans (hle₃.trans (hle₄.trans hle₅)))
  refine Discipline.wp_bind (wp_lockOutputDatasetVersion
    (hle₂₅.db.version_ne_none h.version₂) ?_)
  intro seen₆ last₆ w hle₆ hl₆ hw
  rw [Discipline.continues_ok]
  dsimp only
  have hinv : Invariant honours g := hl₆.inv
  have hwid : w.id = context.datasetVersionId := Table.get?_key hw
  obtain ⟨jobs, hnames, hperm⟩ := Store.jobContexts_later h.inv₂.consistent hle.db h.version₂
  rw [← h.jobs] at hnames
  -- It is still a draft: this transaction freezes it.
  by_cases hdraft : w.status = .draft
  · rw [if_pos hdraft]
    rw [← hwid] at hw hperm
    obtain ⟨upstreams, hpairs, hupstreams⟩ := hprepared.pairs
    refine wp_freezeDraftBuild hinv hwid.symm (hwid ▸ Row.held_forUpdate) hw hdraft hnames hperm
      hall hpairs (fun seen last L' ws' e he => hfail _ _ _ _ _ he) ?_
    intro seen₇ last₇ L₇ hle₇ hg₇ hfresh hL₇ hL₇' hjobs₇
    obtain ⟨hf, hfrozen⟩ := hprepared.freezing (b := ⟨env.uuid 0, w.id, env.now⟩) hinv hw hdraft
      hfresh rfl hnames hperm hpairs hupstreams env.now
    -- The output identity was read at the beginning, and a series keeps its identity.
    obtain ⟨out, hout, hident⟩ : ∃ out, g.db.datasetSeries.get? w.datasetSeriesId = some out
        ∧ out.identity = context.outputIdentity := by
      obtain ⟨out, hout, hident⟩ := (h.le.trans hle).db.seriesRow h.series
      obtain ⟨w', hw', hs⟩ := (h.le.trans hle).db.version h.version
      rw [← h.datasetVersionId, ← hwid, hw] at hw'
      rw [Option.some.inj hw', (version_columns hs).2.1]
      exact ⟨out, hout, hident.trans (congrArg (·.outputIdentity) h.context).symm⟩
    rw [← hident] at hfrozen
    exact hpost _ _ _ _ _ (hle₂₅.trans (hle₆.trans hle₇)) hg₇ (Opened.of_freezing hinv hf hout
      (hL₇ _ (hwid ▸ Row.held_forUpdate)) hL₇' hjobs₇ hfrozen jobId hwid)
  rw [if_neg hdraft]
  -- Another Run was faster: its freeze is reused.
  by_cases hbuilding : w.status = .building
  swap
  · rw [if_neg hbuilding]
    exact Discipline.wp_throw (hfail _ _ _ _ _ (.jobNotRunnable _))
  rw [if_pos hbuilding]
  have hcount : context.jobs.length = (g.db.jobsOf context.datasetVersionId).length :=
    hnames.length_eq.trans hperm.length_eq
  refine wp_requireBuildingSnapshot hinv Row.held_forUpdate hw hbuilding hcount ?_
  intro seen₇ last₇ snapshotId hle₇ hg₇ hopened
  exact hpost _ _ _ _ _ (hle₂₅.trans (hle₆.trans hle₇)) hg₇ (hopened jobId _)

/-! ## The attempt -/

theorem Store.FrozenLatest.insertExecutionAttempt {s : Store} {id : Uuid}
    {b : DatasetBuildSnapshot} {output : SeriesIdentity} (h : s.FrozenLatest id b output)
    (a : ExecutionAttempt) :
    (s.apply (.insertExecutionAttempt a)).FrozenLatest id b output where
  snapshot := h.snapshot
  definitions j hj := by
    obtain ⟨d, hd, hl⟩ := h.definitions j hj
    exact ⟨d, hd, hl.row, hl.type, hl.published, hl.highest⟩
  rows := h.rows
  domains := h.domains

/-! ### `prepareSelectedJobAttempt` -/

theorem wp_prepareSelectedJobAttempt {snapshotId : Uuid}
    {post : Ended PreparedCalculationRun → Prop}
    (h : Loaded honours jobId g₁ g₂ context j v r) (hle : Moment.Grows g₂ fl)
    (ho : Opened honours jobId context.datasetVersionId env.now g snapshotId L ws)
    (hrunnable : ∀ seen last L' ws', post ⟨seen, last, .error (.jobNotRunnable jobId), L', ws'⟩)
    (htaken : ∀ seen last L' ws',
      post ⟨seen, last, .error (.uniqueViolation "execution_attempts_pkey"), L', ws'⟩)
    (hpost : ∀ seen last L' ws' p, Commit honours env.now L' g (ws'.foldl Store.apply g.db) →
      (ws'.foldl Store.apply g.db).Durable p.durable → p.jobId = jobId →
      g.db.FreezesLatest (ws'.foldl Store.apply g.db) →
      (∀ v, .putDatasetVersion v ∈ ws' → v.id = p.datasetVersionId) →
      post ⟨seen, last, .ok p, L', ws'⟩) :
    (discipline honours).Wp g fl L ws (prepareSelectedJobAttempt env context snapshotId)
      post := by
  have hle₁ : Moment.Grows g₁ fl := h.le.trans hle
  unfold prepareSelectedJobAttempt
  rw [h.selectedJobId]
  refine Discipline.wp_bind (wp_lockSelectedCalculationJob ?_ ?_)
  · intro g₃ hle₃ _ hl₃
    obtain ⟨j₁, hj₁, -⟩ := (hle₁.trans hle₃).db.job h.job
    obtain ⟨j₂, hj₂, htype⟩ := ho.types g₃ hl₃.le j₁ hj₁
    exact ⟨j₁, j₂, hj₁, hj₂, htype⟩
  intro seen₃ last₃ j' dag hle₃ hl₃ hj'
  rw [Discipline.continues_ok]
  dsimp only
  have hinv : Invariant honours g := hl₃.inv
  have hid : j'.id = jobId := Table.get?_key hj'
  -- The job's version is the one that was opened, since a job keeps its version.
  obtain ⟨jg, hjg, hjs⟩ := (hle₁.trans (hle₃.trans hl₃.le)).db.job h.job
  have hversion : j'.outputDatasetVersionId = context.datasetVersionId := by
    obtain ⟨j'', hj'', hs⟩ := ho.commit.change.grows.job hjg
    obtain rfl := Option.some.inj (hj'.symm.trans hj'')
    rw [h.datasetVersionId, (job_columns hs).2.1, (job_columns hjs).2.1]
  rw [if_neg (not_not.mpr hversion), hid]
  by_cases hpending : j'.status = .pending
  swap
  · rw [if_pos hpending]
    exact Discipline.wp_throw (hrunnable _ _ _ _)
  rw [if_neg (not_not.mpr hpending)]
  have hjob : ∃ j, (ws.foldl Store.apply g.db).calculationJobs.get? jobId = some j
      ∧ j.outputDatasetVersionId = context.datasetVersionId := ⟨j', hj', hversion⟩
  have hattempts := ho.attempts g.db
  refine Discipline.wp_bind (wp_findActiveExecutionAttempt Row.held_forUpdate ho.attempts
    fun last₄ hle₄ hl₄ => ?_)
  rw [Discipline.continues_ok]
  cases hx : g.db.activeAttempt? jobId with
  -- Another Run has prepared an attempt. It is taken if it is still `PREPARED`.
  | some x =>
      obtain ⟨a, ha, -, rfl⟩ := Store.of_activeAttempt? hx
      dsimp only
      split
      · exact Discipline.wp_throw (hrunnable _ _ _ _)
      obtain ⟨hget, haj⟩ := Store.mem_attemptsOf.mp ha
      have hrow : (ws.foldl Store.apply g.db).executionAttempts.get? a.id = some a := by
        rw [hattempts]
        exact hget
      exact Discipline.wp_pure (hpost _ _ _ _ _ (ho.commit.mono fun r hr => hr.cons)
        ⟨hjob, ho.snapshot, a, hrow, haj⟩ rfl ho.latest ho.moves)
  -- A new attempt, numbered under the lock of the job.
  | none =>
      have hinactive := Store.activeAttempt?_eq_none.mp hx
      refine Discipline.wp_bind (wp_allocateNextAttemptNumber Row.held_forUpdate ho.attempts hjg
        hinv ?_)
      intro last₅ hle₅ hl₅
      rw [Discipline.continues_ok]
      refine Discipline.wp_bind (wp_insertPreparedExecutionAttempt Row.held_forUpdate ho.attempts
        hjg hinv hinactive ?_ ?_)
      · intro seen last L'
        exact htaken _ _ _ _
      intro seen₆ last₆ hfree
      rw [Discipline.continues_ok]
      obtain ⟨w, hw, hbuilding⟩ := ho.version
      have hheld' : ∀ r : Row, r.Held L → r.Held (.keyShare (.calculationJob jobId) ::
          .forUpdate (.executionAttempt (env.uuid 1)) :: .forUpdate (.calculationJob jobId) :: L) :=
        fun r hr => hr.cons.cons.cons
      have hcommit := (ho.commit.mono hheld').insertPrepared env dag hattempts hfree hj'
        (hversion.symm ▸ hw) hbuilding (by simp [hpending]) hinactive Row.held_forUpdate.cons
        Row.held_forUpdate.cons.cons
      have hrow := insertPrepared_get? (ws.foldl Store.apply g.db)
        (a := preparedAttempt env (env.uuid 1) jobId ((g.db.attemptsOf jobId).length + 1) dag
          (airflowDagRunIdOf (env.uuid 1))) (by rw [hattempts]; exact hfree)
      have hview : ∀ u : Write, (ws ++ [u]).foldl Store.apply g.db
          = (ws.foldl Store.apply g.db).apply u := fun u => List.foldl_append
      -- The result names what the commit will show.
      refine Discipline.wp_pure (hpost _ _ _ _ _ ?_ ?_ rfl ?_ fun w hw => ho.moves w ?_)
      · show Commit honours env.now _ g ((ws ++ [_]).foldl Store.apply g.db)
        rw [hview]
        exact hcommit
      · show ((ws ++ [_]).foldl Store.apply g.db).Durable _
        rw [hview]
        exact ⟨hjob, ho.snapshot, _, hrow, rfl⟩
      · show g.db.FreezesLatest ((ws ++ [_]).foldl Store.apply g.db)
        rw [hview]
        intro id hfreezes
        obtain ⟨w, r, b, hw, hr, hlatest⟩ := ho.latest id hfreezes
        exact ⟨w, r, b, hw, hr, hlatest.insertExecutionAttempt _⟩
      · rcases List.mem_append.mp hw with hw | hw
        · exact hw
        · cases List.mem_singleton.mp hw

/-! ## The transaction -/

/-! ### Its specification -/

/-- The version of the job is no longer a draft. -/
def Store.OutOfDraft (s : Store) (jobId : Uuid) : Prop :=
  ∃ j v, s.calculationJobs.get? jobId = some j
    ∧ s.datasetVersions.get? j.outputDatasetVersionId = some v ∧ v.status ≠ .draft

structure PrepareSpec (honours : Prop) (jobId : Uuid) (env : TxEnv) (fl g : Moment)
    (o : Ended PreparedCalculationRun) : Prop where
  commit : ∀ p, o.result = .ok p → Commit honours env.now o.locks g (o.writes.foldl Store.apply g.db)
  durable : ∀ p, o.result = .ok p →
    (o.writes.foldl Store.apply g.db).Durable p.durable ∧ p.jobId = jobId
  latest : ∀ p, o.result = .ok p → g.db.FreezesLatest (o.writes.foldl Store.apply g.db)
  moves : ∀ p, o.result = .ok p → ∀ v, .putDatasetVersion v ∈ o.writes → v.id = p.datasetVersionId
  error : ∀ e, o.result = .error e → PrepareFailure e
  conflict : ∀ e, o.result = .error e → fl.db.OutOfDraft jobId → PrepareConflict e

theorem PrepareSpec.of_error {seen : List Moment} {last : Moment} {e : ServiceError}
    (h : PrepareFailure e) (h' : fl.db.OutOfDraft jobId → PrepareConflict e) :
    PrepareSpec honours jobId env fl g ⟨seen, last, .error e, L, ws⟩ :=
  ⟨fun p hp => (by cases hp), fun p hp => (by cases hp), fun p hp => (by cases hp),
    fun p hp => (by cases hp), fun _ he => Except.error.inj he ▸ h, fun _ he => Except.error.inj he ▸ h'⟩

theorem PrepareSpec.of_ok {seen : List Moment} {last : Moment} {p : PreparedCalculationRun}
    (hcommit : Commit honours env.now L g (ws.foldl Store.apply g.db))
    (hdurable : (ws.foldl Store.apply g.db).Durable p.durable) (hjob : p.jobId = jobId)
    (hlatest : g.db.FreezesLatest (ws.foldl Store.apply g.db))
    (hmoves : ∀ v, .putDatasetVersion v ∈ ws → v.id = p.datasetVersionId) :
    PrepareSpec honours jobId env fl g ⟨seen, last, .ok p, L, ws⟩ :=
  ⟨fun _ _ => hcommit, fun _ hp => Except.ok.inj hp ▸ ⟨hdurable, hjob⟩, fun _ _ => hlatest,
    fun _ hp => Except.ok.inj hp ▸ hmoves, fun _ he => (by cases he), fun _ he => (by cases he)⟩

/-! ### The run of the transaction -/

theorem wp_prepareCalculationJobRun :
    (discipline honours).Wp g fl [] [] (prepareCalculationJobRun jobId env)
      (PrepareSpec honours jobId env fl g) := by
  refine Discipline.wp_bind (wp_loadCalculationRunContext ?_ ?_)
  · intro seen last hnone
    rw [Discipline.continues_ok]
    refine Discipline.wp_throw (.of_error (.calculationJobNotFound _) ?_)
    rintro ⟨j, -, hj, -⟩
    exact Table.no_row hnone hj
  intro seen₁ g₁ g₂ context j v r hle₁ hg₂ h
  rw [Discipline.continues_ok]
  dsimp only
  rw [h.validate]
  dsimp only
  have hstatus : context.datasetStatus = v.status := congrArg (·.datasetStatus) h.context
  -- What comes after the version is open is the same in both branches.
  have hattempt : ∀ seen last snapshotId L ws, Moment.Grows g₂ last →
      Opened honours jobId context.datasetVersionId env.now g snapshotId L ws →
      (discipline honours).Continues g
        (fun snapshotId => prepareSelectedJobAttempt env context snapshotId)
        (fun o => PrepareSpec honours jobId env fl g (o.after seen₁))
        ⟨seen, last, .ok snapshotId, L, ws⟩ := by
    intro seen last snapshotId L ws hle ho
    rw [Discipline.continues_ok]
    refine wp_prepareSelectedJobAttempt h hle ho ?_ ?_ ?_
    · exact fun _ _ _ _ => .of_error (.jobNotRunnable _) fun _ => .jobNotRunnable _
    · exact fun _ _ _ _ => .of_error (.uuidTaken _ (by simp)) fun _ => .uuidTaken
    · exact fun _ _ _ _ _ hc hd hj hl hm => .of_ok hc hd hj hl hm
  by_cases hdraft : v.status = .draft
  · rw [if_pos (hstatus.trans hdraft)]
    refine Discipline.wp_bind (wp_initializeOrReuseDraftDataset h hg₂ ?_ ?_)
    · intro seen last L' ws' e he
      rw [Discipline.continues_error]
      refine .of_error he ?_
      -- The version would have been out of draft in the first read.
      rintro ⟨j₀, v₀, hj₀, hv₀, hne⟩
      obtain ⟨j', hj', hjs⟩ := hle₁.db.job hj₀
      obtain rfl := Option.some.inj (h.job.symm.trans hj')
      obtain ⟨v', hv', hvs⟩ := hle₁.db.version hv₀
      rw [← (job_columns hjs).2.1, h.version] at hv'
      obtain rfl := Option.some.inj hv'
      exact absurd hdraft (version_not_draft hvs hne)
    · intro seen last snapshotId L' ws' hle _ ho
      exact hattempt _ _ _ _ _ hle ho
  rw [if_neg (hstatus ▸ hdraft)]
  by_cases hbuilding : v.status = .building
  · rw [if_pos (hstatus.trans hbuilding)]
    refine Discipline.wp_bind (wp_reuseBuildingDataset h ?_ ?_)
    · intro seen last L' ws'
      rw [Discipline.continues_error]
      exact .of_error (.jobNotRunnable _) fun _ => .jobNotRunnable _
    · intro seen last snapshotId L' ws' hle _ ho
      exact hattempt _ _ _ _ _ hle (ho _)
  rw [if_neg (hstatus ▸ hbuilding)]
  exact Discipline.wp_throw (.of_error (.jobNotRunnable _) fun _ => .jobNotRunnable _)

end CostEngine
