import CostEngine.Transaction.LockOrder

/-! # The locks of a first Run

Types, upstream series, version, jobs, then the keys of the upstream versions, which rank above
the jobs as their domains are levels further on. The job that is selected at last has been
updated before, or nothing of its rank is held. -/

namespace CostEngine

open Relational (Table)
open Concurrency (Txn Discipline)

variable {honours : Prop} {level : String → ℕ} {g : Moment} {env : TxEnv} {L : List RowLock}
variable {ws : List Write}

/-! ## The upstream series -/

/-- A series is found by its identity, which it keeps. -/
theorem locks_lockUpstreamDatasetSeries {requirement : SeriesIdentity}
    {post : List RowLock → List Write → Option DatasetSeries → Prop}
    (hbelow : AllBelow level g.db env (lockRank 1 (3 * level requirement.domain) []) L)
    (hnone : ∀ L', (L' = L ∨ ∃ id, L' = .forUpdate (.datasetSeries id) :: L
      ∧ g.db.seriesDomain? id = some requirement.domain) → post L' [] none)
    (hsome : ∀ r, g.db.seriesDomain? r.id = some requirement.domain →
      r.identity = requirement → post (.forUpdate (.datasetSeries r.id) :: L) [] (some r)) :
    Tx.LocksInOrder honours level g env L [] (lockUpstreamDatasetSeries requirement) post := by
  refine Discipline.locks_bind (Discipline.locks_select fun g₁ _ hl₁ => ?_)
  rw [Concurrency.Machine.view_nil]
  cases hr : g₁.db.seriesWith? requirement with
  | none => exact hnone L (.inl rfl)
  | some r =>
      obtain ⟨hrow, rfl⟩ := seriesWith?_eq_some hr
      have hdomain : g.db.seriesDomain? r.id = some r.identity.domain :=
        hl₁.le.db.seriesDomain? (Store.seriesDomain?_of_row hrow)
      refine Discipline.locks_bind (Discipline.locks_lock
        (.next (hbelow.next (Store.lockRank?_series level hdomain)) (by simp)) ?_)
      refine Discipline.locks_select fun g₂ _ hl₂ => ?_
      rw [Concurrency.Machine.view_nil]
      cases hr₂ : g₂.db.datasetSeries.get? r.id with
      | none => exact hnone _ (.inr ⟨r.id, rfl, hdomain⟩)
      | some r₂ =>
          -- The row under the lock is the one that was found, with its counter.
          have hid : r₂.id = r.id := Table.get?_key hr₂
          obtain ⟨r₃, hr₃, hident⟩ := hl₁.le.db.seriesRow hrow
          obtain ⟨r₄, hr₄, hident'⟩ := hl₂.le.db.seriesRow hr₂
          obtain rfl := Option.some.inj (hr₃.symm.trans hr₄)
          rw [← hid]
          exact hsome r₂ (hid ▸ hdomain) (hident'.symm.trans hident)

/-- The series of the required domains, level by level; one that is missing takes no lock or the
lock of a series that is gone. -/
theorem locks_lockUpstreams {requirements : List SeriesIdentity}
    {post : List RowLock → List Write → List DatasetSeries × List String → Prop}
    (hsorted : requirements.Pairwise fun a b => level a.domain < level b.domain)
    (hbelow : ∀ requirement ∈ requirements,
      AllBelow level g.db env (lockRank 1 (3 * level requirement.domain) []) L)
    (htypes : AllBelow level g.db env (lockRank 2 0 []) L)
    (hpost : ∀ L' found missing, AllBelow level g.db env (lockRank 2 0 []) L' →
      (found.map (·.identity)).Sublist requirements →
      (∀ r ∈ found, g.db.seriesDomain? r.id = some r.identity.domain) →
      post L' [] (found, missing)) :
    Tx.LocksInOrder honours level g env L [] (lockUpstreams requirements) post := by
  induction requirements generalizing L post with
  | nil => exact hpost L [] [] htypes List.Sublist.slnil (by simp)
  | cons requirement rest ih =>
      rw [List.pairwise_cons] at hsorted
      have hstep : ∀ id, g.db.seriesDomain? id = some requirement.domain →
          (∀ requirement' ∈ rest, AllBelow level g.db env
            (lockRank 1 (3 * level requirement'.domain) []) (.forUpdate (.datasetSeries id) :: L))
          ∧ AllBelow level g.db env (lockRank 2 0 []) (.forUpdate (.datasetSeries id) :: L) := by
        intro id hid
        have hrank := Store.lockRank?_series level hid
        refine ⟨fun requirement' h => ?_, ?_⟩
        · have := hsorted.1 requirement' h
          exact .cons (RowLock.below_of_rank hrank (lockRank_lt_place (by omega)))
            (hbelow requirement' (List.mem_cons_of_mem _ h))
        · exact .cons (RowLock.below_of_rank hrank (lockRank_lt_kind (by decide))) htypes
      refine Discipline.locks_bind (locks_lockUpstreamDatasetSeries
        (hbelow requirement List.mem_cons_self) (fun L' hL' => ?_) fun r hr hid => ?_)
      · -- A domain without a series is missing.
        have hrest : (∀ requirement' ∈ rest, AllBelow level g.db env
              (lockRank 1 (3 * level requirement'.domain) []) L')
            ∧ AllBelow level g.db env (lockRank 2 0 []) L' := by
          rcases hL' with rfl | ⟨id, rfl, hid⟩
          · exact ⟨fun requirement' h => hbelow requirement' (List.mem_cons_of_mem _ h), htypes⟩
          · exact hstep id hid
        refine Discipline.locks_bind (ih hsorted.2 hrest.1 hrest.2
          fun L'' found missing hL hsub hfound => ?_)
        exact hpost L'' found _ hL (hsub.trans (List.sublist_cons_self _ _)) hfound
      · obtain ⟨hrest, htypes'⟩ := hstep r.id hr
        refine Discipline.locks_bind (ih hsorted.2 hrest htypes'
          fun L'' found missing hL hsub hfound => ?_)
        refine hpost L'' (r :: found) missing hL ?_ ?_
        · rw [List.map_cons, hid]
          exact hsub.cons_cons _
        · intro r' hr'
          rcases List.mem_cons.mp hr' with rfl | hr'
          · rw [hr, hid]
          · exact hfound r' hr'

/-- The series found are on the levels of the domains they were looked for in. -/
theorem levels_of_sublist {identity : SeriesIdentity} {domains : List String}
    {found : List DatasetSeries} {n : ℕ}
    (hsub : (found.map (·.identity)).Sublist (domains.map fun domain => { identity with domain }))
    (hsorted : domains.Pairwise fun a b => level a < level b)
    (hlater : ∀ domain ∈ domains, n < level domain) :
    found.Pairwise (fun a b => level a.identity.domain < level b.identity.domain)
      ∧ ∀ r ∈ found, n < level r.identity.domain := by
  have hrequirements : (domains.map fun domain => { identity with domain }).Pairwise
      fun a b => level a.domain < level b.domain := List.pairwise_map.mpr hsorted
  have hfound := hrequirements.sublist hsub
  rw [List.pairwise_map] at hfound
  refine ⟨hfound, fun r hr => ?_⟩
  obtain ⟨domain, hdomain, hr⟩ := List.mem_map.mp (hsub.subset (List.mem_map_of_mem hr))
  have hdom : domain = r.identity.domain := congrArg (·.domain) hr
  exact hdom ▸ hlater domain hdomain

/-- The versions found belong to their series. -/
theorem locks_findUpstreamVersions {series : List DatasetSeries}
    {post : List RowLock → List Write →
      List PublishedUpstreamVersion × List String → Prop}
    (hpost : ∀ found missing, (∀ v ∈ found,
      g.db.versionDomain? v.datasetVersionId = g.db.seriesDomain? v.datasetSeriesId) →
      post L [] (found, missing)) :
    Tx.LocksInOrder honours level g env L [] (findUpstreamVersions series) post := by
  induction series generalizing post with
  | nil => exact hpost [] [] (by simp)
  | cons r series ih =>
      refine Discipline.locks_bind (Discipline.locks_select fun g₁ _ hl => ?_)
      refine Discipline.locks_bind (ih fun found missing hfound => ?_)
      rw [Concurrency.Machine.view_nil]
      cases hw : g₁.db.latestPublishedVersion? r.id with
      | none => exact hpost found _ hfound
      | some w =>
          have hmem := List.mem_of_mem_filter (List.argmax_mem hw)
          obtain ⟨hrow, -⟩ := Store.mem_versionsOf.mp hmem
          obtain ⟨w', hw', hs⟩ := hl.le.db.version hrow
          refine hpost (_ :: found) missing (List.forall_mem_cons.mpr ⟨?_, hfound⟩)
          have hseries : w'.datasetSeriesId = w.datasetSeriesId := (version_columns hs).2.1
          exact (Store.versionDomain?_of_row hw').trans (congrArg _ hseries)

/-! ## The version -/

/-- A version that is found has a domain, and is asked for above what is held. -/
theorem locks_selectVersion {α : Type} {id : Uuid} {columns : DatasetVersion → α}
    (hinv : Invariant honours g) {post : List RowLock → List Write → Option α → Prop}
    (hbelow : ∀ d, g.db.versionDomain? id = some d →
      AllBelow level g.db env (lockRank 2 (3 * level d) []) L)
    (hnone : ∀ L', post L' [] none)
    (hsome : ∀ d v, g.db.versionDomain? id = some d → v.id = id →
      post (.forUpdate (.datasetVersion id) :: L) [] (some (columns v))) :
    Tx.LocksInOrder honours level g env L [] (.selectForUpdate (.forUpdate (.datasetVersion id))
      fun s => (s.datasetVersions.get? id).map columns) post := by
  refine Discipline.locks_selectForUpdate (hnone L) fun g₁ row _ hl hrow => ?_
  obtain ⟨v₁, hv₁, -⟩ := Option.map_eq_some_iff.mp hrow
  obtain ⟨v, hv, -⟩ := hl.le.db.version hv₁
  obtain ⟨d, hd⟩ := hinv.consistent.references.versionDomain? (Table.row_ne_none hv)
  refine ⟨.next ((hbelow d hd).next (Store.lockRank?_version level hd)) (by simp), fun g₂ _ _ => ?_⟩
  cases hv₂ : ((machine honours).view g₂.db []).datasetVersions.get? id with
  | none => exact hnone _
  | some v₂ => exact hsome d v₂ hd (Table.get?_key hv₂)

theorem locks_lockOutputDatasetVersion {id : Uuid} (hinv : Invariant honours g)
    {post : List RowLock → List Write → Option LockedDatasetVersion → Prop}
    (hbelow : ∀ d, g.db.versionDomain? id = some d →
      AllBelow level g.db env (lockRank 2 (3 * level d) []) L)
    (hnone : ∀ L', post L' [] none)
    (hsome : ∀ d x, g.db.versionDomain? id = some d →
      post (.forUpdate (.datasetVersion id) :: L) [] (some x)) :
    Tx.LocksInOrder honours level g env L [] (lockOutputDatasetVersion id) post :=
  locks_selectVersion hinv hbelow hnone fun d _ hd _ => hsome d _ hd

/-! ## The freeze -/

/-- A job, and the key of the definition that is frozen for it. -/
theorem locks_persistResolvedDependencyDefinition {v jobId typeId definitionId : Uuid}
    {post : List RowLock → List Write → Bool → Prop}
    (hjob : LockFollows level g.db env L (.noKeyUpdate (.calculationJob jobId)))
    (hfalse : ∀ L', post L' ws false)
    (htrue : ∀ ws', post (.keyShare (.dependencyDefinition definitionId)
      :: .noKeyUpdate (.calculationJob jobId) :: L) ws' true) :
    Tx.LocksInOrder honours level g env L ws
      (persistResolvedDependencyDefinition v jobId typeId definitionId) post :=
  Discipline.locks_bind (Discipline.locks_updateReturning (hfalse _) (fun _ _ _ _ _ => hjob)
    (hfalse _) fun _ => Discipline.locks_bind (Discipline.locks_lock (.definition _) (htrue _)))

/-- The jobs of the locked version, one after the other, and the keys of their definitions. -/
theorem locks_freezeDefinitions {v : Uuid} {r : LockRank} {definitions : List DependencyDefinition}
    {jobs : List DatasetCalculationJobContext} {post : List RowLock → List Write → Unit → Prop}
    (hversion : .forUpdate (.datasetVersion v) ∈ L)
    (hjobs : ∀ job ∈ jobs, g.db.lockRank? level (.calculationJob job.id) = some r
      ∧ g.db.versionOf? (.calculationJob job.id) = some v)
    (hbelow : ∀ m ∈ L, m.BelowIn level g.db env v r)
    (hpost : ∀ L' ws', (∀ m ∈ L', m.BelowIn level g.db env v r) → (∀ m ∈ L, m ∈ L') →
      (∀ job ∈ jobs, .noKeyUpdate (.calculationJob job.id) ∈ L') → post L' ws' ()) :
    Tx.LocksInOrder honours level g env L ws (freezeDefinitions v definitions jobs) post := by
  induction jobs generalizing L ws with
  | nil => exact hpost L ws hbelow (fun _ h => h) (by simp)
  | cons job jobs ih =>
      obtain ⟨hrank, hof⟩ := hjobs job List.mem_cons_self
      have hfollows : LockFollows level g.db env L (.noKeyUpdate (.calculationJob job.id)) :=
        .next ⟨r, hrank, .inr ⟨v, hof, hversion, hbelow⟩⟩ (by simp)
      unfold freezeDefinitions
      split
      · exact Discipline.locks_throw
      · rename_i definition _
        have hjob : (.noKeyUpdate (.calculationJob job.id) : RowLock).BelowIn level g.db env v r :=
          .inr ⟨hrank, hof⟩
        have hdefinition : (.keyShare (.dependencyDefinition definition.id) : RowLock).BelowIn
            level g.db env v r := .inl (.inr (.inl ⟨_, rfl⟩))
        refine Discipline.locks_bind (locks_persistResolvedDependencyDefinition hfollows
          (fun _ => trivial) fun ws' => ?_)
        refine ih (List.mem_cons_of_mem _ (List.mem_cons_of_mem _ hversion))
          (fun job' hjob' => hjobs job' (List.mem_cons_of_mem _ hjob'))
          (List.forall_mem_cons.mpr ⟨hdefinition, List.forall_mem_cons.mpr ⟨hjob, hbelow⟩⟩) ?_
        intro L' ws' hL' hkept hheld
        refine hpost L' ws' hL' (fun m hm => hkept m (by simp [hm])) fun job' hjob' => ?_
        rcases List.mem_cons.mp hjob' with rfl | hjob'
        · exact hkept _ (by simp)
        · exact hheld job' hjob'

/-- The snapshot is new, and its version is held. -/
theorem locks_insertDatasetBuildSnapshot {n : ℕ} {v : Uuid}
    {post : List RowLock → List Write → Unit → Prop}
    (hversion : .forUpdate (.datasetVersion v) ∈ L)
    (hpost : ∀ ws', post (.keyShare (.datasetVersion v)
      :: .forUpdate (.datasetBuildSnapshot (env.uuid n)) :: L) ws' ()) :
    Tx.LocksInOrder honours level g env L ws (insertDatasetBuildSnapshot env (env.uuid n) v) post :=
  Discipline.locks_bind (Discipline.locks_insertRow (.drawn ⟨n, rfl⟩)
    (Discipline.locks_lock (.again (List.mem_cons_of_mem _ hversion)) (hpost _)))

/-- The upstream versions, on rising levels. -/
theorem locks_freezeUpstreams {n : ℕ} {versions : List PublishedUpstreamVersion}
    {series : List DatasetSeries} {post : List RowLock → List Write → Unit → Prop}
    (hversions : ∀ v ∈ versions,
      g.db.versionDomain? v.datasetVersionId = g.db.seriesDomain? v.datasetSeriesId)
    (hseries : ∀ r ∈ series, g.db.seriesDomain? r.id = some r.identity.domain)
    (hsorted : series.Pairwise fun a b => level a.identity.domain < level b.identity.domain)
    (hbelow : ∀ r ∈ series,
      AllBelow level g.db env (lockRank 2 (3 * level r.identity.domain) []) L)
    (hpost : ∀ L' ws', (∀ m ∈ L, m ∈ L') → post L' ws' ()) :
    Tx.LocksInOrder honours level g env L ws (freezeUpstreams (env.uuid n) versions series)
      post := by
  induction series generalizing L ws with
  | nil => exact hpost L ws fun _ h => h
  | cons r series ih =>
      rw [List.pairwise_cons] at hsorted
      unfold freezeUpstreams
      split
      · exact Discipline.locks_throw
      · rename_i version hfind
        have hid : version.datasetSeriesId = r.id := by simpa using List.find?_some hfind
        have hdomain : g.db.versionDomain? version.datasetVersionId = some r.identity.domain := by
          rw [hversions version (List.mem_of_find?_eq_some hfind), hid,
            hseries r List.mem_cons_self]
        have hsnapshot : (.keyShare (.datasetBuildSnapshot (env.uuid n)) : RowLock).row.Drawn env :=
          ⟨n, rfl⟩
        have hrank := Store.lockRank?_version level hdomain
        refine Discipline.locks_bind (Discipline.locks_bind (Discipline.locks_insertRow
          (.drawn hsnapshot) (Discipline.locks_lock (.next (AllBelow.next
            (.cons (.inl hsnapshot) (hbelow r List.mem_cons_self)) hrank) (by simp)) ?_)))
        refine ih (fun r' hr' => hseries r' (List.mem_cons_of_mem _ hr')) hsorted.2
          (fun r' hr' => ?_) fun L' ws' hkept => hpost L' ws' fun m hm => hkept m (by simp [hm])
        have := hsorted.1 r' hr'
        exact .cons (RowLock.below_of_rank hrank (lockRank_lt_place (by omega)))
          (.cons (.inl hsnapshot) (hbelow r' (List.mem_cons_of_mem _ hr')))

/-! ## The context of the Run -/

/-- What the context says of the version, its jobs and their types holds of the rows. -/
structure CalculationRunContext.Stands (s : Store) (context : CalculationRunContext) : Prop where
  version : s.versionDomain? context.datasetVersionId = some context.outputIdentity.domain
  selected : s.versionOf? (.calculationJob context.selectedJobId) = some context.datasetVersionId
  jobs : ∀ c ∈ context.jobs,
    s.versionOf? (.calculationJob c.id) = some context.datasetVersionId
  types : ∀ c ∈ context.jobs, ∃ ct, s.calculationTypes.get? c.calculationTypeId = some ct
    ∧ ct.domain = c.calculationTypeDomain ∧ ct.code = c.calculationTypeCode
  sorted : context.jobs.Pairwise fun a b => a.typeKey ≤ b.typeKey

theorem of_validateImmutableContext {context : CalculationRunContext}
    (h : validateImmutableContext context = none) :
    (∃ c ∈ context.jobs, c.id = context.selectedJobId)
      ∧ ∀ c ∈ context.jobs, c.calculationTypeDomain = context.outputIdentity.domain := by
  unfold validateImmutableContext at h
  split at h
  · cases h
  · split at h
    · cases h
    · rename_i hselected
      refine ⟨by simpa using hselected, fun c hc => ?_⟩
      simpa using List.find?_eq_none.mp (Option.map_eq_none_iff.mp h) c hc

/-- The context is read without a lock, and stays true of later rows. -/
theorem locks_loadCalculationRunContext {jobId : Uuid}
    {post : List RowLock → List Write → Option CalculationRunContext → Prop}
    (hnone : post L [] none)
    (hsome : ∀ context, context.Stands g.db → post L [] (some context)) :
    Tx.LocksInOrder honours level g env L [] (loadCalculationRunContext jobId) post := by
  refine Discipline.locks_bind (Discipline.locks_select fun g₁ _ hl₁ => ?_)
  rw [Concurrency.Machine.view_nil]
  cases hrow : g₁.db.jobRow? jobId with
  | none => exact hnone
  | some row =>
      simp only [Store.jobRow?, Option.bind_eq_bind, Option.bind_eq_some_iff, Option.pure_def,
        Option.some.injEq] at hrow
      obtain ⟨j₁, hj₁, v₁, hv₁, r₁, hr₁, rfl⟩ := hrow
      obtain ⟨j, hj, hsj⟩ := hl₁.le.db.job hj₁
      obtain ⟨v, hv, hsv⟩ := hl₁.le.db.version hv₁
      have hkey : v₁.id = j₁.outputDatasetVersionId := Table.get?_key hv₁
      have hid : j₁.id = jobId := Table.get?_key hj₁
      refine Discipline.locks_bind (Discipline.locks_select fun g₂ hinv₂ hl₂ => ?_)
      refine hsome _ ⟨?_, ?_, fun c hc => ?_, fun c hc => ?_, pairwise_orderBy _ _⟩
      · show g.db.versionDomain? v₁.id = some r₁.identity.domain
        rw [hkey, Store.versionDomain?_of_row hv, (version_columns hsv).2.1]
        exact hl₁.le.db.seriesDomain? (Store.seriesDomain?_of_row hr₁)
      · show g.db.versionOf? (.calculationJob j₁.id) = some v₁.id
        rw [hid, Store.versionOf?_job hj, (job_columns hsj).2.1, hkey]
      · obtain ⟨j₂, hj₂, ct, -, rfl⟩ := Store.mem_jobContexts.mp hc
        obtain ⟨hget, hof⟩ := Store.mem_jobsOf.mp hj₂
        obtain ⟨j₃, hj₃, hs⟩ := hl₂.le.db.job hget
        show g.db.versionOf? (.calculationJob j₂.id) = some v₁.id
        rw [Store.versionOf?_job hj₃, (job_columns hs).2.1, hof]
      · obtain ⟨j₂, -, ct, hct, rfl⟩ := Store.mem_jobContexts.mp hc
        exact hl₂.le.db.type hct

/-! ### Freezing the draft -/

section Context

variable {context : CalculationRunContext} (hstands : context.Stands g.db)
include hstands

theorem CalculationRunContext.Stands.lockRank?_job {c : DatasetCalculationJobContext}
    (hc : c ∈ context.jobs) : g.db.lockRank? level (.calculationJob c.id)
      = some (lockRank 2 (3 * level context.outputIdentity.domain + 1) []) :=
  Store.lockRank?_job level (hstands.jobs c hc) hstands.version

theorem locks_freezeDraftBuild {definitions : List DependencyDefinition}
    {series : List DatasetSeries} {versions : List PublishedUpstreamVersion}
    {post : List RowLock → List Write → Uuid → Prop}
    (hheld : .forUpdate (.datasetVersion context.datasetVersionId) ∈ L)
    (hbelow : AllBelow level g.db env
      (lockRank 2 (3 * level context.outputIdentity.domain + 1) []) L)
    (hversions : ∀ v ∈ versions,
      g.db.versionDomain? v.datasetVersionId = g.db.seriesDomain? v.datasetSeriesId)
    (hseries : ∀ r ∈ series, g.db.seriesDomain? r.id = some r.identity.domain)
    (hsorted : series.Pairwise fun a b => level a.identity.domain < level b.identity.domain)
    (hlevel : ∀ r ∈ series, level context.outputIdentity.domain < level r.identity.domain)
    (hpost : ∀ L' ws' x, (∀ c ∈ context.jobs, .noKeyUpdate (.calculationJob c.id) ∈ L') →
      post L' ws' x) :
    Tx.LocksInOrder honours level g env L []
      (freezeDraftBuild env context definitions series versions) post := by
  refine Discipline.locks_bind (Discipline.locks_select fun g₁ _ _ => ?_)
  split
  · exact Discipline.locks_throw
  · refine Discipline.locks_bind (locks_freezeDefinitions hheld
      (fun c hc => ⟨hstands.lockRank?_job hc, hstands.jobs c hc⟩) (fun m hm => .inl (hbelow m hm))
      ?_)
    intro L₁ ws₁ hL₁ hkept₁ hjobs
    have hheld₁ := hkept₁ _ hheld
    refine Discipline.locks_bind (locks_insertDatasetBuildSnapshot hheld₁ fun ws₂ => ?_)
    refine Discipline.locks_bind (locks_freezeUpstreams hversions hseries hsorted
      (fun r hr => ?_) fun L₃ ws₃ hkept₃ => ?_)
    · -- The keys of upstream versions rank above the jobs of this one.
      have hlt : lockRank 2 (3 * level context.outputIdentity.domain + 1) []
          < lockRank 2 (3 * level r.identity.domain) [] :=
        lockRank_lt_place (by have := hlevel r hr; omega)
      exact .cons ((hL₁ _ hheld₁).below hlt)
        (.cons (.inl ⟨0, rfl⟩) fun m hm => (hL₁ m hm).below hlt)
    · have hkept : ∀ m ∈ L₁, m ∈ L₃ := fun m hm => hkept₃ m (by simp [hm])
      refine Discipline.locks_bind (Discipline.locks_bind (Discipline.locks_updateReturning trivial
        (fun _ _ _ _ _ => .again (hkept _ hheld₁)) trivial fun row => ?_))
      exact hpost _ _ _ fun c hc => List.mem_cons_of_mem _ (hkept _ (hjobs c hc))

omit hstands in
/-- A version in `BUILDING` is only read. -/
theorem locks_requireBuildingSnapshot {post : List RowLock → List Write → Uuid → Prop}
    (hpost : ∀ x, post L [] x) :
    Tx.LocksInOrder honours level g env L [] (requireBuildingSnapshot context) post := by
  refine Discipline.locks_bind (Discipline.locks_select fun g₁ _ _ => ?_)
  split
  · split
    · exact Discipline.locks_throw
    · exact hpost _
  · exact Discipline.locks_throw

/-- **The locks of the freeze**: types, upstream series, version, jobs, upstream versions. -/
theorem locks_initializeOrReuseDraftDataset (hinv : Invariant honours g)
    (hlayered : g.db.Layered level) (hvalid : validateImmutableContext context = none)
    {post : List RowLock → List Write → Uuid → Prop}
    (hpost : ∀ L' ws' x, LockFollows level g.db env L'
      (.forUpdate (.calculationJob context.selectedJobId)) → post L' ws' x) :
    Tx.LocksInOrder honours level g env [] [] (initializeOrReuseDraftDataset env context) post := by
  obtain ⟨⟨selected, hselected, hid⟩, hdomains⟩ := of_validateImmutableContext hvalid
  have htypes : ∀ id ∈ context.jobs.map (·.calculationTypeId), ∃ ct,
      g.db.calculationTypes.get? id = some ct ∧ ct.domain = context.outputIdentity.domain := by
    intro id hid
    obtain ⟨c, hc, rfl⟩ := List.mem_map.mp hid
    obtain ⟨ct, hct, hdomain, -⟩ := hstands.types c hc
    exact ⟨ct, hct, hdomain.trans (hdomains c hc)⟩
  refine Discipline.locks_bind (locks_lockCalculationTypes
    (n := 3 * level context.outputIdentity.domain + 1) (fun c hc => ?_) hstands.sorted
    (fun c hc => .inl allBelow_nil) fun L₁ hL₁ _ hheld => ?_)
  · obtain ⟨ct, hct, hdomain, hcode⟩ := hstands.types c hc
    rw [Store.lockRank?_type level hct, hdomain, hcode, hdomains c hc]
    simp [DatasetCalculationJobContext.typeKey, hdomains c hc]
  -- Whatever ranks above the types of the domain ranks above all that is held.
  have hbelow : ∀ r, (∀ k, lockRank 1 (3 * level context.outputIdentity.domain + 1) k < r) →
      AllBelow level g.db env r L₁ := by
    intro r hr m hm
    rcases hL₁ m hm with h | ⟨k, hk⟩
    · cases h
    · exact RowLock.below_of_rank hk (hr k)
  have hheldTypes : ∀ id ∈ context.jobs.map (·.calculationTypeId),
      .forUpdate (.calculationType id) ∈ L₁ := by
    intro id hid
    obtain ⟨c, hc, rfl⟩ := List.mem_map.mp hid
    exact hheld c hc
  refine Discipline.locks_bind (locks_findLatestPublishedDependencyDefinitions hheldTypes ?_)
  dsimp only
  split
  · exact Discipline.locks_throw
  refine Discipline.locks_bind (locks_findRequiredDomains (fun d hd => ?_) ?_)
  · obtain ⟨htype, hlatest⟩ := Store.mem_latestPublishedDefinitions hd
    exact ⟨List.argmax_mem hlatest, hheldTypes _ htype⟩
  -- The required domains are on later levels, each on another one.
  have hlater : ∀ domain ∈ g.db.requiredDomains ((g.db.latestPublishedDefinitions
      (context.jobs.map (·.calculationTypeId))).map (·.id)),
      level context.outputIdentity.domain < level domain :=
    fun domain hd => hlayered _ _ (.requires (Store.requires_of_mem htypes hd))
  refine Discipline.locks_bind (locks_lockUpstreams ?_ (fun requirement hr => ?_)
    (hbelow _ fun k => lockRank_lt_kind (by decide)) fun L₂ found missing hL₂ hsub hfound => ?_)
  · exact List.pairwise_map.mpr (hlayered.sorted htypes)
  · obtain ⟨domain, hd, rfl⟩ := List.mem_map.mp hr
    have := hlater domain hd
    exact hbelow _ fun k => lockRank_lt_place (by dsimp only; omega)
  dsimp only
  split
  · exact Discipline.locks_throw
  refine Discipline.locks_bind (locks_findUpstreamVersions fun versions missing' hversions => ?_)
  dsimp only
  split
  · exact Discipline.locks_throw
  refine Discipline.locks_bind (locks_lockOutputDatasetVersion hinv
    (fun d _ => hL₂.mono (lockRank_le_place (Nat.zero_le _)))
    (fun L' => Discipline.locks_throw) fun d x hd => ?_)
  obtain rfl := Option.some.inj (hd.symm.trans hstands.version)
  have hL₃ : AllBelow level g.db env
      (lockRank 2 (3 * level context.outputIdentity.domain + 1) [])
      (.forUpdate (.datasetVersion context.datasetVersionId) :: L₂) :=
    .cons (RowLock.below_of_rank (Store.lockRank?_version level hd) (lockRank_lt_place (by omega)))
      (hL₂.mono (lockRank_le_place (Nat.zero_le _)))
  dsimp only
  split
  · obtain ⟨hsorted, hlevel⟩ := levels_of_sublist hsub (hlayered.sorted htypes) hlater
    refine locks_freezeDraftBuild hstands List.mem_cons_self hL₃ hversions hfound hsorted hlevel
      fun L' ws' x hjobs => hpost L' ws' x ?_
    -- The freeze has updated all jobs of the version.
    exact hid ▸ .upgrade (hjobs selected hselected)
  · split
    · refine locks_requireBuildingSnapshot fun x => hpost _ _ _ ?_
      exact .next (hL₃.next (hid ▸ hstands.lockRank?_job hselected)) (by simp)
    · exact Discipline.locks_throw

/-- A version that is being built is locked, and nothing else. -/
theorem locks_reuseBuildingDataset (hinv : Invariant honours g)
    (hvalid : validateImmutableContext context = none)
    {post : List RowLock → List Write → Uuid → Prop}
    (hpost : ∀ L' ws' x, LockFollows level g.db env L'
      (.forUpdate (.calculationJob context.selectedJobId)) → post L' ws' x) :
    Tx.LocksInOrder honours level g env [] [] (reuseBuildingDataset context) post := by
  obtain ⟨⟨selected, hselected, hid⟩, -⟩ := of_validateImmutableContext hvalid
  refine Discipline.locks_bind (locks_lockOutputDatasetVersion hinv (fun _ _ => allBelow_nil)
    (fun L' => Discipline.locks_throw) fun d x hd => ?_)
  obtain rfl := Option.some.inj (hd.symm.trans hstands.version)
  dsimp only
  split
  · exact Discipline.locks_throw
  · refine locks_requireBuildingSnapshot fun x => hpost _ _ _ ?_
    have hbelow : AllBelow level g.db env
        (lockRank 2 (3 * level context.outputIdentity.domain + 1) [])
        [.forUpdate (.datasetVersion context.datasetVersionId)] :=
      .cons (RowLock.below_of_rank (Store.lockRank?_version level hd)
        (lockRank_lt_place (by omega))) allBelow_nil
    exact .next (hbelow.next (hid ▸ hstands.lockRank?_job hselected)) (by simp)

end Context

/-! ## The attempt -/

/-- A job that is found, joined with other rows, is asked for; its row may be gone by then. -/
theorem locks_selectJob {α γ : Type} {jobId : Uuid} {joined : Store → Option γ}
    {columns : γ → CalculationJob → α} {post : List RowLock → List Write → Option α → Prop}
    (hfollows : ∀ g₁ x, (discipline honours).Later L g₁ g →
      joined ((machine honours).view g₁.db ws) = some x →
      LockFollows level g.db env L (.forUpdate (.calculationJob jobId)))
    (hnone : ∀ L', post L' ws none)
    (hsome : ∀ x j, j.id = jobId →
      post (.forUpdate (.calculationJob jobId) :: L) ws (some (columns x j))) :
    Tx.LocksInOrder honours level g env L ws
      (.selectJoinForUpdate (.forUpdate (.calculationJob jobId)) joined
        fun x s => (s.calculationJobs.get? jobId).map (columns x)) post := by
  refine Discipline.locks_selectJoinForUpdate (hnone _) fun g₁ x _ hl hx =>
    ⟨hfollows g₁ x hl hx, fun g₂ _ _ => ?_⟩
  cases hj : ((machine honours).view g₂.db ws).calculationJobs.get? jobId with
  | none => exact hnone _
  | some j => exact hsome x j (Table.get?_key hj)

theorem locks_lockSelectedCalculationJob {jobId : Uuid}
    (hfollows : LockFollows level g.db env L (.forUpdate (.calculationJob jobId)))
    {post : List RowLock → List Write → Option LockedSelectedJob → Prop}
    (hnone : ∀ L', post L' ws none)
    (hsome : ∀ x, x.id = jobId → post (.forUpdate (.calculationJob jobId) :: L) ws (some x)) :
    Tx.LocksInOrder honours level g env L ws (lockSelectedCalculationJob jobId) post :=
  locks_selectJob (fun _ _ _ _ => hfollows) hnone fun _ _ hid => hsome _ hid

/-- The attempt is new, and its job is held. -/
theorem locks_insertPreparedExecutionAttempt {n number : ℕ} {jobId : Uuid} {dagId dagRunId : String}
    {post : List RowLock → List Write → Unit → Prop}
    (hheld : .forUpdate (.calculationJob jobId) ∈ L) (hpost : ∀ L' ws', post L' ws' ()) :
    Tx.LocksInOrder honours level g env L ws
      (insertPreparedExecutionAttempt env (env.uuid n) jobId number dagId dagRunId) post :=
  Discipline.locks_bind (Discipline.locks_insertRow (.drawn ⟨n, rfl⟩)
    (Discipline.locks_lock (.again (List.mem_cons_of_mem _ hheld)) (hpost _ _)))

/-- The selected job, then its new attempt. -/
theorem locks_prepareSelectedJobAttempt {context : CalculationRunContext} {snapshotId : Uuid}
    (hfollows : LockFollows level g.db env L
      (.forUpdate (.calculationJob context.selectedJobId))) :
    Tx.LocksInOrder honours level g env L ws (prepareSelectedJobAttempt env context snapshotId)
      fun _ _ _ => True := by
  refine Discipline.locks_bind (locks_lockSelectedCalculationJob hfollows
    (fun _ => Discipline.locks_throw) fun job hid => ?_)
  dsimp only
  split
  · exact Discipline.locks_throw
  split
  · exact Discipline.locks_throw
  refine Discipline.locks_bind (Discipline.locks_select fun g₁ _ _ => ?_)
  split
  · split
    · exact Discipline.locks_throw
    · trivial
  · refine Discipline.locks_bind (Discipline.locks_select fun g₂ _ _ => ?_)
    exact Discipline.locks_bind (locks_insertPreparedExecutionAttempt (hid ▸ List.mem_cons_self)
      fun _ _ => trivial)

/-- **First Run takes its locks in the order of the levels.** -/
theorem locks_prepareCalculationJobRun {jobId : Uuid} (hinv : Invariant honours g)
    (hlayered : g.db.Layered level) :
    Tx.LocksInOrder honours level g env [] [] (prepareCalculationJobRun jobId env)
      fun _ _ _ => True := by
  refine Discipline.locks_bind (locks_loadCalculationRunContext Discipline.locks_throw
    fun context hstands => ?_)
  dsimp only
  split
  · exact Discipline.locks_throw
  · rename_i hvalid
    split
    · exact Discipline.locks_bind (locks_initializeOrReuseDraftDataset hstands hinv hlayered hvalid
        fun _ _ _ hfollows => locks_prepareSelectedJobAttempt hfollows)
    · split
      · exact Discipline.locks_bind (locks_reuseBuildingDataset hstands hinv hvalid
          fun _ _ _ hfollows => locks_prepareSelectedJobAttempt hfollows)
      · exact Discipline.locks_throw

end CostEngine
