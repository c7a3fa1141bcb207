import Mathlib.Data.List.Dedup
import CostEngine.Transaction.Attempts

/-! # First Run: what is resolved before the freeze

The statements of `initializeOrReuseDraftDataset` before the output version is locked. Under
the locks of the types the latest published definitions are those at the end, and under
the locks of the series so are the latest published versions. -/

namespace CostEngine

open Relational (Table)
open Concurrency (Outcome Txn Discipline)

/-! ## Highest-numbered published rows -/

namespace Store

variable {s s' : Store}

/-- `d` is the highest-numbered published definition of the type. -/
structure LatestDefinition (s : Store) (calculationTypeId : Uuid) (d : DependencyDefinition) :
    Prop where
  row : s.dependencyDefinitions.get? d.id = some d
  type : d.calculationTypeId = calculationTypeId
  published : d.status = .published
  highest : ∀ d' ∈ s.publishedDefinitionsOf calculationTypeId, d'.version ≤ d.version

/-- The version is the highest-numbered published one of the series. -/
def LatestVersion (s : Store) (datasetSeriesId datasetVersionId : Uuid) : Prop :=
  ∃ w, s.datasetVersions.get? datasetVersionId = some w
    ∧ w.datasetSeriesId = datasetSeriesId ∧ w.status = .published
    ∧ ∀ w' ∈ s.versionsOf datasetSeriesId, w'.status = .published → w'.version ≤ w.version

/-! ### Definitions and the domains they require -/

theorem mem_publishedDefinitionsOf {calculationTypeId : Uuid} {d : DependencyDefinition} :
    d ∈ s.publishedDefinitionsOf calculationTypeId ↔
      s.dependencyDefinitions.get? d.id = some d ∧ d.calculationTypeId = calculationTypeId
        ∧ d.status = .published := by
  rw [publishedDefinitionsOf, Table.mem_select, Table.mem_rows, decide_eq_true_eq]

theorem latestDefinition_of_eq {calculationTypeId : Uuid} {d : DependencyDefinition}
    (h : s.latestPublishedDefinition? calculationTypeId = some d) :
    s.LatestDefinition calculationTypeId d := by
  have hmem : d ∈ s.publishedDefinitionsOf calculationTypeId := List.argmax_mem h
  obtain ⟨hrow, htype, hpub⟩ := mem_publishedDefinitionsOf.mp hmem
  exact ⟨hrow, htype, hpub, fun d' hd' => List.le_of_mem_argmax hd' h⟩

/-- What the lock of a type fixes decides the latest definition. -/
theorem latestPublishedDefinition?_congr {calculationTypeId : Uuid}
    (h : (Row.calculationType calculationTypeId).Same s s') :
    s'.latestPublishedDefinition? calculationTypeId
      = s.latestPublishedDefinition? calculationTypeId := by
  unfold latestPublishedDefinition?
  rw [h.2]

theorem mem_latestPublishedDefinitions {calculationTypeIds : List Uuid}
    {d : DependencyDefinition} (h : d ∈ s.latestPublishedDefinitions calculationTypeIds) :
    d.calculationTypeId ∈ calculationTypeIds
      ∧ s.latestPublishedDefinition? d.calculationTypeId = some d := by
  obtain ⟨id, hid, hd⟩ := List.mem_filterMap.mp h
  rw [(latestDefinition_of_eq hd).type]
  exact ⟨List.mem_dedup.mp (mem_orderBy.mp hid), hd⟩

theorem mem_requiredDomains {ids : List Uuid} {domain : String} :
    domain ∈ s.requiredDomains ids ↔ ∃ id ∈ ids, domain ∈ s.requiredDomainsOf id := by
  unfold requiredDomains requiredDomainsOf
  simp only [mem_orderBy, List.mem_dedup, List.mem_flatMap]

theorem requiredDomains_nodup (ids : List Uuid) : (s.requiredDomains ids).Nodup :=
  (orderBy_perm _ _).nodup_iff.mpr (List.nodup_dedup _)

/-! ### Versions under the lock of their series -/

/-- The latest version is a matter of what the lock of its series fixes. -/
theorem latestVersion_of_eq {datasetSeriesId : Uuid} {w : DatasetVersion}
    (hs : (Row.datasetSeries datasetSeriesId).Same s s')
    (h : s.latestPublishedVersion? datasetSeriesId = some w) :
    s'.LatestVersion datasetSeriesId w.id := by
  have hvisible : (s'.versionsOf datasetSeriesId).map DatasetVersion.visible
      = (s.versionsOf datasetSeriesId).map DatasetVersion.visible := hs.2
  have hmem := List.argmax_mem h
  rw [List.mem_filter, decide_eq_true_eq] at hmem
  -- Either state shows the published versions of the other, with their numbers.
  have hback : ∀ t t' : Store, (t'.versionsOf datasetSeriesId).map DatasetVersion.visible
      = (t.versionsOf datasetSeriesId).map DatasetVersion.visible →
      ∀ x ∈ t.versionsOf datasetSeriesId, x.status = .published →
        ∃ y ∈ t'.versionsOf datasetSeriesId, y.id = x.id ∧ y.version = x.version
          ∧ y.status = .published := by
    intro t t' ht x hx hp
    have hkey : x.visible ∈ (t'.versionsOf datasetSeriesId).map DatasetVersion.visible :=
      ht ▸ List.mem_map_of_mem hx
    obtain ⟨y, hy, hxy⟩ := List.mem_map.mp hkey
    have hxy : y.id = x.id ∧ y.datasetSeriesId = x.datasetSeriesId ∧ y.version = x.version
        ∧ y.status.isActive = x.status.isActive ∧ (y.status = .published ↔ x.status = .published) := by
      simpa [DatasetVersion.visible] using hxy
    exact ⟨y, hy, hxy.1, hxy.2.2.1, hxy.2.2.2.2.mpr hp⟩
  obtain ⟨y, hy, hid, hversion, hpub⟩ := hback s s' hvisible w hmem.1 hmem.2
  obtain ⟨hget, hseries⟩ := mem_versionsOf.mp hy
  refine ⟨y, hid ▸ hget, hseries, hpub, fun w' hw' hp => ?_⟩
  obtain ⟨x, hx, -, hxv, hxp⟩ := hback s' s hvisible.symm w' hw' hp
  rw [hversion, ← hxv]
  refine List.le_of_mem_argmax (List.mem_filter.mpr ⟨hx, by simpa using hxp⟩) h

end Store

/-! ## The statements -/

variable {honours : Prop} {g fl : Moment} {L : List RowLock}

/-! ### Locking the types -/

/-- The types of the jobs are what they were when the jobs were listed. -/
theorem wp_lockCalculationTypes {datasetVersionId : Uuid}
    {jobs : List DatasetCalculationJobContext} {post : Ended Unit → Prop}
    (hle : Moment.Grows fl g)
    (hjobs : ∀ job ∈ jobs, ∃ ct, fl.db.calculationTypes.get? job.calculationTypeId = some ct
      ∧ ct.domain = job.calculationTypeDomain ∧ ct.code = job.calculationTypeCode)
    (hpost : ∀ seen last L', Moment.Grows fl last → Moment.Grows last g →
      (∀ r : Row, r.Held L → r.Held L') →
      (∀ job ∈ jobs, Row.Held (.calculationType job.calculationTypeId) L') →
      post ⟨seen, last, .ok (), L', []⟩) :
    (discipline honours).Wp g fl L [] (lockCalculationTypes datasetVersionId jobs) post := by
  induction jobs generalizing fl L post with
  | nil => exact Discipline.wp_pure (hpost _ _ _ .refl hle (fun _ h => h) (by simp))
  | cons job jobs ih =>
      obtain ⟨ct, hct, hdomain, hcode⟩ := hjobs job List.mem_cons_self
      refine Discipline.wp_bind (Discipline.wp_selectForUpdate ?_ ?_ ?_)
      · intro g₁ hl
        have hsame := (later_same hl Row.held_forUpdate).1
        exact (congrArg (Option.map _) hsame).symm
      · intro g₁ hle₁ _ _ hn
        obtain ⟨ct', hct', -⟩ := hle₁.db.type hct
        simp [hct'] at hn
      · intro g₁ _ last hle₀ _ hle₁ hl₁
        have hle₁ : Moment.Grows fl last := Moment.Grows.trans hle₀ hle₁
        obtain ⟨ct', hct', hdomain', hcode'⟩ := hle.db.type hct
        have hct' : ((machine honours).view g.db []).calculationTypes.get? job.calculationTypeId
            = some ct' := hct'
        rw [Discipline.continues_ok, hct']
        dsimp only [Option.map]
        rw [if_neg (by simp [hdomain', hdomain, hcode', hcode])]
        -- Domain and code of a type are fixed, so the comparison with the job succeeds.
        refine ih hl₁.le ?_ ?_
        · intro job' hjob'
          obtain ⟨ct₂, hct₂, hd₂, hc₂⟩ := hjobs job' (List.mem_cons_of_mem _ hjob')
          obtain ⟨ct₃, hct₃, hd₃, hc₃⟩ := hle₁.db.type hct₂
          exact ⟨ct₃, hct₃, hd₃.trans hd₂, hc₃.trans hc₂⟩
        · intro seen₂ last₂ L' hle₂ hg₂ hL hheld
          refine hpost _ _ L' (Moment.Grows.trans hle₁ hle₂) hg₂ (fun r hr => hL r hr.cons) ?_
          intro job' hjob'
          rcases List.mem_cons.mp hjob' with rfl | hjob'
          · exact hL _ Row.held_forUpdate
          · exact hheld job' hjob'

/-! ### Definitions and required domains -/

theorem wp_findLatestPublishedDependencyDefinitions {ids : List Uuid}
    {post : Ended (List DependencyDefinition) → Prop}
    (hheld : ∀ id ∈ ids, Row.Held (.calculationType id) L)
    (hpost : ∀ last, Moment.Grows fl last → (discipline honours).Later L last g →
      (∀ d ∈ g.db.latestPublishedDefinitions ids, last.db.dependencyDefinitions.get? d.id = some d
        ∧ d.status = .published) →
      post ⟨[last], last, .ok (g.db.latestPublishedDefinitions ids), L, []⟩) :
    (discipline honours).Wp g fl L [] (findLatestPublishedDependencyDefinitions ids) post := by
  refine Discipline.wp_select fun g₁ hle _ hl => ?_
  -- The definitions of a type that is locked are those at the end.
  have hsame : g₁.db.latestPublishedDefinitions ids = g.db.latestPublishedDefinitions ids := by
    unfold Store.latestPublishedDefinitions
    refine List.filterMap_congr fun id hid => ?_
    have hid := List.mem_dedup.mp (mem_orderBy.mp hid)
    exact (Store.latestPublishedDefinition?_congr (later_same hl (hheld id hid))).symm
  rw [Concurrency.Machine.view_nil, hsame]
  refine hpost g₁ hle hl fun d hd => ?_
  rw [← hsame] at hd
  have hlatest := Store.latestDefinition_of_eq (Store.mem_latestPublishedDefinitions hd).2
  exact ⟨hlatest.row, hlatest.published⟩

/-- Published definitions require what they required. -/
theorem wp_findRequiredDomains {definitions : List DependencyDefinition}
    {post : Ended (List String) → Prop} (hle : Moment.Grows fl g)
    (hdefinitions : ∀ d ∈ definitions, fl.db.dependencyDefinitions.get? d.id = some d
      ∧ d.status = .published)
    (hpost : ∀ last, Moment.Grows fl last → (discipline honours).Later L last g →
      post ⟨[last], last, .ok (g.db.requiredDomains (definitions.map (·.id))), L, []⟩) :
    (discipline honours).Wp g fl L [] (findRequiredDomains (definitions.map (·.id))) post := by
  refine Discipline.wp_select fun g₁ hle₁ _ hl => ?_
  have hsame : g₁.db.requiredDomains (definitions.map (·.id))
      = g.db.requiredDomains (definitions.map (·.id)) := by
    unfold Store.requiredDomains
    congr 2
    rw [List.flatMap_map, List.flatMap_map]
    refine List.flatMap_congr fun d hd => ?_
    -- Published definitions neither leave nor change.
    obtain ⟨hrow, hpub⟩ := hdefinitions d hd
    rw [(hle₁.db.definitions d.id d hrow hpub).2, (hle.db.definitions d.id d hrow hpub).2]
  rw [Concurrency.Machine.view_nil, hsame]
  exact hpost g₁ hle₁ hl

/-! ### The upstream series -/

theorem seriesWith?_eq_some {s : Store} {identity : SeriesIdentity} {r : DatasetSeries}
    (h : s.seriesWith? identity = some r) :
    s.datasetSeries.get? r.id = some r ∧ r.identity = identity := by
  refine ⟨Table.get?_of_mem (List.mem_of_find?_eq_some h), ?_⟩
  simpa using List.find?_some h

/-- A series that is found is locked, and keeps its identity. -/
theorem wp_lockUpstreamDatasetSeries {requirement : SeriesIdentity}
    {post : Ended (Option DatasetSeries) → Prop}
    (hnone : ∀ seen last, Moment.Grows fl last → Moment.Grows last g →
      post ⟨seen, last, .ok none, L, []⟩)
    (hsome : ∀ seen last r, Moment.Grows fl last → Moment.Grows last g →
      g.db.datasetSeries.get? r.id = some r → r.identity = requirement →
      post ⟨seen, last, .ok (some r), .forUpdate (.datasetSeries r.id) :: L, []⟩) :
    (discipline honours).Wp g fl L [] (lockUpstreamDatasetSeries requirement) post := by
  refine Discipline.wp_bind (Discipline.wp_select fun g₁ hle₁ _ hl₁ => ?_)
  rw [Discipline.continues_ok, Concurrency.Machine.view_nil]
  cases hr : g₁.db.seriesWith? requirement with
  | none => exact Discipline.wp_pure (hnone _ g₁ hle₁ hl₁.le)
  | some r =>
      obtain ⟨hrow, hid⟩ := seriesWith?_eq_some hr
      refine Discipline.wp_bind (Discipline.wp_lock fun g₂ hle₂ _ => ?_)
      rw [Discipline.continues_ok]
      refine Discipline.wp_select fun g₃ hle₃ _ hl₃ => ?_
      -- The counter of the series may have moved before it was locked.
      obtain ⟨r', hr', hid'⟩ := hl₁.le.db.seriesRow hrow
      have hsame : g₃.db.datasetSeries.get? r.id = some r' :=
        (later_same hl₃ Row.held_forUpdate).1.symm.trans hr'
      have hkey : r'.id = r.id := Table.get?_key hr'
      have hle₁₃ : Moment.Grows fl g₃ := hle₁.trans (Moment.Grows.trans hle₂ hle₃)
      have := hsome ([g₁] ++ ([] ++ [g₃])) g₃ r' hle₁₃ hl₃.le (hkey.symm ▸ hr') (hid'.trans hid)
      rw [hkey] at this
      rw [Concurrency.Machine.view_nil, hsame]
      exact this

theorem wp_lockUpstreams {requirements : List SeriesIdentity}
    {post : Ended (List DatasetSeries × List String) → Prop} (hle : Moment.Grows fl g)
    (hpost : ∀ seen last L' found missing, Moment.Grows fl last → Moment.Grows last g →
      (∀ r : Row, r.Held L → r.Held L') →
      (∀ r ∈ found, g.db.datasetSeries.get? r.id = some r ∧ Row.Held (.datasetSeries r.id) L') →
      (missing = [] → found.map (·.identity) = requirements) →
      post ⟨seen, last, .ok (found, missing), L', []⟩) :
    (discipline honours).Wp g fl L [] (lockUpstreams requirements) post := by
  induction requirements generalizing fl L post with
  | nil =>
      exact Discipline.wp_pure (hpost _ _ _ _ _ .refl hle (fun _ h => h) (by simp) fun _ => rfl)
  | cons requirement rest ih =>
      refine Discipline.wp_bind (wp_lockUpstreamDatasetSeries ?_ ?_)
      · -- A domain without a series is missing, and then nothing is claimed of the rest.
        intro seen₁ last₁ hle₁ hg₁
        rw [Discipline.continues_ok]
        refine Discipline.wp_bind (ih hg₁ fun seen₂ last₂ L' found missing hle₂ hg₂ hL hfound _ => ?_)
        rw [Discipline.continues_ok]
        exact Discipline.wp_pure (hpost _ _ L' found _ (hle₁.trans hle₂) hg₂ hL hfound
          fun h => (by cases h))
      · intro seen₁ last₁ r hle₁ hg₁ hr hid
        rw [Discipline.continues_ok]
        refine Discipline.wp_bind
          (ih hg₁ fun seen₂ last₂ L' found missing hle₂ hg₂ hL hfound hids => ?_)
        rw [Discipline.continues_ok]
        refine Discipline.wp_pure (hpost _ _ L' (r :: found) missing (hle₁.trans hle₂) hg₂
          (fun r' hr' => hL r' hr'.cons) ?_ ?_)
        · intro r' hr'
          rcases List.mem_cons.mp hr' with rfl | hr'
          · exact ⟨hr, hL _ Row.held_forUpdate⟩
          · exact hfound r' hr'
        · intro hm
          rw [List.map_cons, hids hm, hid]

/-! ### The upstream versions -/

theorem wp_findUpstreamVersions {series : List DatasetSeries}
    {post : Ended (List PublishedUpstreamVersion × List String) → Prop}
    (hle : Moment.Grows fl g) (hheld : ∀ r ∈ series, Row.Held (.datasetSeries r.id) L)
    (hpost : ∀ seen last found missing, Moment.Grows fl last → Moment.Grows last g →
      (∀ p ∈ found, g.db.LatestVersion p.datasetSeriesId p.datasetVersionId) →
      (missing = [] → ∀ r ∈ series, ∃ p ∈ found, p.datasetSeriesId = r.id) →
      post ⟨seen, last, .ok (found, missing), L, []⟩) :
    (discipline honours).Wp g fl L [] (findUpstreamVersions series) post := by
  induction series generalizing fl post with
  | nil => exact Discipline.wp_pure (hpost _ _ _ _ .refl hle (by simp) (by simp))
  | cons r series ih =>
      refine Discipline.wp_bind (Discipline.wp_select fun g₁ hle₁ _ hl₁ => ?_)
      rw [Discipline.continues_ok, Concurrency.Machine.view_nil]
      refine Discipline.wp_bind (ih hl₁.le (fun r' hr' => hheld r' (List.mem_cons_of_mem _ hr'))
        fun seen₂ last₂ found missing hle₂ hg₂ hfound hall => ?_)
      rw [Discipline.continues_ok]
      have hle₂ : Moment.Grows fl last₂ := Moment.Grows.trans hle₁ hle₂
      cases hw : g₁.db.latestPublishedVersion? r.id with
      | none => exact Discipline.wp_pure (hpost _ _ found _ hle₂ hg₂ hfound fun h => (by cases h))
      | some w =>
          -- The version found is one of the series, which is locked.
          have hseries : w.datasetSeriesId = r.id := by
            have := List.mem_of_mem_filter (List.argmax_mem hw)
            exact (Store.mem_versionsOf.mp this).2
          have hlatest := Store.latestVersion_of_eq
            (later_same hl₁ (hheld r List.mem_cons_self)) hw
          refine Discipline.wp_pure (hpost _ _ (_ :: found) missing hle₂ hg₂ ?_ ?_)
          · intro p hp
            rcases List.mem_cons.mp hp with rfl | hp
            · show g.db.LatestVersion w.datasetSeriesId w.id
              rw [hseries]
              exact hlatest
            · exact hfound p hp
          · intro hm r' hr'
            rcases List.mem_cons.mp hr' with rfl | hr'
            · exact ⟨_, List.mem_cons_self, hseries⟩
            · obtain ⟨p, hp, hpr⟩ := hall hm r' hr'
              exact ⟨p, List.mem_cons_of_mem _ hp, hpr⟩

end CostEngine
