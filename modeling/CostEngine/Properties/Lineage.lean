import CostEngine.Graph.Sources
import CostEngine.Properties.Freezing
import CostEngine.Properties.FrozenInputs
import CostEngine.System.Snapshots

/-! # The lineage of a version

The snapshot of a version pins one published version of each upstream series. Pins are set
when a version leaves `DRAFT` and only point to versions that are `PUBLISHED` by then, so
following them ends, and what a version was built from stays what it is. -/

namespace CostEngine

open Relational (Table)
open Relation (TransGen)
open Concurrency (play)

variable {honours : Prop} {st st' : System}

/-- The snapshot of the version `id` pins the version `upstream`. -/
def Store.Pins (s : Store) (id upstream : Uuid) : Prop :=
  ∃ b ∈ s.snapshotsOf id, ∃ d ∈ s.dependenciesOf b.id, d.upstreamDatasetVersionId = upstream

instance (s : Store) (id upstream : Uuid) : Decidable (s.Pins id upstream) :=
  inferInstanceAs (Decidable (∃ b ∈ s.snapshotsOf id, ∃ d ∈ s.dependenciesOf b.id,
    d.upstreamDatasetVersionId = upstream))

/-- Same company, fiscal year and period. -/
def SeriesIdentity.SamePeriod (x y : SeriesIdentity) : Prop := y = { x with domain := y.domain }

/-- What `id` was built from, directly or not. -/
structure Store.BuiltFrom (s : Store) (id upstream : Uuid) : Prop where
  published : ∃ u, s.datasetVersions.get? upstream = some u ∧ u.status = .published
  period : ∃ v r u q, s.datasetVersions.get? id = some v
    ∧ s.datasetSeries.get? v.datasetSeriesId = some r
    ∧ s.datasetVersions.get? upstream = some u ∧ s.datasetSeries.get? u.datasetSeriesId = some q
    ∧ r.identity.SamePeriod q.identity

/-! ## One state and a later one -/

namespace Store

variable {s s' : Store} {id upstream other : Uuid}

/-- A published version stays as it is. -/
theorem Grows.published (hg : s.Grows s') {u : DatasetVersion}
    (hu : s.datasetVersions.get? id = some u) (hpublished : u.status = .published) :
    s'.datasetVersions.get? id = some u := by
  obtain ⟨u', hu', hsu⟩ := hg.version hu
  rw [version_final hsu (by rw [hpublished]; rfl)] at hu'
  exact hu'

theorem BuiltFrom.grows (h : s.BuiltFrom id upstream) (hg : s.Grows s') :
    s'.BuiltFrom id upstream := by
  obtain ⟨u, hu, hpublished⟩ := h.published
  obtain ⟨v, r, u', q, hv, hr, hu', hq, hperiod⟩ := h.period
  obtain rfl := Option.some.inj (hu.symm.trans hu')
  obtain ⟨v', hv', hsv⟩ := hg.version hv
  obtain ⟨r', hr', hrid⟩ := hg.seriesRow hr
  obtain ⟨q', hq', hqid⟩ := hg.seriesRow hq
  have hu' := hg.published hu hpublished
  refine ⟨⟨u, hu', hpublished⟩, v', r', u, q', hv', ?_, hu', hq', ?_⟩
  · rw [(version_columns hsv).2.1]
    exact hr'
  · rw [hrid, hqid]
    exact hperiod

theorem BuiltFrom.trans (h : s.BuiltFrom id upstream) (h' : s.BuiltFrom upstream other) :
    s.BuiltFrom id other := by
  obtain ⟨v, r, u, q, hv, hr, hu, hq, hperiod⟩ := h.period
  obtain ⟨u', q', w, p, hu', hq', hw, hp, hperiod'⟩ := h'.period
  obtain rfl := Option.some.inj (hu.symm.trans hu')
  obtain rfl := Option.some.inj (hq.symm.trans hq')
  refine ⟨h'.published, v, r, w, p, hv, hr, hw, hp, ?_⟩
  unfold SeriesIdentity.SamePeriod at *
  rw [hperiod', hperiod]

/-- What has been pinned by a version stays pinned, and nothing is added. -/
theorem pins_grows (hg : s.Grows s') (hid : s.snapshotsOf id ≠ []) :
    s'.Pins id upstream ↔ s.Pins id upstream := by
  have hkept : ∀ b ∈ s.snapshotsOf id, s'.dependenciesOf b.id = s.dependenciesOf b.id :=
    fun b hb => hg.dependenciesOf _ (Table.row_ne_none (mem_snapshotsOf.mp hb).1)
  unfold Pins
  rw [hg.snapshotsOf id hid]
  constructor
  · rintro ⟨b, hb, d, hd, hup⟩
    exact ⟨b, hb, d, hkept b hb ▸ hd, hup⟩
  · rintro ⟨b, hb, d, hd, hup⟩
    exact ⟨b, hb, d, (hkept b hb).symm ▸ hd, hup⟩

theorem Pins.snapshotsOf_ne_nil (h : s.Pins id upstream) : s.snapshotsOf id ≠ [] := by
  obtain ⟨b, hb, -⟩ := h
  exact List.ne_nil_of_mem hb

end Store

/-! ## One step -/

/-- A pin was there before the step, or the step freezes the version, from a published one of
its own period. -/
theorem Reachable.pins_step (h : Reachable honours st) (hs : (machine honours).Step st st')
    {id upstream : Uuid} (hp : st'.shared.db.Pins id upstream) :
    st.shared.db.Pins id upstream
      ∨ st.shared.db.Freezes st'.shared.db id ∧ st'.shared.db.BuiltFrom id upstream := by
  have hg := (h.grows (.step (.refl _) hs)).db
  by_cases hid : st.shared.db.snapshotsOf id = []
  swap
  · exact .inl ((Store.pins_grows hg hid).mp hp)
  obtain ⟨b, hb, d, hd, rfl⟩ := hp
  have hnew : st.shared.db.datasetBuildSnapshots.get? b.id = none := by
    by_contra hne
    obtain ⟨c, hc⟩ := Option.ne_none_iff_exists'.mp hne
    obtain ⟨hrow, howner⟩ := Store.mem_snapshotsOf.mp hb
    obtain rfl := Option.some.inj ((hg.snapshots _ c hc).symm.trans hrow)
    have hmem : c ∈ st.shared.db.snapshotsOf id := Store.mem_snapshotsOf.mpr ⟨hc, howner⟩
    rw [hid] at hmem
    cases hmem
  have hf := h.freezes_of_snapshot hs hb hnew
  refine .inr ⟨hf, ?_⟩
  obtain ⟨v, r, b', hv, hr, hlatest⟩ := h.freezesLatest hs id hf
  rw [hlatest.snapshot, List.mem_singleton] at hb
  subst hb
  obtain ⟨q, hq, hperiod, -, u, hu, hseries, hpublished, -⟩ := hlatest.rows d hd
  exact ⟨⟨u, hu, hpublished⟩, v, r, u, q, hv, hr, hu, hseries ▸ hq, hperiod⟩

/-! ## A run -/

/-- The invariant: pins end, and they lead to published versions of the same period. -/
structure Store.Lineage (s : Store) : Prop where
  built : ∀ id upstream, s.Pins id upstream → s.BuiltFrom id upstream
  wellFounded : WellFounded fun upstream id => s.Pins id upstream

theorem Store.Lineage.closure {s : Store} (h : s.Lineage) {id upstream : Uuid}
    (hpins : TransGen s.Pins id upstream) : s.BuiltFrom id upstream := by
  induction hpins with
  | single hp => exact h.built _ _ hp
  | tail _ hp ih => exact ih.trans (h.built _ _ hp)

theorem Reachable.lineage_step (h : Reachable honours st) (hs : (machine honours).Step st st')
    (hl : st.shared.db.Lineage) : st'.shared.db.Lineage := by
  have hg := (h.grows (.step (.refl _) hs)).db
  have hbuilt : ∀ id upstream, st'.shared.db.Pins id upstream →
      st'.shared.db.BuiltFrom id upstream := by
    intro id upstream hp
    rcases h.pins_step hs hp with hold | ⟨-, hnew⟩
    · exact (hl.built _ _ hold).grows hg
    · exact hnew
  refine ⟨hbuilt, Graph.wellFounded_of_sources hl.wellFounded fun {id upstream} hp => ?_⟩
  refine (h.pins_step hs hp).imp_right fun hnew other hother => ?_
  -- Nobody pins a version that is only now being built.
  obtain ⟨hf, -⟩ := hnew
  obtain ⟨u, hu, hpublished⟩ := (hbuilt _ _ hother).published
  obtain ⟨v, v', hv, hdraft, hv', hbuilding⟩ := hf
  obtain rfl := Option.some.inj (hu.symm.trans hv')
  rw [hpublished] at hbuilding
  cases hbuilding

theorem Initial.lineage (h : Initial st) : st.shared.db.Lineage := by
  have hnone : ∀ id upstream, ¬ st.shared.db.Pins id upstream := by
    cases h
    rintro id upstream ⟨b, hb, -⟩
    cases hb
  refine ⟨fun id upstream hp => absurd hp (hnone _ _), ⟨fun id => ⟨id, fun upstream hp => ?_⟩⟩⟩
  exact absurd hp (hnone _ _)

theorem Reachable.lineage (h : Reachable honours st) : st.shared.db.Lineage := by
  obtain ⟨st₀, h₀, hrun⟩ := h
  induction hrun with
  | refl => exact h₀.lineage
  | step hr hs ih => exact Reachable.lineage_step ⟨_, h₀, hr⟩ hs ih

/-- What pins a version that is out of `DRAFT` has, it keeps, and it gets no other. -/
theorem Reachable.pins_kept (h : Reachable honours st) (hr : (machine honours).Run st st')
    {id upstream : Uuid} {v : DatasetVersion} (hv : st.shared.db.datasetVersions.get? id = some v)
    (hout : v.status ≠ .draft) :
    st'.shared.db.Pins id upstream ↔ st.shared.db.Pins id upstream := by
  induction hr with
  | refl => exact Iff.rfl
  | @step st₁ st₂ hr hs ih =>
      have hmid := h.run hr
      rw [← ih]
      constructor
      · intro hp
        rcases hmid.pins_step hs hp with hold | ⟨hf, -⟩
        · exact hold
        · -- Only a draft is frozen.
          obtain ⟨w, hw, hsteps⟩ := (h.grows hr).db.version hv
          obtain ⟨w', -, hw', hdraft, -⟩ := hf
          obtain rfl := Option.some.inj (hw.symm.trans hw')
          exact absurd hdraft (version_not_draft hsteps hout)
      · intro hp
        have hg := (hmid.grows (.step (.refl _) hs)).db
        exact (Store.pins_grows hg hp.snapshotsOf_ne_nil).mpr hp

/-- What a version that is out of `DRAFT` was built from is the same in both states. -/
theorem Reachable.lineage_kept (h : Reachable honours st) (hr : (machine honours).Run st st')
    {id upstream : Uuid} {v : DatasetVersion} (hv : st.shared.db.datasetVersions.get? id = some v)
    (hout : v.status ≠ .draft) :
    TransGen st'.shared.db.Pins id upstream ↔ TransGen st.shared.db.Pins id upstream := by
  refine Graph.transGen_congr (P := fun id => ∃ v, st.shared.db.datasetVersions.get? id = some v
    ∧ v.status ≠ .draft) ?_ ?_ ⟨v, hv, hout⟩
  · intro id upstream _ hp
    obtain ⟨u, hu, hpublished⟩ := (h.lineage.built _ _ hp).published
    exact ⟨u, hu, by rw [hpublished]; decide⟩
  · rintro id upstream ⟨w, hw, hout⟩
    exact h.pins_kept hr hw hout

/-! ## The property -/

/-- **The lineage of a version is acyclic, published and final**: following the pins of a
version ends, all they lead to is `PUBLISHED` and of the version's own company, year and
period, once it has left `DRAFT` they lead to the same rows in every later state, and the
upstream versions that a dispatch names are among them. -/
theorem lineage_final (h : Reachable honours st) :
    (WellFounded fun upstream id => st.shared.db.Pins id upstream)
    ∧ (∀ id upstream, TransGen st.shared.db.Pins id upstream →
        st.shared.db.BuiltFrom id upstream)
    ∧ (∀ st' id upstream v, (machine honours).Run st st' →
        st.shared.db.datasetVersions.get? id = some v → v.status ≠ .draft →
        (TransGen st'.shared.db.Pins id upstream ↔ TransGen st.shared.db.Pins id upstream)
          ∧ (TransGen st.shared.db.Pins id upstream →
              st'.shared.db.datasetVersions.get? upstream
                = st.shared.db.datasetVersions.get? upstream))
    ∧ ∀ c ∈ st.shared.world.sent, ∀ f ∈ c.upstreamDatasetVersions,
        st.shared.db.Pins c.datasetVersionId f.datasetVersionId := by
  refine ⟨h.lineage.wellFounded, fun id upstream => h.lineage.closure,
    fun st' id upstream v hr hv hout => ⟨h.lineage_kept hr hv hout, fun hpins => ?_⟩,
    fun c hc f hf => ?_⟩
  · obtain ⟨u, hu, hpublished⟩ := (h.lineage.closure hpins).published
    rw [hu]
    exact (h.grows hr).db.published hu hpublished
  · have hinputs := (h.invariant.sent c hc).frozenInputs
    obtain ⟨b, hb, hbid⟩ := hinputs.snapshot
    obtain ⟨row, hrow, -, hversion, -⟩ := hinputs.rows f hf
    exact ⟨b, by rw [hb]; exact List.mem_singleton_self b, row, hbid ▸ hrow, hversion⟩

theorem lineage_final_chained : ∃ S, play (machine False) (Script.chained False)
    SystemStage.chained = some S
      ∧ SystemStage.statuses S = ([.published, .building], [.succeeded, .pending],
          [.succeeded, .dispatching])
      ∧ S.shared.db.Pins "w1" "v1" ∧ S.shared.db.BuiltFrom "w1" "v1" := by
  obtain ⟨S, hS, hp⟩ := exists_of_play (p := fun S => decide (SystemStage.statuses S
      = ([.published, .building], [.succeeded, .pending], [.succeeded, .dispatching])
        ∧ S.shared.db.Pins "w1" "v1"))
    (show (play (machine False) (Script.chained False) SystemStage.chained).any _ = true by
      decide +kernel)
  obtain ⟨hstatuses, hpins⟩ := of_decide_eq_true hp
  exact ⟨S, hS, hstatuses, hpins,
    (lineage_final (.of_play SystemStage.chained_initial hS)).2.1 _ _ (.single hpins)⟩

end CostEngine
