import CostEngine.System.Scripts
import CostEngine.System.Writers

/-! # Allocating the numbers of versions -/

namespace CostEngine

open Relational (Table)
open Concurrency (play Active)

variable {honours : Prop} {st st' : System}

/-! ## The rows -/

/-- A version of the identity has been committed. -/
def Store.HasVersion (s : Store) (identity : SeriesIdentity) : Prop :=
  ∃ id v r, s.datasetVersions.get? id = some v
    ∧ s.datasetSeries.get? v.datasetSeriesId = some r ∧ r.identity = identity

/-- One series for each identity that has a version, with the versions `1..n` in the order
they were created, and at most one of them active. -/
structure Store.Allocated (s : Store) : Prop where
  series : ∀ identity, s.HasVersion identity →
    ∃! id, ∃ r, s.datasetSeries.get? id = some r ∧ r.identity = identity
  numbered : ∀ id r, s.datasetSeries.get? id = some r →
    (s.versionsOf id).map (·.version) = List.range' 1 r.lastAllocatedVersion
  active : ∀ id, ∀ v ∈ s.versionsOf id, ∀ w ∈ s.versionsOf id,
    v.status.isActive = true → w.status.isActive = true → v = w

theorem Store.HasVersion.grows {s s' : Store} {identity : SeriesIdentity}
    (h : s.HasVersion identity) (hg : s.Grows s') : s'.HasVersion identity := by
  obtain ⟨id, v, r, hv, hr, rfl⟩ := h
  obtain ⟨v', hv', hs⟩ := hg.version hv
  obtain ⟨r', hr', hidentity⟩ := hg.seriesRow hr
  exact ⟨id, v', r', hv', (version_columns hs).2.1.symm ▸ hr', hidentity⟩

theorem Store.Consistent.allocated {s : Store} (h : s.Consistent) : s.Allocated := by
  refine ⟨fun identity hversion => ?_, h.series.numbered, fun id v hv w hw hav haw => ?_⟩
  · obtain ⟨id, v, r, -, hr, rfl⟩ := hversion
    exact ⟨v.datasetSeriesId, ⟨r, hr, rfl⟩, fun id' ⟨r', hr', he⟩ =>
      h.series.identity id' v.datasetSeriesId r' r hr' hr he⟩
  · obtain ⟨hv, hvs⟩ := Store.mem_versionsOf.mp hv
    obtain ⟨hw, hws⟩ := Store.mem_versionsOf.mp hw
    have hid := h.series.active v.id w.id v w hv hw (hvs.trans hws.symm) hav haw
    rw [hid, hw] at hv
    exact (Option.some.inj hv).symm

/-! ## A creation -/

/-- A creation that committed: the version of the result with its jobs, one for each type
that was active in a state `g₁` that the transaction saw. -/
structure CreatesVersion (input : SeriesIdentity) (result : CreateDatasetVersionResult)
    (seen : List Moment) (s s' : Store) : Prop where
  fresh : s.datasetVersions.get? result.datasetVersionId = none
  row : ∃ v r, s'.datasetVersions.get? result.datasetVersionId = some v ∧ v.status = .draft
    ∧ v.version = result.version ∧ s'.datasetSeries.get? v.datasetSeriesId = some r
    ∧ r.identity = input ∧ r.lastAllocatedVersion = result.version
  pending : ∀ j ∈ s'.jobsOf result.datasetVersionId, j.status = .pending
  types : ∃ g₁ ∈ seen, (s'.jobsOf result.datasetVersionId).map (·.calculationTypeId)
    = (g₁.db.activeCalculationTypes input.domain).map (·.id)
  nodup : ((s'.jobsOf result.datasetVersionId).map (·.calculationTypeId)).Nodup
  domain : ∀ j ∈ s'.jobsOf result.datasetVersionId, ∃ ct,
    s'.calculationTypes.get? j.calculationTypeId = some ct ∧ ct.domain = input.domain

theorem Created.createsVersion {input : SeriesIdentity} {g : Moment}
    {o : Ended CreateDatasetVersionResult} {r : DatasetSeries} {v : DatasetVersion}
    {jobs : List CalculationJob} {pre : List Write} (h : Created honours input g o r v jobs pre)
    (hinv : Invariant honours g) {result : CreateDatasetVersionResult}
    (hr : o.result = .ok result) :
    CreatesVersion input result o.seen g.db (o.writes.foldl Store.apply g.db) := by
  obtain ⟨-, hv, hversion, -, -⟩ := h.result result hr
  have hjobs := h.jobsOf hinv
  have hd := h.draft
  have hseries : (o.writes.foldl Store.apply g.db).datasetSeries.get? r.id
      = some r.allocated := by
    rw [h.writes, List.foldl_append, Store.foldl_creation]
    refine Table.get?_put.trans ?_
    have hrow : (pre.foldl Store.apply g.db).datasetSeries.get? r.id = some r := hd.series
    rw [if_pos (show r.allocated.id = r.id from rfl), hrow]
    rfl
  obtain ⟨series₀, hs₀⟩ := h.series.others g.db
  rw [hs₀] at hd
  have hfresh : g.db.datasetVersions.get? v.id = none := hd.fresh
  obtain ⟨series, hs⟩ := h.store
  have hrow : (o.writes.foldl Store.apply g.db).datasetVersions.get? v.id = some v := by
    rw [hs]
    exact (Table.get?_insert hfresh).trans (if_pos rfl)
  rw [← hv] at hjobs hrow hfresh
  refine ⟨hfresh, ⟨v, r.allocated, hrow, hd.status, hversion.symm, hd.owner ▸ hseries,
    h.series.identity, (hd.number.symm.trans hversion.symm)⟩, ?_, ?_, ?_, ?_⟩
  · rw [hjobs]
    exact fun j hj => (hd.jobs_pending j hj).2.1
  · rw [hjobs]
    exact h.types
  · rw [hjobs]
    obtain ⟨g₁, -, htypes⟩ := h.types
    rw [htypes]
    exact Store.activeCalculationTypes_nodup _ _
  · rw [hjobs, hs, ← h.series.identity]
    exact hd.jobs_type

/-! ## The property -/

/-- A call that fails has committed nothing: its one transaction was rolled back. -/
theorem Reachable.create_fails (h : Reachable honours st) {i : Nat} {input : SeriesIdentity}
    {log : List ServiceEvent} {e : ServiceError}
    (hi : st.threads i = .running (.createDatasetVersion input) log (.ret (.error e))) :
    ∃ e', log = [.ended (.createDatasetVersion input) (.error e')] := by
  obtain ⟨r', rfl, hr⟩ := h.returns hi
  cases r' with
  | ok result => cases hr
  | error e' => exact ⟨e', rfl⟩

/-- **The versions of an identity are numbered without gaps**: one series per identity that
ever had a version, its versions numbered `1..n`, one job for each active type of the domain,
and nothing of a creation that fails. -/
theorem version_allocation (h : Reachable honours st) :
    st.shared.db.Allocated
    ∧ (∀ st' identity, (machine honours).Run st st' → st.shared.db.HasVersion identity →
        ∃! id, ∃ r, st'.shared.db.datasetSeries.get? id = some r ∧ r.identity = identity)
    ∧ (∀ i input result a, st.Ending i (.createDatasetVersion input) (.ok result) a →
        CreatesVersion input result a.seen st.shared.db
          (a.writes.foldl Store.apply st.shared.db))
    ∧ (∀ i input e a, st.Ending i (.createDatasetVersion input) (.error e) a →
        CreationFailure input st.shared a.seen e
          ∧ ∀ st', (machine honours).Step st st' → st'.threads i ≠ st.threads i →
            st'.shared = st.shared)
    ∧ (∀ i input log e, st.threads i = .running (.createDatasetVersion input) log (.ret (.error e)) →
        ∃ e', log = [.ended (.createDatasetVersion input) (.error e')])
    ∧ ∀ st', (machine honours).Step st st' →
        (∃ i input r ws, Commits i (.createDatasetVersion input) r ws st st')
          ∨ st.shared.db.NoneAdded st'.shared.db := by
  refine ⟨h.consistent.allocated, fun st' identity hr hv => ?_, fun i input result a he => ?_,
    fun i input e a he => ⟨?_, fun st' hs hmoved => hs.rollback_shared he hmoved⟩,
    fun i input log e hi => h.create_fails hi, fun st' hs => h.noneAdded hs⟩
  · exact (h.run hr).consistent.allocated.series identity (hv.grows (h.grows hr).db)
  · obtain ⟨last, hspec⟩ := h.ends he
    obtain ⟨r, v, jobs, pre, hcreated⟩ := CreateSpec.created hspec.ensures result rfl
    exact hcreated.createsVersion h.invariant rfl
  · obtain ⟨last, hspec⟩ := h.ends he
    exact CreateSpec.error hspec.ensures e rfl

theorem version_allocation_retried : ∃ S, play (machine False) (Script.retried False)
    SystemStage.sample = some S
      ∧ SystemStage.statuses S = ([.published, .draft], [.succeeded, .pending],
          [.failed, .succeeded])
      ∧ S.shared.db.Allocated := by
  obtain ⟨S, hS, hp⟩ := exists_of_play (p := fun S => SystemStage.statuses S
      = ([.published, .draft], [.succeeded, .pending], [.failed, .succeeded]))
    (show (play (machine False) (Script.retried False) SystemStage.sample).any _ = true by
      decide +kernel)
  exact ⟨S, hS, of_decide_eq_true hp,
    (version_allocation (.of_play SystemStage.sample_initial hS)).1⟩

end CostEngine
