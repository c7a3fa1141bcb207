import CostEngine.System.Scripts
import CostEngine.System.Writers

/-! # The freeze of the first Run

A version is frozen at most once, from what is the latest when the transaction commits, and
what is frozen stays. -/

namespace CostEngine

open Relational (Table)
open Concurrency (play)

variable {honours : Prop} {st₀ st st' : System}

/-- The step moves the version from `DRAFT` to `BUILDING`. -/
def Freezing (id : Uuid) (st st' : System) : Prop := st.shared.db.Freezes st'.shared.db id

/-! ## At the commit -/

/-- The transaction that freezes a version freezes the latest definitions and versions. -/
theorem Reachable.freezesLatest (h : Reachable honours st) (hs : (machine honours).Step st st') :
    st.shared.db.FreezesLatest st'.shared.db := by
  intro id hf
  obtain ⟨i, jobId, p, ws, req, log, k, a, hi, hr, rfl, hst⟩ := h.freezes hs hf
  obtain ⟨last, hspec⟩ := h.commits hi hr
  obtain ⟨fl, hprepare⟩ := hspec.ensures
  have hdb : st'.shared.db = a.writes.foldl Store.apply st.shared.db := by rw [hst]
  rw [hdb] at hf ⊢
  exact hprepare.latest p rfl id hf

/-! ## Once -/

/-- How often the version was frozen, by its row. -/
def Store.FrozenTimes (s : Store) (id : Uuid) (n : Nat) : Prop :=
  match s.datasetVersions.get? id with
  | none => n = 0
  | some v => (n = 0 ∧ (v.status = .draft ∨ v.status = .abandoned))
      ∨ (n = 1 ∧ v.status ≠ .draft)

theorem frozenTimes_hit {s s' : Store} {id : Uuid} {n : Nat} (h : s.FrozenTimes id n)
    (hf : s.Freezes s' id) : s'.FrozenTimes id (n + 1) := by
  obtain ⟨v, v', hv, hdraft, hv', hbuilding⟩ := hf
  unfold Store.FrozenTimes at h ⊢
  rw [hv] at h
  rw [hv']
  rcases h with ⟨rfl, -⟩ | ⟨-, hne⟩
  · exact .inr ⟨rfl, by simp [hbuilding]⟩
  · exact absurd hdraft hne

theorem frozenTimes_miss (h : Reachable honours st) (hs : (machine honours).Step st st')
    {id : Uuid} {n : Nat} (hn : st.shared.db.FrozenTimes id n) (hf : ¬ Freezing id st st') :
    st'.shared.db.FrozenTimes id n := by
  unfold Store.FrozenTimes at hn ⊢
  cases hv : st.shared.db.datasetVersions.get? id with
  | none =>
      rw [hv] at hn
      cases hv' : st'.shared.db.datasetVersions.get? id with
      | none => exact hn
      | some v' => exact .inl ⟨hn, .inl (h.new_version_draft hs hv hv')⟩
  | some v =>
      rw [hv] at hn
      obtain ⟨now, hsingle⟩ := h.single hs
      obtain ⟨v', hv', hmoved⟩ := hsingle.versions id v hv
      rw [hv']
      rcases hmoved with rfl | hstep
      · exact hn
      have hnext := hstep.step.status
      rcases hn with ⟨rfl, hdraft | habandoned⟩ | ⟨rfl, hne⟩
      · -- A draft that is not frozen is abandoned.
        rw [hdraft] at hnext
        have hbuilding : v'.status ≠ .building := fun hb => hf ⟨v, v', hv, hdraft, hv', hb⟩
        refine .inl ⟨rfl, ?_⟩
        generalize v'.status = status at hnext hbuilding ⊢
        cases hnext
        · exact absurd rfl hbuilding
        · exact .inr rfl
      · rw [habandoned] at hnext
        cases hnext
      · refine .inr ⟨rfl, fun hdraft => ?_⟩
        rw [hdraft] at hnext
        generalize v.status = status at hnext
        cases hnext

theorem frozenTimes_of_counts (h₀ : Initial st₀) {id : Uuid} {n : Nat}
    (hn : (machine honours).Counts (Freezing id) n st₀ st) : st.shared.db.FrozenTimes id n := by
  induction hn with
  | refl =>
      cases h₀
      rfl
  | hit hn hs hf ih => exact frozenTimes_hit (ih h₀) hf
  | miss hn hs hf ih => exact frozenTimes_miss ⟨_, h₀, hn.run⟩ hs (ih h₀) hf

/-! ## For good -/

/-- What is frozen of a version is the same in both states. -/
structure Store.FreezeKept (s s' : Store) (id : Uuid) (b : DatasetBuildSnapshot) : Prop where
  snapshot : s'.snapshotsOf id = [b]
  dependencies : s'.dependenciesOf b.id = s.dependenciesOf b.id
  jobs : ∀ j' ∈ s'.jobsOf id, ∃ j ∈ s.jobsOf id, j.id = j'.id
    ∧ j'.resolvedDependencyDefinitionVersionId = j.resolvedDependencyDefinitionVersionId
  kept : ∀ j ∈ s.jobsOf id, ∃ j' ∈ s'.jobsOf id, j'.id = j.id

theorem Reachable.freezeKept (h : Reachable honours st) (hr : (machine honours).Run st st')
    {id : Uuid} {b : DatasetBuildSnapshot} (hb : st.shared.db.snapshotsOf id = [b]) :
    st.shared.db.FreezeKept st'.shared.db id b := by
  have hg := (h.grows hr).db
  have hmem : b ∈ st.shared.db.snapshotsOf id := by rw [hb]; exact List.mem_singleton_self b
  obtain ⟨hbrow, hbv⟩ := Store.mem_snapshotsOf.mp hmem
  have hvne : st.shared.db.datasetVersions.get? id ≠ none :=
    hbv ▸ h.consistent.references.snapshot _ b hbrow
  obtain ⟨v, hv⟩ := Option.ne_none_iff_exists'.mp hvne
  have hid : v.id = id := Table.get?_key hv
  -- A version with a snapshot is frozen, so its jobs are resolved.
  have hfrozen : st.shared.db.Frozen id := by
    have hunfrozen : ¬ st.shared.db.Unfrozen id := by
      rintro ⟨hnil, -⟩
      rw [hb] at hnil
      cases hnil
    have hbuild := (h.consistent.version id v hv).build
    unfold Store.Build at hbuild
    rw [hid] at hbuild
    cases hs : v.status <;> simp only [hs, DatasetVersionStatus.phase] at hbuild
    · exact absurd hbuild hunfrozen
    · exact hbuild
    · exact hbuild.1
    · exact hbuild.1
    · exact hbuild.1
    · exact hbuild.1.resolve_left hunfrozen
  obtain ⟨b', -, hresolved⟩ := hfrozen
  refine ⟨?_, hg.dependenciesOf b.id (Table.row_ne_none hbrow), fun j' hj' => ?_, fun j hj => ?_⟩
  · rw [hg.snapshotsOf id (by rw [hb]; simp), hb]
  · obtain ⟨j, hj, hsteps⟩ := hg.jobsOf_back hvne hj'
    obtain ⟨d, hres, -⟩ := hresolved j hj
    obtain ⟨hjid, -, -, -, hkept⟩ := job_columns hsteps
    exact ⟨j, hj, hjid.symm, (hkept _ hres).trans hres.symm⟩
  · have hkey : Store.jobKey j ∈ (st'.shared.db.jobsOf id).map Store.jobKey := by
      rw [hg.jobsOf id hvne]
      exact List.mem_map_of_mem hj
    obtain ⟨j', hj', hk⟩ := List.mem_map.mp hkey
    exact ⟨j', hj', congrArg Prod.fst hk⟩

/-! ## The property -/

/-- **The first Run freezes a version once and for all**: from the latest published
definitions of its jobs, with one row for each required domain, naming the series of the
version's own company, year and period and the latest published version there. -/
theorem first_run_freeze (h₀ : Initial st₀) (hr : (machine honours).Run st₀ st) :
    (∀ st' id, (machine honours).Step st st' → Freezing id st st' → ∃ v r b,
      st'.shared.db.datasetVersions.get? id = some v
        ∧ st'.shared.db.datasetSeries.get? v.datasetSeriesId = some r
        ∧ st'.shared.db.FrozenLatest id b r.identity)
    ∧ (∀ n id v, (machine honours).Counts (Freezing id) n st₀ st →
        st.shared.db.datasetVersions.get? id = some v →
        n ≤ 1 ∧ (v.status ≠ .draft → v.status ≠ .abandoned → n = 1)
          ∧ (v.status = .draft → n = 0))
    ∧ ∀ st' id b, (machine honours).Run st st' → st.shared.db.snapshotsOf id = [b] →
        st.shared.db.FreezeKept st'.shared.db id b := by
  have h : Reachable honours st := ⟨st₀, h₀, hr⟩
  refine ⟨fun st' id hs hf => h.freezesLatest hs id hf, fun n id v hn hv => ?_,
    fun st' id b hr' hb => h.freezeKept hr' hb⟩
  have htimes := frozenTimes_of_counts h₀ hn
  unfold Store.FrozenTimes at htimes
  rw [hv] at htimes
  rcases htimes with ⟨rfl, hs⟩ | ⟨rfl, hs⟩
  · exact ⟨by omega, fun hd ha => absurd hs (by simp [hd, ha]), fun _ => rfl⟩
  · exact ⟨by omega, fun _ _ => rfl, fun hd => absurd hd hs⟩

/-- The version of `margin` is frozen once, and names the version of `price` that is
published. -/
theorem first_run_freeze_chained : ∃ S, play (machine False) (Script.chained False)
    SystemStage.chained = some S
      ∧ SystemStage.statuses S = ([.published, .building], [.succeeded, .pending],
          [.succeeded, .dispatching])
      ∧ (S.shared.db.snapshotsOf "w1").map (fun b =>
          (S.shared.db.dependenciesOf b.id).map (·.upstreamDatasetVersionId)) = [["v1"]]
      ∧ ∀ n v, (machine False).Counts (Freezing "w1") n SystemStage.chained.state S.state →
          S.shared.db.datasetVersions.get? "w1" = some v →
          v.status ≠ .draft → v.status ≠ .abandoned → n = 1 := by
  obtain ⟨S, hS, hp⟩ := exists_of_play (p := fun S => decide (SystemStage.statuses S
      = ([.published, .building], [.succeeded, .pending], [.succeeded, .dispatching])
      ∧ (S.shared.db.snapshotsOf "w1").map (fun b =>
          (S.shared.db.dependenciesOf b.id).map (·.upstreamDatasetVersionId)) = [["v1"]]))
    (show (play (machine False) (Script.chained False) SystemStage.chained).any _ = true by
      decide +kernel)
  obtain ⟨hstatuses, hnamed⟩ := of_decide_eq_true hp
  have hfreeze := first_run_freeze SystemStage.chained_initial (Concurrency.play_run hS)
  exact ⟨S, hS, hstatuses, hnamed, fun n v hn hv => (hfreeze.2.1 n "w1" v hn hv).2.1⟩

end CostEngine
