import CostEngine.System.Scripts

/-! # One terminal decision per version -/

namespace CostEngine

open Relational (Table)
open Relation (ReflTransGen)
open Concurrency (play Active)

variable {honours : Prop} {st st' : System}

/-! ## The rows of a version -/

namespace DatasetVersion

/-- At most one of the three final timestamps is set. -/
structure OneDecision (v : DatasetVersion) : Prop where
  published : v.publishedAt ≠ none → v.rejectedAt = none ∧ v.abandonedAt = none
  rejected : v.rejectedAt ≠ none → v.publishedAt = none ∧ v.abandonedAt = none
  abandoned : v.abandonedAt ≠ none → v.publishedAt = none ∧ v.rejectedAt = none

/-- No lifecycle timestamp of `v` is overwritten in `v'`. -/
structure StampsKept (v v' : DatasetVersion) : Prop where
  buildingStartedAt : ∀ t, v.buildingStartedAt = some t → v'.buildingStartedAt = some t
  validatingAt : ∀ t, v.validatingAt = some t → v'.validatingAt = some t
  publishedAt : ∀ t, v.publishedAt = some t → v'.publishedAt = some t
  rejectedAt : ∀ t, v.rejectedAt = some t → v'.rejectedAt = some t
  abandonedAt : ∀ t, v.abandonedAt = some t → v'.abandonedAt = some t

variable {v v' : DatasetVersion}

theorem StampsKept.refl : v.StampsKept v :=
  ⟨fun _ h => h, fun _ h => h, fun _ h => h, fun _ h => h, fun _ h => h⟩

theorem Timed.oneDecision (h : v.Timed) : v.OneDecision := by
  have hp := h.published
  have hr := h.rejected
  have ha := h.abandoned
  simp only [← Option.ne_none_iff_isSome] at hp hr ha
  refine ⟨fun hs => ?_, fun hs => ?_, fun hs => ?_⟩
  · have hstatus := hp.mp hs
    exact ⟨by simpa [hstatus] using hr, by simpa [hstatus] using ha⟩
  · have hstatus := hr.mp hs
    exact ⟨by simpa [hstatus] using hp, by simpa [hstatus] using ha⟩
  · have hstatus := ha.mp hs
    exact ⟨by simpa [hstatus] using hp, by simpa [hstatus] using hr⟩

/-- An update sets a timestamp that was not set before. -/
theorem Timed.stampsKept (h : v.Timed) (hs : VersionStep v v') : v.StampsKept v' := by
  obtain ⟨now, hs⟩ := hs
  cases hs with
  | building hdraft =>
      have hnone := h.draft (by rw [hdraft]; rfl)
      refine ⟨fun t ht => ?_, fun _ h => h, fun _ h => h, fun _ h => h, fun _ h => h⟩
      rw [hnone] at ht
      cases ht
  | lifecycle target hsource =>
      have hnone : ∀ {x : Option Time} {p : Prop}, (x.isSome ↔ p) → ¬ p → x = none := by
        intro x p hx hp
        simpa using fun h => hp (hx.mp h)
      cases target with
      | validating =>
          rw [LifecycleTarget.sources, List.mem_singleton] at hsource
          have := hnone h.validating (by rw [hsource]; decide)
          refine ⟨fun _ h => h, fun t ht => ?_, fun _ h => h, fun _ h => h, fun _ h => h⟩
          rw [this] at ht
          cases ht
      | published =>
          rw [LifecycleTarget.sources, List.mem_singleton] at hsource
          have := hnone h.published (by rw [hsource]; decide)
          refine ⟨fun _ h => h, fun _ h => h, fun t ht => ?_, fun _ h => h, fun _ h => h⟩
          rw [this] at ht
          cases ht
      | rejected =>
          rw [LifecycleTarget.sources, List.mem_singleton] at hsource
          have := hnone h.rejected (by rw [hsource]; decide)
          refine ⟨fun _ h => h, fun _ h => h, fun _ h => h, fun t ht => ?_, fun _ h => h⟩
          rw [this] at ht
          cases ht
      | abandoned =>
          have hne : v.status ≠ .abandoned := by
            intro he
            rw [he] at hsource
            simp [LifecycleTarget.sources] at hsource
          have := hnone h.abandoned hne
          refine ⟨fun _ h => h, fun _ h => h, fun _ h => h, fun _ h => h, fun t ht => ?_⟩
          rw [this] at ht
          cases ht

end DatasetVersion

/-! ## The commands -/

/-- The rows after a transaction that ends with `r`: its changes, or what was there. -/
def rowsAfter {α : Type} (st : System) (r : Except ServiceError α)
    (a : Active Store RowLock Write ServiceError TxEnv World α) : Store :=
  match r with
  | .ok _ => a.writes.foldl Store.apply st.shared.db
  | .error _ => st.shared.db

/-- What a command for `target` does with a version it cannot move on. -/
structure CommandEnds (target : LifecycleTarget) (id : Uuid) (st : System)
    (r : Except ServiceError LockedLifecycleDataset)
    (a : Active Store RowLock Write ServiceError TxEnv World LockedLifecycleDataset) : Prop where
  holds : ∀ v, st.shared.db.datasetVersions.get? id = some v → v.status = target.status →
    r = .ok v.asLifecycle ∧ rowsAfter st r a = st.shared.db
  refused : ∀ v, st.shared.db.datasetVersions.get? id = some v → v.status ≠ target.status →
    v.status ∉ target.sources →
    (∃ e, r = .error e ∧ LifecycleConflict e) ∧ rowsAfter st r a = st.shared.db

theorem LifecycleTarget.status_not_source (target : LifecycleTarget) :
    target.status ∉ target.sources := by
  cases target <;> decide

theorem LifecycleSpec.commandEnds {id : Uuid} {target : LifecycleTarget} {env : TxEnv}
    {r : Except ServiceError LockedLifecycleDataset} {last : Moment}
    {a : Active Store RowLock Write ServiceError TxEnv World LockedLifecycleDataset}
    (h : LifecycleSpec honours id target env st.shared ⟨a.seen, last, r, a.locks, a.writes⟩)
    (hseen : ∀ g ∈ a.seen, g.db.datasetVersions.get? id ≠ none) :
    CommandEnds target id st r a := by
  rcases h.ends with ⟨v, hv, hends⟩ | ⟨-, g, hg, hnone⟩
  swap
  · exact absurd hnone (hseen g hg)
  dsimp only at hends
  generalize hws : a.writes = ws at hends
  refine ⟨fun w hw hs => ?_, fun w hw hs hsource => ?_⟩
  · obtain rfl := Option.some.inj (hv.symm.trans hw)
    cases hends with
    | holds _ => exact ⟨rfl, by simp [rowsAfter, hws]⟩
    | moves hmem =>
        rw [hs] at hmem
        exact absurd hmem target.status_not_source
    | refused e _ hne _ => exact absurd hs hne
  · obtain rfl := Option.some.inj (hv.symm.trans hw)
    cases hends with
    | holds hs' => exact absurd hs' hs
    | moves hmem => exact absurd hmem hsource
    | refused e _ hne hconflict => exact ⟨⟨e, rfl, hconflict⟩, rfl⟩

/-! ## In every reachable state -/

/-- What a step may do to a version. -/
structure Store.VersionsMoved (s s' : Store) : Prop where
  rows : ∀ id v, s.datasetVersions.get? id = some v → ∃ v',
    s'.datasetVersions.get? id = some v' ∧ (v'.status = v.status ∨ v.status.Next v'.status)
      ∧ v.StampsKept v'

theorem Store.Single.versionsMoved {s s' : Store} {now : Time} (h : s.Single now s')
    (hs : s.Consistent) : s.VersionsMoved s' := by
  refine ⟨fun id v hv => ?_⟩
  obtain ⟨v', hv', rfl | hstep⟩ := h.versions id v hv
  · exact ⟨v', hv', .inl rfl, .refl⟩
  · exact ⟨v', hv', .inr hstep.step.status, (hs.version id v hv).timed.stampsKept hstep.step⟩

/-- `beginDispatch` returns a command only as long as the version is `BUILDING`. -/
theorem Reachable.building_of_dispatch (h : Reachable honours st) {i : Nat} {d : DurableRunAttempt}
    {c : DispatchCalculationCommand}
    {a : Active Store RowLock Write ServiceError TxEnv World BeginDispatchResult}
    (he : st.Ending i (.beginDispatch d) (.ok (.dispatch c)) a) :
    st.shared.db.Building c.datasetVersionId := by
  obtain ⟨last, hspec⟩ := h.ends he
  have hgrows := (BeginDispatchSpec.commit hspec.ensures _ rfl).change.grows
  obtain ⟨g, rest, -, hends⟩ := BeginDispatchSpec.ends hspec.ensures
  cases hends with
  | dispatch _ hbuilding hactive hdispatched hattempt hjob =>
      have hdurable : st.shared.db.Durable d := hspec.pre
      obtain ⟨j, hj, hversion⟩ := hdurable.job
      obtain ⟨ea, hea, heaj⟩ := hdurable.attempt
      obtain ⟨ea', hea', hstatus⟩ := hactive
      obtain rfl := Option.some.inj (hea.symm.trans hea')
      obtain ⟨v, hv, -, hvbuilding, -⟩ := h.consistent.building_of_active hj
        (heaj ▸ Store.mem_attemptsOf_of_get? hea) hstatus
      -- The command names the version of the job.
      obtain ⟨j', -, hj', hversion', -⟩ := hdispatched.job
      obtain ⟨j'', hj'', hsteps⟩ := hgrows.job hj
      rw [hjob] at hj'
      obtain rfl := Option.some.inj (hj'.symm.trans hj'')
      rw [(job_columns hsteps).2.1] at hversion'
      exact ⟨v, hversion' ▸ hv, hvbuilding⟩

/-- **One terminal decision per version**: the status follows its order, no timestamp is
overwritten and at most one of the final ones is set, a command that has nothing to do
changes no row, and after `ABANDONED` the attempts of the version stay as they are.
`beginDispatch` returns a command only for a version that is `BUILDING` when it commits, so
never for one that is `ABANDONED`. What it has returned before may still be sent later. -/
theorem one_terminal_decision (h : Reachable honours st) :
    (∀ id v, st.shared.db.datasetVersions.get? id = some v → v.OneDecision)
    ∧ (∀ st', (machine honours).Step st st' → st.shared.db.VersionsMoved st'.shared.db)
    ∧ (∀ i id r a, st.Ending i (.submitDatasetValidation id) r a →
        (∀ g ∈ a.seen, g.db.datasetVersions.get? id ≠ none) →
        CommandEnds .validating id st r a)
    ∧ (∀ i id seriesId decision r a, st.Ending i (.decideValidatedDataset id seriesId decision) r a →
        (∀ g ∈ a.seen, g.db.datasetVersions.get? id ≠ none) →
        CommandEnds decision.target id st r a)
    ∧ (∀ i id seriesId r a, st.Ending i (.abandonDatasetVersion id seriesId) r a →
        (∀ g ∈ a.seen, g.db.datasetVersions.get? id ≠ none) →
        CommandEnds .abandoned id st r a)
    ∧ (∀ i d c a, st.Ending i (.beginDispatch d) (.ok (.dispatch c)) a →
        st.shared.db.Building c.datasetVersionId)
    ∧ ∀ st', (machine honours).Run st st' → ∀ id v,
        st.shared.db.datasetVersions.get? id = some v → v.status = .abandoned →
        ∀ j ∈ st'.shared.db.jobsOf id,
          st'.shared.db.attemptsOf j.id = st.shared.db.attemptsOf j.id ∧
          ∀ a ∈ st'.shared.db.attemptsOf j.id, a.status.isActive = false := by
  refine ⟨fun id v hv => (h.consistent.version id v hv).timed.oneDecision,
    fun st' hs => (h.single hs).choose_spec.versionsMoved h.consistent, fun i id r a he hseen => ?_,
    fun i id seriesId decision r a he hseen => ?_, fun i id seriesId r a he hseen => ?_,
    fun i d c a he => h.building_of_dispatch he, fun st' hr id v hv hs j' hj' => ?_⟩
  · obtain ⟨last, hspec⟩ := h.ends he
    exact LifecycleSpec.commandEnds hspec.ensures hseen
  · obtain ⟨last, hspec⟩ := h.ends he
    exact LifecycleSpec.commandEnds hspec.ensures hseen
  · obtain ⟨last, hspec⟩ := h.ends he
    exact LifecycleSpec.commandEnds hspec.ensures hseen
  · have hg := (h.grows hr).db
    obtain ⟨j, hj, hsteps⟩ := hg.jobsOf_back (Table.row_ne_none hv) hj'
    have hid : j'.id = j.id := (job_columns hsteps).1
    obtain ⟨hjrow, hjv⟩ := Store.mem_jobsOf.mp hj
    have hphase : st.shared.db.phaseOf? j.id = some .abandoned := by
      rw [Store.phaseOf?_eq hjrow (hjv ▸ hv), hs]
      rfl
    have hsame := hg.abandoned j.id hphase
    rw [hid]
    refine ⟨hsame, fun a ha => ?_⟩
    rw [hsame] at ha
    have hb := (h.consistent.version id v hv).build
    unfold Store.Build at hb
    rw [hs, Table.get?_key hv] at hb
    exact hb.2 j hj a ha

/-- A version is created and abandoned. -/
def Script.abandoned (honours : Prop) : Script honours :=
  request honours (.createDatasetVersion ⟨"margin", "acme", 2024, .q1⟩) ++ steps honours 0 26 "v"
    ++ request honours (.abandonDatasetVersion "v1") ++ steps honours 1 17 "a"

theorem one_terminal_decision_abandoned : ∃ S, play (machine False) (Script.abandoned False)
    SystemStage.sample = some S
      ∧ SystemStage.statuses S = ([.abandoned], [.pending], [])
      ∧ ∀ id v, S.shared.db.datasetVersions.get? id = some v → v.OneDecision := by
  obtain ⟨S, hS, hp⟩ := exists_of_play (p := fun S =>
    SystemStage.statuses S = ([.abandoned], [.pending], []))
    (show (play (machine False) (Script.abandoned False) SystemStage.sample).any _ = true by
      decide +kernel)
  exact ⟨S, hS, of_decide_eq_true hp,
    (one_terminal_decision (.of_play SystemStage.sample_initial hS)).1⟩

end CostEngine
