import CostEngine.System.Scripts

/-! # The tables agree with each other

`Store.Coherent` is what an operator expects to find in the orchestration tables at any
moment, whatever the executor answers: the status of a version says how much of its build is
frozen, and the status of a job how its newest attempt ended. -/

namespace CostEngine

open Relational (Table)

namespace Store

/-- The build contract is in place: jobs, one snapshot, every job with its definition. -/
structure FrozenContract (s : Store) (datasetVersionId : Uuid) : Prop where
  jobs : s.jobsOf datasetVersionId ≠ []
  snapshot : ∃ b, s.snapshotsOf datasetVersionId = [b]
  resolved : ∀ j ∈ s.jobsOf datasetVersionId, ∃ d,
    j.resolvedDependencyDefinitionVersionId = some d

/-- None of the build contract is in place. -/
structure NoContract (s : Store) (datasetVersionId : Uuid) : Prop where
  snapshot : s.snapshotsOf datasetVersionId = []
  unresolved : ∀ j ∈ s.jobsOf datasetVersionId, j.resolvedDependencyDefinitionVersionId = none

/-- The attempt with the highest number of its job. -/
def Newest (s : Store) (jobId : Uuid) (a : ExecutionAttempt) : Prop :=
  a ∈ s.attemptsOf jobId ∧ ∀ b ∈ s.attemptsOf jobId, b ≠ a → b.attemptNumber < a.attemptNumber

structure CoherentVersion (s : Store) (v : DatasetVersion) : Prop where
  draft : v.status = .draft → s.NoContract v.id ∧
    ∀ j ∈ s.jobsOf v.id, j.status = .pending ∧ s.attemptsOf j.id = []
  frozen : v.status = .building ∨ v.status = .validating ∨ v.status = .published
    ∨ v.status = .rejected → s.FrozenContract v.id
  abandoned : v.status = .abandoned → s.FrozenContract v.id ∨ s.NoContract v.id
  settled : v.status = .validating ∨ v.status = .published ∨ v.status = .rejected →
    ∀ j ∈ s.jobsOf v.id, j.status = .succeeded
  stopped : v.status = .abandoned →
    ∀ j ∈ s.jobsOf v.id, ∀ a ∈ s.attemptsOf j.id, a.status.isActive = false

structure CoherentJob (s : Store) (j : CalculationJob) : Prop where
  running : j.status = .running ↔ ∃ a ∈ s.attemptsOf j.id, a.status = .accepted
  active : ∀ a ∈ s.attemptsOf j.id, a.status.isActive = true → s.Newest j.id a ∧
    ∀ b ∈ s.attemptsOf j.id, b.status.isActive = true → b = a
  succeeded : j.status = .succeeded ↔ ∃ a, s.Newest j.id a ∧ a.status = .succeeded
  pending : j.status = .pending → ∀ a ∈ s.attemptsOf j.id,
    a.status = .prepared ∨ a.status = .dispatching ∨ a.status = .dispatchFailed
  failed : j.status = .failed → ∃ a ∈ s.attemptsOf j.id, a.status = .failed

structure Coherent (s : Store) : Prop where
  version : ∀ id v, s.datasetVersions.get? id = some v → s.CoherentVersion v
  job : ∀ id j, s.calculationJobs.get? id = some j → s.CoherentJob j

end Store

/-! ## From the invariant -/

theorem History.status_nil {status : CalculationJobStatus} (h : History [] status) :
    status = .pending := h.status

namespace Store

variable {s : Store} {id : Uuid}

theorem VersionOk.contract {v : DatasetVersion} (h : s.VersionOk v) (hf : s.Frozen v.id) :
    s.FrozenContract v.id := by
  obtain ⟨b, hb, hres⟩ := hf
  refine ⟨h.jobs, ⟨b, hb⟩, fun j hj => ?_⟩
  obtain ⟨d, hd, -⟩ := hres j hj
  exact ⟨d.id, hd⟩

theorem Unfrozen.noContract (h : s.Unfrozen id) : s.NoContract id :=
  ⟨h.1, fun j hj => (h.2 j hj).1⟩

/-- An attempt that is not dead is the newest of its job. -/
theorem newest_of_not_dead {j : CalculationJob} (h : History (s.attemptsOf j.id) j.status)
    {a : ExecutionAttempt} (ha : a ∈ s.attemptsOf j.id) (hdead : a.status.isDead = false) :
    s.Newest j.id a := by
  refine ⟨ha, fun b hb hne => ?_⟩
  obtain ⟨init, hinit⟩ := h.eq_append_of_not_dead ha hdead
  rw [hinit] at h hb
  rcases List.mem_append.mp hb with hb | hb
  · have hnumbers := h.init_numbered
    have hlast := h.last_number
    have : b.attemptNumber ∈ List.range' 1 init.length := by
      rw [← hnumbers]
      exact List.mem_map_of_mem hb
    rw [List.mem_range'_1] at this
    omega
  · exact absurd (List.mem_singleton.mp hb) hne

theorem Consistent.coherentVersion (h : s.Consistent) {v : DatasetVersion}
    (hv : s.datasetVersions.get? id = some v) : s.CoherentVersion v := by
  have hok := h.version id v hv
  have hb := hok.build
  unfold Build at hb
  refine ⟨fun hs => ?_, fun hs => ?_, fun hs => ?_, fun hs => ?_, fun hs => ?_⟩
  · rw [hs] at hb
    refine ⟨Unfrozen.noContract hb, fun j hj => ?_⟩
    have hempty := (hb.2 j hj).2
    have hh := h.history _ j (mem_jobsOf.mp hj).1
    rw [hempty] at hh
    exact ⟨hh.status_nil, hempty⟩
  · rcases hs with hs | hs | hs | hs <;> rw [hs] at hb
    · exact hok.contract hb
    all_goals exact hok.contract hb.1
  · rw [hs] at hb
    exact hb.1.symm.imp hok.contract Unfrozen.noContract
  · rcases hs with hs | hs | hs <;> rw [hs] at hb <;> exact hb.2
  · rw [hs] at hb
    exact hb.2

theorem Consistent.coherentJob (h : s.Consistent) {j : CalculationJob}
    (hj : s.calculationJobs.get? id = some j) : s.CoherentJob j := by
  obtain rfl : j.id = id := Table.get?_key hj
  have hh := h.history _ j hj
  refine ⟨hh.running_iff, fun a ha hactive => ?_, ?_, ?_, ?_⟩
  · exact ⟨newest_of_not_dead hh ha (ExecutionAttemptStatus.not_dead_of_active hactive),
      fun b hb hactive' => hh.eq_of_active hb ha hactive' hactive⟩
  · rw [hh.succeeded_iff]
    constructor
    · rintro ⟨a, ha, hs⟩
      exact ⟨a, newest_of_not_dead hh ha (by rw [hs]; rfl), hs⟩
    · rintro ⟨a, ⟨ha, -⟩, hs⟩
      exact ⟨a, ha, hs⟩
  · intro hs a ha
    rw [hs] at hh
    exact hh.of_pending ha
  · intro hs
    rw [hs] at hh
    exact hh.of_failed

end Store

/-! ## In every reachable state -/

/-- **The tables are coherent in every reachable state**, with any executor answers. -/
theorem reachable_coherent (honours : Prop) (st : System) (h : Reachable honours st) :
    st.shared.db.Coherent :=
  ⟨fun _ _ hv => h.consistent.coherentVersion hv, fun _ _ hj => h.consistent.coherentJob hj⟩

theorem reachable_coherent_accepted : ∃ S, Concurrency.play (machine False)
    (Script.accepted False) SystemStage.sample = some S
      ∧ SystemStage.statuses S = ([.building], [.running], [.accepted])
      ∧ S.shared.db.Coherent := by
  obtain ⟨S, hS, hp⟩ := exists_of_play (p := fun S =>
    SystemStage.statuses S = ([.building], [.running], [.accepted]))
    (show (Concurrency.play (machine False) (Script.accepted False) SystemStage.sample).any _ = true by
      decide +kernel)
  exact ⟨S, hS, of_decide_eq_true hp,
    reachable_coherent False S.state (.of_play SystemStage.sample_initial hS)⟩

end CostEngine
