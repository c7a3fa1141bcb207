import CostEngine.CalculationJob.RunService
import CostEngine.Invariant.Consistent

/-! # What the selects find in a consistent store

The active attempt of a job, the snapshot of a version and the frozen inputs of a
definition, each as the statement of the same name returns it. -/

namespace CostEngine

open Relational (Table)

/-! ## The active attempt -/

/-- The columns that `findActiveExecutionAttempt` returns. -/
def ExecutionAttempt.asActive (a : ExecutionAttempt) : ActiveExecutionAttempt where
  id := a.id
  attemptNumber := a.attemptNumber
  status := a.status
  airflowDagId := a.airflowDagId
  airflowDagRunId := a.airflowDagRunId

theorem ExecutionAttemptStatus.not_dead_of_active {x : ExecutionAttemptStatus}
    (h : x.isActive = true) : x.isDead = false := by
  revert h; cases x <;> decide

namespace History

variable {attempts : List ExecutionAttempt} {a b : ExecutionAttempt}
variable {status : CalculationJobStatus}

/-- Only the newest attempt can be anything but dead, so there is one such. -/
theorem eq_of_not_dead (h : History attempts status) (ha : a ∈ attempts) (hb : b ∈ attempts)
    (hda : a.status.isDead = false) (hdb : b.status.isDead = false) : a = b := by
  obtain ⟨init, hinit⟩ := h.eq_append_of_not_dead ha hda
  obtain ⟨init', hinit'⟩ := h.eq_append_of_not_dead hb hdb
  have := congrArg List.getLast? (hinit.symm.trans hinit')
  simpa using this

/-- The final status of the newest attempt is the status of the job. -/
theorem terminal_status {init : List ExecutionAttempt} (h : History (init ++ [a]) status)
    (ha : a.status = .succeeded ∨ a.status = .failed) :
    a.status.asJobStatus? = some status := by
  rw [h.status, List.map_append, List.map_singleton, jobStatusOf_append]
  rcases ha with ha | ha <;> rw [ha] <;> rfl

theorem eq_of_active (h : History attempts status) (ha : a ∈ attempts) (hb : b ∈ attempts)
    (haa : a.status.isActive = true) (hba : b.status.isActive = true) : a = b :=
  h.eq_of_not_dead ha hb (ExecutionAttemptStatus.not_dead_of_active haa)
    (ExecutionAttemptStatus.not_dead_of_active hba)

/-- With an attempt on its way to the executor, the job waits. -/
theorem waiting (h : History attempts status) (ha : a ∈ attempts)
    (hs : a.status = .prepared ∨ a.status = .dispatching) :
    status = .pending ∨ status = .failed := by
  have hdead : a.status.isDead = false := by rcases hs with hs | hs <;> rw [hs] <;> rfl
  obtain ⟨init, rfl⟩ := h.eq_append_of_not_dead ha hdead
  rw [h.status_of_waiting (hs.imp_right .inl)]
  split
  · exact .inr rfl
  · exact .inl rfl

end History

namespace Store

variable {s : Store}

theorem activeAttempt?_eq_none {jobId : Uuid} :
    s.activeAttempt? jobId = none ↔ ∀ a ∈ s.attemptsOf jobId, a.status.isActive = false := by
  simp [activeAttempt?]

theorem of_activeAttempt? {jobId : Uuid} {x : ActiveExecutionAttempt}
    (h : s.activeAttempt? jobId = some x) :
    ∃ a ∈ s.attemptsOf jobId, a.status.isActive = true ∧ x = a.asActive := by
  obtain ⟨a, ha, rfl⟩ := Option.map_eq_some_iff.mp h
  have hactive : a.status.isActive = true := by simpa using List.find?_some ha
  exact ⟨a, List.mem_of_find?_eq_some ha, hactive, rfl⟩

/-- There is one active attempt at most, so the one found is the one there is. -/
theorem Consistent.activeAttempt?_eq (h : s.Consistent) {jobId : Uuid} {j : CalculationJob}
    (hj : s.calculationJobs.get? jobId = some j) {a : ExecutionAttempt}
    (ha : a ∈ s.attemptsOf jobId) (hactive : a.status.isActive = true) :
    s.activeAttempt? jobId = some a.asActive := by
  cases hx : s.activeAttempt? jobId with
  | none =>
      rw [activeAttempt?_eq_none.mp hx a ha] at hactive
      cases hactive
  | some x =>
      obtain ⟨b, hb, hbactive, rfl⟩ := of_activeAttempt? hx
      rw [(h.history _ j hj).eq_of_active ha hb hactive hbactive]

/-! ## Newer attempts -/

theorem hasNewerExecutionAttempt_eq_true {jobId : Uuid} {number : Nat} :
    s.hasNewerExecutionAttempt jobId number = true ↔
      ∃ b ∈ s.attemptsOf jobId, number < b.attemptNumber := by
  simp [hasNewerExecutionAttempt]

/-- Without a newer one, an attempt is the newest. -/
theorem Consistent.newest_of_not_newer (h : s.Consistent) {jobId : Uuid} {j : CalculationJob}
    (hj : s.calculationJobs.get? jobId = some j) {a : ExecutionAttempt}
    (ha : a ∈ s.attemptsOf jobId)
    (hnewer : s.hasNewerExecutionAttempt jobId a.attemptNumber = false) :
    ∃ init, s.attemptsOf jobId = init ++ [a] := by
  have hh := h.history _ j hj
  rcases List.eq_nil_or_concat (s.attemptsOf jobId) with hnil | ⟨init, x, hinit⟩
  · rw [hnil] at ha
    cases ha
  · rw [List.concat_eq_append] at hinit
    refine ⟨init, ?_⟩
    rw [hinit] at hh ha ⊢
    rcases List.mem_append.mp ha with hi | hx
    · have := hasNewerExecutionAttempt_eq_true.mpr (hinit ▸ (hh.newer_iff ha).mpr hi)
      rw [hnewer] at this
      cases this
    · rw [List.mem_singleton.mp hx]

/-- An attempt that is not dead is the newest. -/
theorem Consistent.not_newer (h : s.Consistent) {jobId : Uuid} {j : CalculationJob}
    (hj : s.calculationJobs.get? jobId = some j) {a : ExecutionAttempt}
    (ha : a ∈ s.attemptsOf jobId) (hdead : a.status.isDead = false) :
    s.hasNewerExecutionAttempt jobId a.attemptNumber = false := by
  have hh := h.history _ j hj
  obtain ⟨init, hinit⟩ := hh.eq_append_of_not_dead ha hdead
  rw [hinit] at hh ha
  rw [← Bool.not_eq_true, hasNewerExecutionAttempt_eq_true, hinit, hh.newer_iff ha]
  intro hi
  rw [hh.init_dead a hi] at hdead
  cases hdead

/-! ## The frozen inputs -/

theorem snapshotIds_eq {datasetVersionId : Uuid} {b : DatasetBuildSnapshot}
    (h : s.snapshotsOf datasetVersionId = [b]) : s.snapshotIds datasetVersionId = [b.id] := by
  rw [snapshotIds, h]
  rfl

/-- The freeze state depends on what the lock of a version fixes. -/
theorem freezeState_eq {s' : Store} {datasetVersionId : Uuid}
    (h : (Row.datasetVersion datasetVersionId).Same s s') :
    s'.freezeState datasetVersionId = s.freezeState datasetVersionId := by
  obtain ⟨-, hsnapshots, hjobs⟩ := h
  have hcount : (s'.jobsOf datasetVersionId).length = (s.jobsOf datasetVersionId).length := by
    simpa using congrArg List.length hjobs
  have hresolved : ∀ s : Store, ((s.jobsOf datasetVersionId).filter
        (·.resolvedDependencyDefinitionVersionId.isSome)).length
      = (((s.jobsOf datasetVersionId).map CalculationJob.frozen).filter
        (·.2.2.isSome)).length := by
    intro s
    rw [List.filter_map, List.length_map]
    rfl
  unfold freezeState snapshotIds
  rw [hsnapshots, hcount, hresolved s', hresolved s, hjobs]

/-- The frozen contract of a version that is being built. -/
theorem Consistent.freezeState_of_frozen (h : s.Consistent) {id : Uuid} {v : DatasetVersion}
    (hv : s.datasetVersions.get? id = some v) (hf : s.Frozen id) :
    ∃ b, s.snapshotsOf id = [b] ∧ s.freezeState id
      = ⟨[b.id], (s.jobsOf id).length, (s.jobsOf id).length⟩ ∧ (s.jobsOf id).length ≠ 0 := by
  obtain ⟨b, hb, hres⟩ := hf
  have hid : v.id = id := Table.get?_key hv
  refine ⟨b, hb, ?_, ?_⟩
  · unfold freezeState
    rw [snapshotIds_eq hb, List.filter_eq_self.mpr]
    intro j hj
    obtain ⟨d, hd, -⟩ := hres j hj
    rw [hd]
    rfl
  · have := (h.version id v hv).jobs
    rw [hid] at this
    exact fun h0 => this (List.length_eq_zero_iff.mp h0)

/-- Nothing is frozen of a draft. -/
theorem freezeState_of_unfrozen {id : Uuid} (h : s.Unfrozen id) :
    s.freezeState id = ⟨[], (s.jobsOf id).length, 0⟩ := by
  unfold freezeState snapshotIds
  rw [h.1, List.filter_eq_nil_iff.mpr]
  · rfl
  · intro j hj
    rw [(h.2 j hj).1]
    simp

/-- A job that has ever been attempted has its inputs frozen in the one snapshot. -/
theorem Consistent.resolved_of_attempt (h : s.Consistent) {id : Uuid} {j : CalculationJob}
    (hj : s.calculationJobs.get? id = some j) {a : ExecutionAttempt}
    (ha : a ∈ s.attemptsOf id) :
    ∃ b, s.snapshotsOf j.outputDatasetVersionId = [b] ∧ s.Resolved b.id j := by
  obtain ⟨v, hv, -, -, b, hb, hres⟩ := h.frozen_of_attempt hj ha
  rw [Table.get?_key hv] at hb hres
  exact ⟨b, hb, hres j (mem_jobsOf_of_get? hj)⟩

/-- A snapshot that covers the required domains has one candidate for each. -/
theorem selectRelevant_eq (jobId snapshotId : Uuid) {frozen : List FrozenUpstreamDatasetVersion}
    {domains : List String}
    (h : ∀ domain ∈ domains, ∃ f, frozen.filter (·.identity.domain = domain) = [f]) :
    ∃ upstream, selectRelevantFrozenDependencies jobId snapshotId frozen domains = .ok upstream
      ∧ List.Forall₂ (fun domain f => frozen.filter (·.identity.domain = domain) = [f])
        domains upstream := by
  induction domains with
  | nil => exact ⟨[], rfl, .nil⟩
  | cons domain domains ih =>
      obtain ⟨f, hf⟩ := h domain List.mem_cons_self
      obtain ⟨upstream, hup, hall⟩ := ih fun d hd => h d (List.mem_cons_of_mem _ hd)
      refine ⟨f :: upstream, ?_, .cons hf hall⟩
      simp only [selectRelevantFrozenDependencies, hf, hup]
      rfl

end Store

end CostEngine
