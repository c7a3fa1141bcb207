import CostEngine.CalculationJob.ReconciliationRepository
import CostEngine.DatasetVersion.LifecycleRepository
import CostEngine.DatasetVersion.Repository

/-! # What one update may do to a row

Every `UPDATE` of the services is guarded by the status it expects. `AttemptStep`,
`JobStep` and `VersionStep` list the guarded updates, one constructor each; the rest of the
file is what no sequence of them can do: change an immutable column, leave a final
status, or overwrite a timestamp. -/

namespace CostEngine

open Relation (ReflTransGen)

/-! ## Attempts -/

/-- `PREPARED → DISPATCHING → {ACCEPTED, SUCCEEDED, FAILED, DISPATCH_FAILED}` and
`ACCEPTED → {SUCCEEDED, FAILED}`. -/
inductive ExecutionAttemptStatus.Next : ExecutionAttemptStatus → ExecutionAttemptStatus → Prop
  | dispatch : Next .prepared .dispatching
  | accept : Next .dispatching .accepted
  | reject : Next .dispatching .dispatchFailed
  | overtakenSuccess : Next .dispatching .succeeded
  | overtakenFailure : Next .dispatching .failed
  | succeed : Next .accepted .succeeded
  | fail : Next .accepted .failed

theorem ExecutionAttemptStatus.Next.ne_prepared {x y : ExecutionAttemptStatus}
    (h : x.Next y) : y ≠ .prepared := by cases h <;> decide

/-- An attempt as it is inserted at the time `now`. -/
structure ExecutionAttempt.PreparedAt (now : Time) (a : ExecutionAttempt) : Prop where
  status : a.status = .prepared
  createdAt : a.createdAt = now
  dispatchStartedAt : a.dispatchStartedAt = none
  acceptedAt : a.acceptedAt = none
  finishedAt : a.finishedAt = none

/-- A guarded update of an attempt at the time `now`. -/
inductive AttemptStepAt (now : Time) : ExecutionAttempt → ExecutionAttempt → Prop
  | dispatching (a : ExecutionAttempt) :
      a.status = .prepared → AttemptStepAt now a (a.dispatching now)
  | acceptedByDispatch (a : ExecutionAttempt) :
      a.status = .dispatching → AttemptStepAt now a (a.acceptedByDispatch now)
  | dispatchFailed (a : ExecutionAttempt) (message : String) :
      a.status = .dispatching → AttemptStepAt now a (a.dispatchFailed now message)
  | diagnosed (a : ExecutionAttempt) (message : String) :
      a.status = .dispatching → AttemptStepAt now a (a.diagnosed message)
  | acceptedByReconciliation (a : ExecutionAttempt) :
      a.status = .dispatching → AttemptStepAt now a (a.acceptedByReconciliation now)
  | finished (a : ExecutionAttempt) (target : ExecutionAttemptStatus) :
      a.status = .dispatching ∨ a.status = .accepted →
      target = .succeeded ∨ target = .failed → AttemptStepAt now a (a.finished now target)

def AttemptStep (a a' : ExecutionAttempt) : Prop := ∃ now, AttemptStepAt now a a'

theorem AttemptStepAt.step {now : Time} {a a' : ExecutionAttempt} (h : AttemptStepAt now a a') :
    AttemptStep a a' := ⟨now, h⟩

namespace AttemptStep

variable {a a' : ExecutionAttempt}

theorem status (h : AttemptStep a a') :
    a'.status = a.status ∧ a.status = .dispatching ∨ a.status.Next a'.status := by
  obtain ⟨now, h⟩ := h
  cases h with
  | dispatching h => exact .inr (by rw [h]; exact .dispatch)
  | acceptedByDispatch h => exact .inr (by rw [h]; exact .accept)
  | dispatchFailed message h => exact .inr (by rw [h]; exact .reject)
  | diagnosed message h => exact .inl ⟨rfl, h⟩
  | acceptedByReconciliation h => exact .inr (by rw [h]; exact .accept)
  | finished target h ht =>
      rcases h with h | h <;> rcases ht with rfl | rfl <;> refine .inr ?_ <;> rw [h]
      exacts [.overtakenSuccess, .overtakenFailure, .succeed, .fail]

/-- The columns that say which attempt it is. -/
theorem columns (h : AttemptStep a a') :
    a'.id = a.id ∧ a'.calculationJobId = a.calculationJobId
      ∧ a'.attemptNumber = a.attemptNumber ∧ a'.airflowDagId = a.airflowDagId
      ∧ a'.airflowDagRunId = a.airflowDagRunId ∧ a'.createdAt = a.createdAt := by
  obtain ⟨now, h⟩ := h
  cases h <;> exact ⟨rfl, rfl, rfl, rfl, rfl, rfl⟩

theorem active (h : AttemptStep a a') : a.status.isActive = true := by
  obtain ⟨now, h⟩ := h
  cases h with
  | dispatching h => rw [h]; rfl
  | acceptedByDispatch h => rw [h]; rfl
  | dispatchFailed message h => rw [h]; rfl
  | diagnosed message h => rw [h]; rfl
  | acceptedByReconciliation h => rw [h]; rfl
  | finished target h ht => rcases h with h | h <;> rw [h] <;> rfl

theorem not_prepared (h : AttemptStep a a') : a'.status ≠ .prepared := by
  rcases h.status with ⟨h₁, h₂⟩ | h₁
  · rw [h₁, h₂]; decide
  · exact h₁.ne_prepared

end AttemptStep

/-- What a run of updates leaves alone. -/
theorem attempt_columns {a a' : ExecutionAttempt} (h : ReflTransGen AttemptStep a a') :
    a'.id = a.id ∧ a'.calculationJobId = a.calculationJobId
      ∧ a'.attemptNumber = a.attemptNumber ∧ a'.airflowDagId = a.airflowDagId
      ∧ a'.airflowDagRunId = a.airflowDagRunId ∧ a'.createdAt = a.createdAt := by
  induction h with
  | refl => exact ⟨rfl, rfl, rfl, rfl, rfl, rfl⟩
  | tail _ hs ih =>
      obtain ⟨h₁, h₂, h₃, h₄, h₅, h₆⟩ := hs.columns
      obtain ⟨i₁, i₂, i₃, i₄, i₅, i₆⟩ := ih
      exact ⟨h₁.trans i₁, h₂.trans i₂, h₃.trans i₃, h₄.trans i₄, h₅.trans i₅, h₆.trans i₆⟩

/-- Nothing is written to an attempt that is over. -/
theorem attempt_over {a a' : ExecutionAttempt} (h : ReflTransGen AttemptStep a a')
    (ha : a.status.isActive = false) : a' = a := by
  induction h with
  | refl => rfl
  | tail _ hs ih =>
      subst ih
      rw [hs.active] at ha
      cases ha

theorem attempt_status {a a' : ExecutionAttempt} (h : ReflTransGen AttemptStep a a') :
    ReflTransGen ExecutionAttemptStatus.Next a.status a'.status := by
  induction h with
  | refl => exact .refl
  | tail _ hs ih =>
      rcases hs.status with ⟨he, -⟩ | hn
      · rwa [he]
      · exact ih.tail hn

theorem attempt_not_prepared {a a' : ExecutionAttempt} (h : ReflTransGen AttemptStep a a')
    (ha : a.status ≠ .prepared) : a'.status ≠ .prepared := by
  cases h with
  | refl => exact ha
  | tail _ hs => exact hs.not_prepared

/-! ## Jobs -/

inductive JobStep : CalculationJob → CalculationJob → Prop
  | resolved (j : CalculationJob) (definitionVersionId : Uuid) :
      j.resolvedDependencyDefinitionVersionId = none →
      JobStep j { j with resolvedDependencyDefinitionVersionId := some definitionVersionId }
  | running (j : CalculationJob) (now : Time) :
      j.status = .pending ∨ j.status = .failed → JobStep j (j.running now)
  | finished (j : CalculationJob) (now : Time) (target : CalculationJobStatus) :
      j.status ≠ .succeeded → target = .succeeded ∨ target = .failed →
      JobStep j (j.finished now target)

theorem JobStep.columns {j j' : CalculationJob} (h : JobStep j j') :
    j'.id = j.id ∧ j'.outputDatasetVersionId = j.outputDatasetVersionId
      ∧ j'.calculationTypeId = j.calculationTypeId ∧ j'.createdAt = j.createdAt
      ∧ ∀ d, j.resolvedDependencyDefinitionVersionId = some d →
        j'.resolvedDependencyDefinitionVersionId = some d := by
  cases h with
  | resolved d h => exact ⟨rfl, rfl, rfl, rfl, fun e he => by rw [h] at he; cases he⟩
  | running now h => exact ⟨rfl, rfl, rfl, rfl, fun _ h => h⟩
  | finished now target h ht => exact ⟨rfl, rfl, rfl, rfl, fun _ h => h⟩

theorem job_columns {j j' : CalculationJob} (h : ReflTransGen JobStep j j') :
    j'.id = j.id ∧ j'.outputDatasetVersionId = j.outputDatasetVersionId
      ∧ j'.calculationTypeId = j.calculationTypeId ∧ j'.createdAt = j.createdAt
      ∧ ∀ d, j.resolvedDependencyDefinitionVersionId = some d →
        j'.resolvedDependencyDefinitionVersionId = some d := by
  induction h with
  | refl => exact ⟨rfl, rfl, rfl, rfl, fun _ h => h⟩
  | tail _ hs ih =>
      obtain ⟨h₁, h₂, h₃, h₄, h₅⟩ := hs.columns
      obtain ⟨i₁, i₂, i₃, i₄, i₅⟩ := ih
      exact ⟨h₁.trans i₁, h₂.trans i₂, h₃.trans i₃, h₄.trans i₄, fun d hd => h₅ d (i₅ d hd)⟩

/-- A job stays `SUCCEEDED`. -/
theorem job_succeeded {j j' : CalculationJob} (h : ReflTransGen JobStep j j')
    (hj : j.status = .succeeded) : j'.status = .succeeded := by
  induction h with
  | refl => exact hj
  | tail _ hs ih =>
      cases hs with
      | resolved d h => exact ih
      | running now h => rw [ih] at h; simp at h
      | finished now target h ht => exact absurd ih h

/-! ## Versions -/

/-- `DRAFT → BUILDING → VALIDATING → {PUBLISHED, REJECTED}` and
`{DRAFT, BUILDING} → ABANDONED`. -/
inductive DatasetVersionStatus.Next : DatasetVersionStatus → DatasetVersionStatus → Prop
  | freeze : Next .draft .building
  | submit : Next .building .validating
  | publish : Next .validating .published
  | reject : Next .validating .rejected
  | abandonDraft : Next .draft .abandoned
  | abandonBuilding : Next .building .abandoned

def DatasetVersion.building (now : Time) (v : DatasetVersion) : DatasetVersion :=
  { v with status := .building, buildingStartedAt := some now }

/-- A guarded update of a version at the time `now`. -/
inductive VersionStepAt (now : Time) : DatasetVersion → DatasetVersion → Prop
  | building (v : DatasetVersion) :
      v.status = .draft → VersionStepAt now v (v.building now)
  | lifecycle (v : DatasetVersion) (target : LifecycleTarget) :
      v.status ∈ target.sources → VersionStepAt now v (target.columns now v)

def VersionStep (v v' : DatasetVersion) : Prop := ∃ now, VersionStepAt now v v'

theorem VersionStepAt.step {now : Time} {v v' : DatasetVersion} (h : VersionStepAt now v v') :
    VersionStep v v' := ⟨now, h⟩

theorem VersionStep.status {v v' : DatasetVersion} (h : VersionStep v v') :
    v.status.Next v'.status := by
  obtain ⟨now, h⟩ := h
  cases h with
  | building h => rw [h]; exact .freeze
  | lifecycle target h =>
      cases target with
      | validating =>
          rw [List.mem_singleton.mp h]
          exact .submit
      | published =>
          rw [List.mem_singleton.mp h]
          exact .publish
      | rejected =>
          rw [List.mem_singleton.mp h]
          exact .reject
      | abandoned =>
          rcases List.mem_cons.mp h with h | h
          · rw [h]; exact .abandonDraft
          · rw [List.mem_singleton.mp h]; exact .abandonBuilding

theorem VersionStep.columns {v v' : DatasetVersion} (h : VersionStep v v') :
    v'.id = v.id ∧ v'.datasetSeriesId = v.datasetSeriesId ∧ v'.version = v.version
      ∧ v'.createdAt = v.createdAt := by
  obtain ⟨now, h⟩ := h
  cases h with
  | building h => exact ⟨rfl, rfl, rfl, rfl⟩
  | lifecycle target h => cases target <;> exact ⟨rfl, rfl, rfl, rfl⟩

theorem version_columns {v v' : DatasetVersion} (h : ReflTransGen VersionStep v v') :
    v'.id = v.id ∧ v'.datasetSeriesId = v.datasetSeriesId ∧ v'.version = v.version
      ∧ v'.createdAt = v.createdAt := by
  induction h with
  | refl => exact ⟨rfl, rfl, rfl, rfl⟩
  | tail _ hs ih =>
      obtain ⟨h₁, h₂, h₃, h₄⟩ := hs.columns
      obtain ⟨i₁, i₂, i₃, i₄⟩ := ih
      exact ⟨h₁.trans i₁, h₂.trans i₂, h₃.trans i₃, h₄.trans i₄⟩

theorem version_status {v v' : DatasetVersion} (h : ReflTransGen VersionStep v v') :
    ReflTransGen DatasetVersionStatus.Next v.status v'.status := by
  induction h with
  | refl => exact .refl
  | tail _ hs ih => exact ih.tail hs.status

/-- A version in a final state. -/
def DatasetVersionStatus.isFinal : DatasetVersionStatus → Bool
  | .published | .rejected | .abandoned => true
  | _ => false

theorem VersionStep.not_final {v v' : DatasetVersion} (h : VersionStep v v') :
    v.status.isFinal = false := by
  have := h.status
  revert this
  generalize v.status = x
  generalize v'.status = y
  intro h
  cases h <;> rfl

theorem version_final {v v' : DatasetVersion} (h : ReflTransGen VersionStep v v')
    (hv : v.status.isFinal = true) : v' = v := by
  induction h with
  | refl => rfl
  | tail _ hs ih =>
      subst ih
      rw [hs.not_final] at hv
      cases hv

/-- No version becomes a draft again. -/
theorem version_not_draft {v v' : DatasetVersion} (h : ReflTransGen VersionStep v v')
    (hv : v.status ≠ .draft) : v'.status ≠ .draft := by
  cases h with
  | refl => exact hv
  | tail _ hs =>
      have := hs.status
      revert this
      generalize DatasetVersion.status _ = x
      generalize DatasetVersion.status _ = y
      intro h
      cases h <;> decide

/-- A version that is not active never becomes so. -/
theorem version_active {v v' : DatasetVersion} (h : ReflTransGen VersionStep v v')
    (hv : v'.status.isActive = true) : v.status.isActive = true := by
  induction h with
  | refl => exact hv
  | tail _ hs ih =>
      refine ih ?_
      have := hs.not_final
      revert this
      generalize DatasetVersion.status _ = x
      cases x <;> decide

/-- Statuses between which a version moves without leaving the open or the settled part
of its life. Execution changes nothing outside the phase `building`. -/
inductive Phase where
  | draft | building | settled | abandoned
  deriving DecidableEq

def DatasetVersionStatus.phase : DatasetVersionStatus → Phase
  | .draft => .draft
  | .building => .building
  | .validating | .published | .rejected => .settled
  | .abandoned => .abandoned

theorem DatasetVersionStatus.phase_eq_draft {x : DatasetVersionStatus} :
    x.phase = .draft ↔ x = .draft := by cases x <;> decide

theorem DatasetVersionStatus.phase_eq_building {x : DatasetVersionStatus} :
    x.phase = .building ↔ x = .building := by cases x <;> decide

/-! ## Series -/

inductive SeriesStep : DatasetSeries → DatasetSeries → Prop
  | allocated (r : DatasetSeries) : SeriesStep r r.allocated

theorem series_columns {r r' : DatasetSeries} (h : ReflTransGen SeriesStep r r') :
    r'.id = r.id ∧ r'.identity = r.identity
      ∧ r.lastAllocatedVersion ≤ r'.lastAllocatedVersion := by
  induction h with
  | refl => exact ⟨rfl, rfl, Nat.le_refl _⟩
  | tail _ hs ih =>
      cases hs with
      | allocated => exact ⟨ih.1, ih.2.1, Nat.le_succ_of_le ih.2.2⟩

end CostEngine
