import CostEngine.Demo.SimulatedSteps
import CostEngine.Properties.FakeExecutor

/-! # A rejection waits for the ambiguous answers before it

The fake counts the ambiguous answers that a Run has not finished with, and defers a rejection
while there is one. So no Run records an ambiguous outcome after another has recorded the
rejection of the same identity, whatever the order of their steps. -/

namespace CostEngine

open Relation (ReflTransGen)

namespace SimulatedRuns

variable {S : SimulatedRuns}

/-- What the deferral is for, and that it ends. -/
structure Deferring (S : SimulatedRuns) : Prop where
  /-- After a rejection nothing else is recorded of its identity. -/
  ordered : S.recorded.Pairwise RejectedFirst
  /-- The count of a key is the number of its open closures, and missing if there are none. -/
  counted : ∀ key, S.adapters.fake.pendingUnboundOutcomes key
    = if S.adapters.fake.unfinished key = 0 then none
      else some (S.adapters.fake.unfinished key : Int)
  /-- Every open closure is one that a Run will call, once. -/
  held : ∀ n, S.held.count n = (S.adapters.fake.awaits n).toNat
  /-- When all Runs have ended, every count is gone. -/
  ended : S.held = [] → ∀ key, S.adapters.fake.pendingUnboundOutcomes key = none
  /-- A rejected identity has no ambiguous answer that could still be recorded. -/
  rejected : ∀ key, S.adapters.fake.fate key = .rejected → S.adapters.fake.unfinished key = 0
  /-- And an open one is rejected as soon as it has none. -/
  rejects : ∀ command, S.adapters.fake.fate (executionKey command.identity) = .unseen →
    (S.adapters.fake.dispatchWithSimulation command .reject).1.result
      = if S.adapters.fake.unfinished (executionKey command.identity) = 0 then
          .rejected "Fake executor rejected dispatch"
        else .unknown
          "Fake rejection deferred while an earlier ambiguous dispatch is recording"

/-- **Rejections are deferred** for as long as a Run may record an ambiguous outcome, in every run
of overlapping requests, legacy Runs and controls. -/
theorem rejections_deferred (h : S.Reached) : S.Deferring where
  ordered := h.sound.ordered
  counted := h.sound.coherent.pending
  held := h.sound.counted
  ended hheld key := by
    have hzero : S.adapters.fake.unfinished key = 0 := by
      refine FakeExecutor.unfinished_eq_zero_iff.mpr fun n outcome houtcome => ?_
      have hcount := h.sound.counted n
      rw [hheld, FakeExecutor.awaits, houtcome, Option.any_some] at hcount
      cases hfinished : outcome.finished with
      | false =>
          rw [hfinished] at hcount
          cases hcount
      | true => simp [UnboundOutcome.waits, hfinished]
    rw [h.sound.coherent.pending, if_pos hzero]
  rejected := h.sound.settled
  rejects _ hunseen := reject_result h.sound.coherent hunseen

/-- An ambiguous answer and a rejection that is deferred for it, both on their way. -/
theorem rejections_deferred_raced : ∃ S : SimulatedRuns, S.Reached ∧ S.held = [0, 1]
    ∧ S.Deferring := by
  let S₀ : SimulatedRuns := { new {} with
    adapters := { (new {}).adapters with requests := [.new .unknownWithoutCreation] ++ [.new .reject] } }
  let S₁ : SimulatedRuns := { S₀ with
    adapters := S₀.adapters.dispatched 0 (.new .unknownWithoutCreation) FakeExecutor.sampleCommand }
  let S : SimulatedRuns := { S₁ with
    adapters := S₁.adapters.dispatched 1 (.new .reject) FakeExecutor.sampleCommand }
  have hnul : FakeExecutor.sampleCommand.identity.NulFree := ⟨by decide, by decide⟩
  have hreached : S.Reached := by
    refine ⟨{}, ReflTransGen.tail (ReflTransGen.tail (ReflTransGen.tail (ReflTransGen.single
      (Step.request .unknownWithoutCreation)) (Step.request .reject))
        (Step.dispatch 0 _ FakeExecutor.sampleCommand rfl hnul)) ?_⟩
    exact Step.dispatch 1 _ FakeExecutor.sampleCommand rfl hnul
  exact ⟨S, hreached, by decide +kernel, rejections_deferred hreached⟩

end SimulatedRuns

end CostEngine
