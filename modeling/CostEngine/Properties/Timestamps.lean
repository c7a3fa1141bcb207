import CostEngine.System.Clock
import CostEngine.System.Scripts

/-! # The timestamps of versions and attempts

Every timestamp is `NOW()`, which is when its transaction began and not when it got its turn.
So a transaction that began early and waited notes an earlier time than those it waited for,
and the order of the timestamps is that of the updates only as far as no transaction waits. -/

namespace CostEngine

open Concurrency (play playWhile)

variable {honours : Prop} {st₀ st : System}

/-! ## The property -/

/-- Four transactions begin and wait: the first Run of a version that is yet to be created, the
publication of a version, its submission, and the reconciliation of an attempt. Then what they
wait for happens, and they go on. -/
def Script.waiting (honours : Prop) : Script honours :=
  request honours (.prepareCalculationJobRun "w2") ++ steps honours 0 1 "p"
    ++ request honours (.createDatasetVersion ⟨"margin", "acme", 2024, .q1⟩)
    ++ steps honours 1 27 "v" ++ ticks honours
    ++ request honours (.decideValidatedDataset "v1" .published) ++ stepsAt honours 1 2 2 "d"
    ++ ticks honours
    ++ request honours (.submitDatasetValidation "v1") ++ stepsAt honours 2 3 1 "s"
    ++ ticks honours
    ++ request honours (.runCalculationJob "v2") ++ stepsAt honours 3 4 52 "a"
    ++ executes honours 0 .running ++ request honours (.reconcileCalculationJob "v2")
    ++ stepsAt honours 3 5 2 "r" ++ executes honours 0 .succeeded
    ++ answers honours 5 .accepted .succeeded ++ stepsAt honours 3 5 1 "r" ++ ticks honours
    ++ answers honours 4 .accepted .notFound ++ stepsAt honours 4 4 19 "a"
    ++ stepsAt honours 4 5 18 "r" ++ stepsAt honours 4 3 15 "s" ++ stepsAt honours 4 2 12 "d"
    ++ request honours (.createDatasetVersion ⟨"margin", "acme", 2024, .q2⟩)
    ++ stepsAt honours 4 6 27 "w" ++ stepsAt honours 4 0 35 "p"

/-- The timestamps of the versions and of the attempts. -/
def SystemStage.times (S : SystemStage) : List (List (Option Time)) × List (List (Option Time)) :=
  (S.shared.db.datasetVersions.rows.map DatasetVersion.times,
    S.shared.db.executionAttempts.rows.map ExecutionAttempt.times)

/-- Every thread that is about to commit began within the last `d`. -/
def SystemStage.commitsWithin (d : Time) (S : SystemStage) : Bool :=
  S.threads.all fun th => match th with
    | .inTxn _ _ _ _ ⟨env, _, _, _, .pure _⟩ => S.shared.world.clock ≤ env.now + d
    | _ => true

theorem SystemStage.commitsWithin_of_eq_true {d : Time} (S : SystemStage) (st' : System)
    (h : commitsWithin d S = true) : CommitsWithin d S.state st' := by
  rintro i req log t k r ⟨env, seen, locks, writes, rest⟩ hi rfl -
  have hcheck := List.all_eq_true.mp h _ (Concurrency.Stage.mem_threads hi (by simp))
  exact of_decide_eq_true hcheck

end CostEngine
