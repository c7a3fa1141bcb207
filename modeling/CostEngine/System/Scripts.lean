import CostEngine.Concurrency.Script
import CostEngine.System.Reachable

/-! # Scripts of the system

Everything a step of the system depends on can be decided, so a run that is written out as a
script can be computed. `Stage.sample` is a configuration with one calculation type that
depends on nothing. -/

namespace CostEngine

open Concurrency (Action Stage play)
open Relational (Table)

/-! ## Deciding a step -/

instance : (w : World) → (q : ExecutorQuestion) → (a : q.Answer) → Decidable (w.Allows q a)
  | w, .dispatch c, .ok .accepted =>
      inferInstanceAs (Decidable ((w.executor c.identity).runExists = true))
  | w, .dispatch c, .ok .alreadyExists =>
      inferInstanceAs (Decidable ((w.executor c.identity).runExists = true))
  | w, .dispatch c, .ok (.rejected _) =>
      inferInstanceAs (Decidable (w.executor c.identity = .rejected))
  | _, .dispatch _, .ok (.unknown _) => isTrue trivial
  | _, .dispatch _, .error _ => isTrue trivial
  | w, .getExecutionStatus i, .ok .running =>
      inferInstanceAs (Decidable (w.executor i = .running))
  | w, .getExecutionStatus i, .ok .succeeded =>
      inferInstanceAs (Decidable (w.executor i = .succeeded))
  | w, .getExecutionStatus i, .ok (.failed _) =>
      inferInstanceAs (Decidable (w.executor i = .failed))
  | _, .getExecutionStatus _, .ok .notFound => isTrue trivial
  | _, .getExecutionStatus _, .ok (.unavailable _) => isTrue trivial
  | _, .getExecutionStatus _, .error _ => isTrue trivial

instance (honours : Prop) : DecidableRel (machine honours).conflict :=
  inferInstanceAs (DecidableRel RowLock.conflict)

instance (honours : Prop) (w : World) (env : TxEnv) : Decidable ((machine honours).begins w env) :=
  inferInstanceAs (Decidable (env.now = w.clock))

instance (honours : Prop) [Decidable honours] (q : ExecutorQuestion) (w : World) (a : q.Answer) :
    Decidable ((machine honours).answers q w a) :=
  inferInstanceAs (Decidable (honours → w.Allows q a))

/-- The moves of an identity, computed. -/
def ExternalExecution.moves : ExternalExecution → List ExternalExecution
  | .unseen => [.rejected, .running]
  | .running => [.succeeded, .failed]
  | _ => []

theorem ExternalExecution.step_of_mem_moves {x y : ExternalExecution} (h : y ∈ x.moves) :
    x.Step y := by
  cases x with
  | unseen =>
      simp only [moves, List.mem_cons, List.not_mem_nil, or_false] at h
      rcases h with rfl | rfl
      · exact .reject
      · exact .create
  | running =>
      simp only [moves, List.mem_cons, List.not_mem_nil, or_false] at h
      rcases h with rfl | rfl
      · exact .succeed
      · exact .fail
  | _ => cases h

/-- The executor moves the identity of the command number `n` to `x`. -/
def World.execute? (n : Nat) (x : ExternalExecution) (w : World) : Option World :=
  match w.sent[n]? with
  | none => none
  | some c =>
      if x ∈ (w.executor c.identity).moves then
        some { w with executor := Function.update w.executor c.identity x }
      else none

theorem World.execute?_step (n : Nat) (x : ExternalExecution) (w w' : World)
    (h : w.execute? n x = some w') : w.Step w' := by
  unfold execute? at h
  split at h
  · cases h
  · rename_i c hc
    split at h
    · cases h
      exact .execute w c x (List.mem_of_getElem? hc) (ExternalExecution.step_of_mem_moves ‹_›)
    · cases h

/-! ## The actions of a script -/

abbrev SystemStage := Stage Store RowLock Write ServiceError TxEnv Transaction
  Transaction.Result DispatchCalculationCommand ExecutorQuestion ExecutorQuestion.Answer
  World Request Response

abbrev Script (honours : Prop) := List (Action (machine honours))

/-- As long as no time passes, every transaction of a script begins at time 0. The UUIDs it draws
are named after it. -/
def drawing (name : String) : TxEnv where
  now := 0
  uuid
    | 0 => name ++ "0"
    | 1 => name ++ "1"
    | 2 => name ++ "2"
    | n + 3 => name ++ toString (n + 3)

def drawingAt (now : Time) (name : String) : TxEnv := { drawing name with now }

namespace Script

variable (honours : Prop)

/-- The thread `i` makes `n` steps. -/
def steps (i n : Nat) (name : String) : Script honours := List.replicate n (.advance i (drawing name))

/-- The same at the time `now`. -/
def stepsAt (now : Time) (i n : Nat) (name : String) : Script honours :=
  List.replicate n (.advance i (drawingAt now name))

def request (req : Request) : Script honours := [.spawn req]

/-- The clock moves on by one. -/
def ticks : Script honours :=
  [.world (fun w => some { w with clock := w.clock + 1 }) fun w x hx => by
    cases hx
    exact .tick w 1]

def executes (n : Nat) (x : ExternalExecution) : Script honours :=
  [.world (World.execute? n x) (World.execute?_step n x)]

/-- Every dispatch is answered with `result`, every lookup with `status`. -/
def answers (i : Nat) (result : DispatchResult) (status : ExecutorExecutionStatus) :
    Script honours :=
  [.answer i fun q => match q with
    | .dispatch _ => .ok result
    | .getExecutionStatus _ => .ok status]

end Script

theorem Reachable.of_play {honours : Prop} [Decidable honours] {script : Script honours}
    {S S' : SystemStage} (hinit : Initial S.state) (h : play (machine honours) script S = some S') :
    Reachable honours S'.state := ⟨S.state, hinit, Concurrency.play_run h⟩

/-- A script that gets through, and what it gets to. -/
theorem exists_of_play {honours : Prop} [Decidable honours] {script : Script honours}
    {S : SystemStage} {p : SystemStage → Bool}
    (h : (play (machine honours) script S).any p = true) :
    ∃ S', play (machine honours) script S = some S' ∧ p S' = true :=
  (Option.any_eq_true _ _).mp h

/-! ## A small configuration -/

theorem SystemStage.nodup_definitions :
    (([⟨"definition", "type", 1, .published⟩] : List DependencyDefinition).map (·.id)).Nodup :=
  List.nodup_singleton _

/-- One type, with a published definition that requires nothing. -/
def SystemStage.sample : SystemStage where
  shared := {
    db := .empty ⟨[⟨"type", "margin", "MARGIN", "margin_dag", true⟩], by decide⟩
      ⟨[⟨"definition", "type", 1, .published⟩], nodup_definitions⟩ .empty
    world := ⟨0, fun _ => .unseen, []⟩ }

theorem SystemStage.sample_initial : Initial sample.state :=
  .intro _ _ _ 0

/-- A version is created, and its job is run until the answer of the executor is awaited. -/
def Script.dispatched (honours : Prop) : Script honours :=
  request honours (.createDatasetVersion ⟨"margin", "acme", 2024, .q1⟩) ++ steps honours 0 26 "v"
    ++ request honours (.runCalculationJob "v2") ++ steps honours 1 52 "a"

/-- The executor accepts the first attempt. -/
def Script.accepted (honours : Prop) : Script honours :=
  dispatched honours ++ executes honours 0 .running
    ++ answers honours 1 .accepted .notFound ++ steps honours 1 18 "a"

/-- The first attempt runs and fails, a second one succeeds, the version is published and the
next one is created. -/
def Script.retried (honours : Prop) : Script honours :=
  dispatched honours ++ executes honours 0 .running
    ++ answers honours 1 .accepted .notFound ++ steps honours 1 19 "a"
    ++ executes honours 0 .failed ++ request honours (.reconcileCalculationJob "v2")
    ++ steps honours 2 2 "b" ++ answers honours 2 .accepted (.failed none) ++ steps honours 2 19 "b"
    ++ request honours (.runCalculationJob "v2") ++ steps honours 3 32 "c"
    ++ executes honours 1 .running ++ answers honours 3 .accepted .notFound
    ++ steps honours 3 19 "c" ++ executes honours 1 .succeeded
    ++ request honours (.reconcileCalculationJob "v2") ++ steps honours 4 2 "d"
    ++ answers honours 4 .accepted .succeeded ++ steps honours 4 19 "d"
    ++ request honours (.submitDatasetValidation "v1") ++ steps honours 5 18 "e"
    ++ request honours (.decideValidatedDataset "v1" .published) ++ steps honours 6 14 "f"
    ++ request honours (.createDatasetVersion ⟨"margin", "acme", 2024, .q1⟩)
    ++ steps honours 7 22 "w"

/-- The statuses of the versions, the jobs and the attempts. -/
def SystemStage.statuses (S : SystemStage) : List DatasetVersionStatus
    × List CalculationJobStatus × List ExecutionAttemptStatus :=
  (S.shared.db.datasetVersions.rows.map (·.status),
    S.shared.db.calculationJobs.rows.map (·.status),
    S.shared.db.executionAttempts.rows.map (·.status))

/-! ## Two domains -/

theorem SystemStage.nodup_chained :
    (([⟨"definition1", "type1", 1, .published⟩, ⟨"definition2", "type2", 1, .published⟩] :
      List DependencyDefinition).map (·.id)).Nodup := by
  decide

/-- Two domains, of which `margin` requires `price`. -/
def SystemStage.chained : SystemStage where
  shared := {
    db := .empty
      ⟨[⟨"type1", "price", "PRICE", "price_dag", true⟩,
        ⟨"type2", "margin", "MARGIN", "margin_dag", true⟩], by decide⟩
      ⟨[⟨"definition1", "type1", 1, .published⟩, ⟨"definition2", "type2", 1, .published⟩],
        nodup_chained⟩
      ⟨[⟨"definition2", "price"⟩], by decide⟩
    world := ⟨0, fun _ => .unseen, []⟩ }

theorem SystemStage.chained_initial : Initial chained.state :=
  .intro _ _ _ 0

/-- A version of `price` is run and published, then one of `margin` is run. -/
def Script.chained (honours : Prop) : Script honours :=
  request honours (.createDatasetVersion ⟨"price", "acme", 2024, .q1⟩) ++ steps honours 0 27 "v"
    ++ request honours (.runCalculationJob "v2") ++ steps honours 1 52 "a"
    ++ executes honours 0 .running ++ answers honours 1 .accepted .notFound
    ++ steps honours 1 19 "a" ++ executes honours 0 .succeeded
    ++ request honours (.reconcileCalculationJob "v2") ++ steps honours 2 2 "b"
    ++ answers honours 2 .accepted .succeeded ++ steps honours 2 19 "b"
    ++ request honours (.submitDatasetValidation "v1") ++ steps honours 3 16 "c"
    ++ request honours (.decideValidatedDataset "v1" .published) ++ steps honours 4 14 "d"
    ++ request honours (.createDatasetVersion ⟨"margin", "acme", 2024, .q1⟩)
    ++ steps honours 5 27 "w" ++ request honours (.runCalculationJob "w2")
    ++ steps honours 6 60 "e"

end CostEngine
