import CostEngine.Demo.ScopedRequests

/-! # Runs that record what the fake answered

The run route around `ScopedRequests`: a Run dispatches through its adapter, records the
result of a dispatch in the attempt, and its `finally` block calls `finish` when the Run has
ended. Explicit Runs of a session overlap; a legacy Run is admitted when no other is under
way, and so dispatches and records alone. A result that could not be recorded, because a
statement failed, is dropped when its Run ends.

The identities come from text columns, which cannot store the character that separates the
two parts of a key. -/

namespace CostEngine

open Relation (ReflTransGen)

/-- A result that a Run has in hand, and has not recorded. -/
structure UnrecordedResult where
  request : Nat
  identity : ExecutionIdentity
  result : DispatchResult
  deriving DecidableEq

structure SimulatedRuns where
  adapters : ScopedRequests
  unrecorded : List UnrecordedResult
  /-- The calls of `recordDispatchOutcome` that committed, in this order. -/
  recorded : List (ExecutionIdentity × DispatchResult)

namespace SimulatedRuns

def new (options : FakeExecutorOptions) : SimulatedRuns where
  adapters := .new options
  unrecorded := []
  recorded := []

variable (S : SimulatedRuns)

/-- No explicit Run is under way. -/
structure Idle : Prop where
  pending : S.adapters.pending = []
  unrecorded : S.unrecorded = []
  releases : ∀ A ∈ S.adapters.requests, A.releases = []

inductive Step (S : SimulatedRuns) : SimulatedRuns → Prop
  | request (requested : FakeRunSimulation) :
      Step S { S with
        adapters := { S.adapters with requests := S.adapters.requests ++ [.new requested] } }
  | dispatch (r : Nat) (A : RequestScopedFakeExecutor) (command : DispatchCalculationCommand) :
      S.adapters.requests[r]? = some A → command.identity.NulFree →
      Step S { S with adapters := S.adapters.dispatched r A command }
  | observe (before : List PendingObservation) (p : PendingObservation)
      (after : List PendingObservation) (A : RequestScopedFakeExecutor) :
      S.adapters.pending = before ++ p :: after → S.adapters.requests[p.request]? = some A →
      Step S { S with
        adapters := { S.adapters with
          requests := S.adapters.requests.set p.request (A.observe p.identity p.observation)
          pending := before ++ after }
        unrecorded := S.unrecorded ++ [⟨p.request, p.identity, p.observation.result⟩] }
  | record (before : List UnrecordedResult) (u : UnrecordedResult)
      (after : List UnrecordedResult) : S.unrecorded = before ++ u :: after →
      Step S { S with
        unrecorded := before ++ after
        recorded := S.recorded ++ [(u.identity, u.result)] }
  | finish (r : Nat) (A : RequestScopedFakeExecutor) : S.adapters.requests[r]? = some A →
      (∀ p ∈ S.adapters.pending, p.request ≠ r) →
      Step S { S with
        adapters := { S.adapters with
          fake := (A.finish S.adapters.fake).2
          requests := S.adapters.requests.set r (A.finish S.adapters.fake).1 }
        unrecorded := S.unrecorded.filter fun u => u.request ≠ r }
  | legacy (command : DispatchCalculationCommand) (stored : Bool) : S.Idle →
      command.identity.NulFree →
      Step S { S with
        adapters := S.adapters.legacyDispatched command
        recorded := S.recorded ++
          if stored then [(command.identity, (S.adapters.fake.dispatch command).1)] else [] }
  | control (c : FakeCall) : c.dispatched = none → (∀ n, c ≠ .finish n) → c.NulFree →
      Step S { S with adapters := { S.adapters with fake := S.adapters.fake.call c } }

def Run : SimulatedRuns → SimulatedRuns → Prop := ReflTransGen Step

def Reached : Prop := ∃ options, (new options).Run S

/-- The closures that the Runs still have to call: in answers on their way, and in adapters. -/
def held : List Nat :=
  S.adapters.pending.flatMap (·.observation.finish.toList)
    ++ S.adapters.requests.flatMap (·.releases)

/-- How many answers for the key have a closure that a Run still has to call. -/
def outstanding (key : String) : Nat :=
  S.held.countP fun n => (S.adapters.fake.unboundOutcomes[n]?).any (·.key = key)

end SimulatedRuns

end CostEngine
