import CostEngine.Demo.RequestScopedFakeExecutor
import CostEngine.Executor.Fate

/-! # Run requests on one fake

Any number of requests with an explicit simulation, each with its own adapter, and beside them
the legacy dispatches and the controls of the session. What the fake observed waits in
`pending` until its adapter takes note of it; the promises may resolve in any order.

`decided` is the history: for every identity that a dispatch created or rejected, whose
dispatch it was. -/

namespace CostEngine

open Relation (ReflTransGen)

/-- An observation that has not been recorded yet. -/
structure PendingObservation where
  request : Nat
  identity : ExecutionIdentity
  observation : FakeSimulatedDispatch
  deriving DecidableEq

/-- Who dispatched: the request of an adapter, by its number, or a call without one. -/
inductive Dispatcher where
  | legacy
  | request (r : Nat)
  deriving DecidableEq

structure ScopedRequests where
  fake : FakeExecutor
  requests : List RequestScopedFakeExecutor
  pending : List PendingObservation
  decided : List (ExecutionIdentity × Dispatcher)

/-- What a dispatch adds to the history: its identity, if it was undecided and no longer is. -/
def FakeExecutor.newlyDecided (F F' : FakeExecutor) (i : ExecutionIdentity) (who : Dispatcher) :
    List (ExecutionIdentity × Dispatcher) :=
  if F.fate (executionKey i) = .unseen ∧ F'.fate (executionKey i) ≠ .unseen then [(i, who)]
  else []

namespace ScopedRequests

def new (options : FakeExecutorOptions) : ScopedRequests where
  fake := .new options
  requests := []
  pending := []
  decided := []

variable (S : ScopedRequests)

/-- The synchronous part of a dispatch by the adapter `A` of the request `r`. -/
def dispatched (r : Nat) (A : RequestScopedFakeExecutor) (command : DispatchCalculationCommand) :
    ScopedRequests :=
  let (observation, fake) := A.dispatch S.fake command
  { S with
    fake := fake
    pending := S.pending ++ [⟨r, command.identity, observation⟩]
    decided := S.decided ++ S.fake.newlyDecided fake command.identity (.request r) }

/-- A dispatch without a simulation. -/
def legacyDispatched (command : DispatchCalculationCommand) : ScopedRequests :=
  let (_, fake) := S.fake.dispatch command
  { S with
    fake := fake
    decided := S.decided ++ S.fake.newlyDecided fake command.identity .legacy }

inductive Step (S : ScopedRequests) : ScopedRequests → Prop
  | request (requested : FakeRunSimulation) :
      Step S { S with requests := S.requests ++ [.new requested] }
  | dispatch (r : Nat) (A : RequestScopedFakeExecutor) (command : DispatchCalculationCommand) :
      S.requests[r]? = some A → Step S (S.dispatched r A command)
  | observe (before : List PendingObservation) (p : PendingObservation)
      (after : List PendingObservation) (A : RequestScopedFakeExecutor) :
      S.pending = before ++ p :: after → S.requests[p.request]? = some A →
      Step S { S with
        requests := S.requests.set p.request (A.observe p.identity p.observation)
        pending := before ++ after }
  | finish (r : Nat) (A : RequestScopedFakeExecutor) : S.requests[r]? = some A →
      Step S { S with
        fake := (A.finish S.fake).2
        requests := S.requests.set r (A.finish S.fake).1 }
  | legacy (command : DispatchCalculationCommand) : Step S (S.legacyDispatched command)
  | call (c : FakeCall) : c.dispatched = none → Step S { S with fake := S.fake.call c }

def Run : ScopedRequests → ScopedRequests → Prop := ReflTransGen Step

def Reached : Prop := ∃ options, (new options).Run S

/-- The request `r` may report now, and what it reports of `i`: it has no dispatch pending. -/
def Reports (r : Nat) (i : ExecutionIdentity) (report : SimulationReport) : Prop :=
  (∀ p ∈ S.pending, p.request ≠ r)
    ∧ ∃ A, S.requests[r]? = some A ∧ A.report S.fake i = report

/-- The identity was created or rejected by a dispatch of `who`. -/
def DecidedBy (i : ExecutionIdentity) (who : Dispatcher) : Prop :=
  ∃ d ∈ S.decided, executionKey d.1 = executionKey i ∧ d.2 = who

/-- The settings of a request. -/
def Requested (r : Nat) (requested : FakeRunSimulation) : Prop :=
  ∃ A, S.requests[r]? = some A ∧ A.requested = requested

end ScopedRequests

end CostEngine
