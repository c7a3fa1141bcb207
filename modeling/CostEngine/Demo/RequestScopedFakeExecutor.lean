import CostEngine.Executor.FakeExecutor

/-! # `request-scoped-fake-executor.ts`

The adapter that one Run request with an explicit simulation puts before the fake of its
session. A dispatch of it is two steps: the fake decides at once, and the adapter takes note
of the observation when the promise resolves. -/

namespace CostEngine

inductive SimulationApplication where
  | applied
  | existing
  | unbound
  | unknown
  deriving DecidableEq

structure SimulationReport where
  requested : FakeRunSimulation
  applied : Option FakeRunSimulation
  application : SimulationApplication
  deriving DecidableEq

/-- `releases` has the closures that do something. -/
structure RequestScopedFakeExecutor where
  requested : FakeRunSimulation
  decisions : List FakeSimulationDecision
  releases : List Nat
  rejectedIdentity : Option ExecutionIdentity
  deriving DecidableEq

namespace RequestScopedFakeExecutor

/-- The constructor, for any delegate. -/
def new (requested : FakeRunSimulation) : RequestScopedFakeExecutor where
  requested := requested
  decisions := []
  releases := []
  rejectedIdentity := none

variable (A : RequestScopedFakeExecutor)

/-- The start of `dispatch`, up to its `await`. -/
def dispatch (F : FakeExecutor) (command : DispatchCalculationCommand) :
    FakeSimulatedDispatch × FakeExecutor :=
  F.dispatchWithSimulation command A.requested

/-- The rest of `dispatch`, with what the fake observed. -/
def observe (identity : ExecutionIdentity) (observation : FakeSimulatedDispatch) :
    RequestScopedFakeExecutor :=
  { A with
    releases := A.releases ++ observation.finish.toList
    decisions :=
      match observation.applied, observation.decision with
      | true, some decision => A.decisions.insert decision
      | _, _ => A.decisions
    rejectedIdentity :=
      match observation.result with
      | .rejected _ => some identity
      | _ => A.rejectedIdentity }

def report (F : FakeExecutor) (identity : ExecutionIdentity) : SimulationReport :=
  match F.simulationInfo identity with
  | .unbound => ⟨A.requested, none, .unbound⟩
  | .bound none => ⟨A.requested, none, .unknown⟩
  | .bound (some decision) =>
      ⟨A.requested, some decision.simulation,
        if decision ∈ A.decisions then .applied else .existing⟩

def rejectionReport (F : FakeExecutor) : Option SimulationReport :=
  A.rejectedIdentity.map (A.report F)

/-- Every closure is called once, in the order in which they were added. -/
def finish (F : FakeExecutor) : RequestScopedFakeExecutor × FakeExecutor :=
  ({ A with releases := [] }, A.releases.foldl FakeExecutor.finish F)

end RequestScopedFakeExecutor

end CostEngine
