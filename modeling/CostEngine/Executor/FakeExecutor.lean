import Mathlib.Logic.Function.Basic
import CostEngine.Executor.Boundary
import CostEngine.Relational.Table

/-! # `fake-executor.ts`

The in-memory executor of the demo and the tests. It keeps the runs it created and the
identities it rejected, both under `executionKey`, and a queue of scripted behaviors. Every
method is one synchronous step; the objects it returns are modelled by their values, except
for `finish`, whose closure is the number of an entry of `unboundOutcomes`, and for a recorded
decision, which its users compare by identity. -/

namespace CostEngine

open Relational (Table)

inductive FakeDispatchBehavior where
  | accept
  | reject
  | acceptThenUnknown
  | unknownWithoutCreation
  deriving DecidableEq

inductive FakeExecutionState where
  | running
  | succeeded
  | failed
  deriving DecidableEq

structure FakeExternalExecution where
  airflowDagId : String
  airflowDagRunId : String
  command : DispatchCalculationCommand
  state : FakeExecutionState
  deriving DecidableEq

/-- The explicit behavior of one Run. Only a simulation that creates has a completion. -/
inductive FakeRunSimulation where
  | accept (completion : FakeExecutionState)
  | acceptThenUnknown (completion : FakeExecutionState)
  | reject
  | unknownWithoutCreation
  deriving DecidableEq

/-! ### Simulations -/

namespace FakeRunSimulation

/-- `simulation.dispatch`. -/
def dispatch : FakeRunSimulation → FakeDispatchBehavior
  | .accept _ => .accept
  | .acceptThenUnknown _ => .acceptThenUnknown
  | .reject => .reject
  | .unknownWithoutCreation => .unknownWithoutCreation

/-- `simulation.completion`, of those that have one. -/
def completion? : FakeRunSimulation → Option FakeExecutionState
  | .accept completion => some completion
  | .acceptThenUnknown completion => some completion
  | _ => none

end FakeRunSimulation

/-! ### Decisions and closures -/

/-- `object` stands for the identity of the frozen object: the number of the dispatch that
allocated it. -/
structure FakeSimulationDecision where
  simulation : FakeRunSimulation
  object : Nat
  deriving DecidableEq

inductive FakeSimulationInfo where
  | unbound
  | bound (decision : Option FakeSimulationDecision)
  deriving DecidableEq

/-- `finish` is the closure that was returned, or `none` for the one that does nothing. -/
structure FakeSimulatedDispatch where
  result : DispatchResult
  decision : Option FakeSimulationDecision
  applied : Bool
  finish : Option Nat
  deriving DecidableEq

structure FakeExecutorOptions where
  defaultBehavior : Option FakeDispatchBehavior := none
  scriptedBehaviors : List FakeDispatchBehavior := []

/-! ### The state of the executor -/

def executionKey (identity : ExecutionIdentity) : String :=
  identity.airflowDagId ++ "\x00" ++ identity.airflowDagRunId

def FakeExternalExecution.identity (e : FakeExternalExecution) : ExecutionIdentity :=
  ⟨e.airflowDagId, e.airflowDagRunId⟩

/-- What a `finish` closure holds: the key it counts for, and whether it was called. -/
structure UnboundOutcome where
  key : String
  finished : Bool
  deriving DecidableEq

structure FakeExecutor where
  externalExecutions : Table FakeExternalExecution String fun e => executionKey e.identity
  rejectedIdentities : List String
  simulationDecisions : String → Option FakeSimulationDecision
  pendingUnboundOutcomes : String → Option Int
  unboundOutcomes : List UnboundOutcome
  dispatchHistory : List DispatchCalculationCommand
  statusLookupHistory : List ExecutionIdentity
  scriptedBehaviors : List FakeDispatchBehavior
  defaultBehavior : FakeDispatchBehavior
  statusLookupUnavailableMessage : Option String

namespace FakeExecutor

/-- The constructor. -/
def new (options : FakeExecutorOptions) : FakeExecutor where
  externalExecutions := .empty
  rejectedIdentities := []
  simulationDecisions _ := none
  pendingUnboundOutcomes _ := none
  unboundOutcomes := []
  dispatchHistory := []
  statusLookupHistory := []
  scriptedBehaviors := options.scriptedBehaviors
  defaultBehavior := options.defaultBehavior.getD .accept
  statusLookupUnavailableMessage := none

variable (F : FakeExecutor)

/-! ### Controls -/

def setDefaultBehavior (behavior : FakeDispatchBehavior) : FakeExecutor :=
  { F with defaultBehavior := behavior }

def enqueueBehaviors (behaviors : List FakeDispatchBehavior) : FakeExecutor :=
  { F with scriptedBehaviors := F.scriptedBehaviors ++ behaviors }

def setStatusLookupUnavailable (message : String) : FakeExecutor :=
  { F with statusLookupUnavailableMessage := some message }

def clearStatusLookupUnavailable : FakeExecutor :=
  { F with statusLookupUnavailableMessage := none }

/-- The stored object is mutated: it keeps its place in the map. -/
def withState (execution : FakeExternalExecution) (state : FakeExecutionState) : FakeExecutor :=
  { F with externalExecutions := F.externalExecutions.put { execution with state } }

def setExecutionState (identity : ExecutionIdentity) (state : FakeExecutionState) :
    Bool × FakeExecutor :=
  match F.externalExecutions.get? (executionKey identity) with
  | none => (false, F)
  | some execution => (true, F.withState execution state)

def setExecutionStateByDagRunId (airflowDagRunId : String) (state : FakeExecutionState) :
    Option FakeExternalExecution × FakeExecutor :=
  match F.externalExecutions.select fun execution =>
      execution.airflowDagRunId = airflowDagRunId with
  | [execution] => (some { execution with state }, F.withState execution state)
  | _ => (none, F)

def simulationInfo (identity : ExecutionIdentity) : FakeSimulationInfo :=
  if (F.externalExecutions.get? (executionKey identity)).isSome
      ∨ executionKey identity ∈ F.rejectedIdentities then
    .bound (F.simulationDecisions (executionKey identity))
  else .unbound

/-! ## `decideDispatch` -/

/-- `observed(result, applied)`. -/
def observed (key : String) (result : DispatchResult) (applied : Bool) :
    FakeSimulatedDispatch where
  result := result
  decision := F.simulationDecisions key
  applied := applied
  finish := none

/-- `bind()`. Its dispatch is the last one of the history. -/
def bind (key : String) (simulation : Option FakeRunSimulation) : FakeExecutor :=
  match simulation with
  | none => F
  | some simulation =>
      { F with
        simulationDecisions := Function.update F.simulationDecisions key
          (some ⟨simulation, F.dispatchHistory.length⟩) }

/-- `unbound(message)`. Only an explicit simulation is counted. -/
def unbound (key : String) (simulation : Option FakeRunSimulation) (message : String) :
    FakeSimulatedDispatch × FakeExecutor :=
  let outcome := F.observed key (.unknown message) false
  match simulation with
  | none => (outcome, F)
  | some _ =>
      ({ outcome with finish := some F.unboundOutcomes.length },
        { F with
          pendingUnboundOutcomes := Function.update F.pendingUnboundOutcomes key
            (some ((F.pendingUnboundOutcomes key).getD 0 + 1))
          unboundOutcomes := F.unboundOutcomes ++ [⟨key, false⟩] })

/-! ### Behaviors -/

/-- `simulation?.dispatch ?? scriptedBehaviors.shift() ?? defaultBehavior`. -/
def takeBehavior (simulation : Option FakeRunSimulation) : FakeDispatchBehavior × FakeExecutor :=
  match simulation with
  | some simulation => (simulation.dispatch, F)
  | none =>
      match F.scriptedBehaviors with
      | [] => (F.defaultBehavior, F)
      | behavior :: rest => (behavior, { F with scriptedBehaviors := rest })

/-- The run that a creation stores. -/
def execution (command : DispatchCalculationCommand) (simulation : Option FakeRunSimulation) :
    FakeExternalExecution where
  airflowDagId := command.airflowDagId
  airflowDagRunId := command.airflowDagRunId
  command := command
  state := (simulation.bind (·.completion?)).getD .running

/-- `this.externalExecutions.set(key, …); bind()`. -/
def create (command : DispatchCalculationCommand) (simulation : Option FakeRunSimulation) :
    FakeExecutor :=
  { F with
    externalExecutions := F.externalExecutions.insert (execution command simulation) }.bind
      (executionKey command.identity) simulation

/-- `this.rejectedIdentities.add(key); bind()`. -/
def tombstone (key : String) (simulation : Option FakeRunSimulation) : FakeExecutor :=
  { F with rejectedIdentities := F.rejectedIdentities ++ [key] }.bind key simulation

/-! ### The decision -/

/-- The end of `decideDispatch`, for an identity that is not decided yet. -/
def applyBehavior (command : DispatchCalculationCommand) (simulation : Option FakeRunSimulation)
    (behavior : FakeDispatchBehavior) : FakeSimulatedDispatch × FakeExecutor :=
  let key := executionKey command.identity
  if behavior = .reject then
    if (F.pendingUnboundOutcomes key).isSome then
      F.unbound key simulation
        "Fake rejection deferred while an earlier ambiguous dispatch is recording"
    else
      let F := F.tombstone key simulation
      (F.observed key (.rejected "Fake executor rejected dispatch") simulation.isSome, F)
  else if behavior = .unknownWithoutCreation then
    F.unbound key simulation "Fake executor returned an ambiguous result without creating a run"
  else
    let F := F.create command simulation
    if behavior = .acceptThenUnknown then
      (F.observed key (.unknown "Fake executor created the run but the response was lost")
        simulation.isSome, F)
    else (F.observed key .accepted simulation.isSome, F)

/-- `this.dispatchHistory.push(command)`. -/
def noted (command : DispatchCalculationCommand) : FakeExecutor :=
  { F with dispatchHistory := F.dispatchHistory ++ [command] }

def decideDispatch (command : DispatchCalculationCommand)
    (simulation : Option FakeRunSimulation) : FakeSimulatedDispatch × FakeExecutor :=
  let F := F.noted command
  let key := executionKey command.identity
  if (F.externalExecutions.get? key).isSome then (F.observed key .alreadyExists false, F)
  else if key ∈ F.rejectedIdentities then
    (F.observed key (.rejected "Fake executor rejected dispatch") false, F)
  else
    let (behavior, F) := F.takeBehavior simulation
    F.applyBehavior command simulation behavior

def dispatch (command : DispatchCalculationCommand) : DispatchResult × FakeExecutor :=
  ((F.decideDispatch command none).1.result, (F.decideDispatch command none).2)

def dispatchWithSimulation (command : DispatchCalculationCommand)
    (simulation : FakeRunSimulation) : FakeSimulatedDispatch × FakeExecutor :=
  F.decideDispatch command (some simulation)

/-- Calling the closure number `n`. A count that is missing is `NaN`, and deleted. -/
def finish (n : Nat) : FakeExecutor :=
  match F.unboundOutcomes[n]? with
  | none => F
  | some outcome =>
      if outcome.finished then F
      else
        let remaining := (F.pendingUnboundOutcomes outcome.key).map (· - 1)
        { F with
          unboundOutcomes := F.unboundOutcomes.set n { outcome with finished := true }
          pendingUnboundOutcomes := Function.update F.pendingUnboundOutcomes outcome.key
            (remaining.filter (· ≠ 0)) }

/-- The answer is computed from the executor after the lookup was noted. -/
def getExecutionStatus (identity : ExecutionIdentity) : ExecutorExecutionStatus × FakeExecutor :=
  let F := { F with statusLookupHistory := F.statusLookupHistory ++ [identity] }
  match F.statusLookupUnavailableMessage with
  | some message => (.unavailable message, F)
  | none =>
      match F.externalExecutions.get? (executionKey identity) with
      | none => (.notFound, F)
      | some execution =>
          match execution.state with
          | .failed => (.failed none, F)
          | .succeeded => (.succeeded, F)
          | .running => (.running, F)

end FakeExecutor

/-! ## Calls -/

/-- One call of the executor by its owner. -/
inductive FakeCall where
  | dispatch (command : DispatchCalculationCommand)
  | dispatchWithSimulation (command : DispatchCalculationCommand) (simulation : FakeRunSimulation)
  | finish (n : Nat)
  | setExecutionState (identity : ExecutionIdentity) (state : FakeExecutionState)
  | setExecutionStateByDagRunId (airflowDagRunId : String) (state : FakeExecutionState)
  | enqueueBehaviors (behaviors : List FakeDispatchBehavior)
  | setDefaultBehavior (behavior : FakeDispatchBehavior)
  | setStatusLookupUnavailable (message : String)
  | clearStatusLookupUnavailable
  | getExecutionStatus (identity : ExecutionIdentity)

/-- The executor after a call. -/
def FakeExecutor.call (F : FakeExecutor) : FakeCall → FakeExecutor
  | .dispatch command => (F.dispatch command).2
  | .dispatchWithSimulation command simulation => (F.dispatchWithSimulation command simulation).2
  | .finish n => F.finish n
  | .setExecutionState identity state => (F.setExecutionState identity state).2
  | .setExecutionStateByDagRunId airflowDagRunId state =>
      (F.setExecutionStateByDagRunId airflowDagRunId state).2
  | .enqueueBehaviors behaviors => F.enqueueBehaviors behaviors
  | .setDefaultBehavior behavior => F.setDefaultBehavior behavior
  | .setStatusLookupUnavailable message => F.setStatusLookupUnavailable message
  | .clearStatusLookupUnavailable => F.clearStatusLookupUnavailable
  | .getExecutionStatus identity => (F.getExecutionStatus identity).2

/-- What a call dispatches, if it does. -/
def FakeCall.dispatched : FakeCall → Option (DispatchCalculationCommand × Option FakeRunSimulation)
  | .dispatch command => some (command, none)
  | .dispatchWithSimulation command simulation => some (command, some simulation)
  | _ => none

end CostEngine
