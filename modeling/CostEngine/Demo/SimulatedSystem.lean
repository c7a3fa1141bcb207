import CostEngine.Demo.SimulatedRuns
import CostEngine.System.World

/-! # The Runs of a session and the core

The core runs the requests of all sessions. The attempts of one of them, those with an `owned`
identity, are dispatched to the fake of this session (`SimulatedRuns`). The two move on their
own, but a Run passes to `recordDispatchOutcome` the result that its adapter gave it, and
calls `finish` only when it has ended. So as long as a thread is in the transaction, the
result is in hand (`passes`).

The gate admits a legacy Run alone. Its result comes from the fake itself, and while it is
under way no explicit Run is. -/

namespace CostEngine

open Relation (ReflTransGen)

/-- A thread is in a `recordDispatchOutcome` of this command with this outcome. -/
def Recording (st : System) (c : DispatchCalculationCommand) (outcome : DispatchResult) : Prop :=
  ∃ i req log k a, st.threads i = .inTxn req log (.recordDispatchOutcome c outcome) k a

structure SimulatedSystem (owned : ExecutionIdentity → Prop) where
  core : System
  runs : SimulatedRuns
  /-- The result that the legacy Run under way has in hand. -/
  legacy : Option (ExecutionIdentity × DispatchResult)
  exclusive : legacy ≠ none → runs.Idle
  passes : ∀ c outcome, owned c.identity → Recording core c outcome →
    (∃ u ∈ runs.unrecorded, u.identity = c.identity ∧ u.result = outcome)
      ∨ legacy = some (c.identity, outcome)

namespace SimulatedSystem

variable {owned : ExecutionIdentity → Prop}

/-- The executor that the core asks is not assumed to honour anything. -/
inductive Step (D : SimulatedSystem owned) : SimulatedSystem owned → Prop
  | core (D' : SimulatedSystem owned) : (machine False).Step D.core D'.core →
      D'.runs = D.runs → D'.legacy = D.legacy → Step D D'
  | runs (D' : SimulatedSystem owned) : D.legacy = none → D.runs.Step D'.runs →
      D'.core = D.core → D'.legacy = none → Step D D'
  | control (c : FakeCall) (D' : SimulatedSystem owned) : c.dispatched = none →
      (∀ n, c ≠ .finish n) → c.NulFree →
      D'.runs = { D.runs with
        adapters := { D.runs.adapters with fake := D.runs.adapters.fake.call c } } →
      D'.core = D.core → D'.legacy = D.legacy → Step D D'
  | legacy (command : DispatchCalculationCommand) (D' : SimulatedSystem owned) :
      D.legacy = none → D.runs.Idle → command.identity.NulFree →
      D'.runs = { D.runs with adapters := D.runs.adapters.legacyDispatched command } →
      D'.core = D.core →
      D'.legacy = some (command.identity, (D.runs.adapters.fake.dispatch command).1) → Step D D'
  | legacyEnds (D' : SimulatedSystem owned) : D'.runs = D.runs → D'.core = D.core →
      D'.legacy = none → Step D D'

/-- A session begins with a new fake, and no attempt. -/
structure Begins (D : SimulatedSystem owned) : Prop where
  core : Reachable False D.core
  attempts : ∀ id a, D.core.shared.db.executionAttempts.get? id = some a → ¬ owned a.identity
  runs : ∃ options, D.runs = .new options
  legacy : D.legacy = none

def Reached (D : SimulatedSystem owned) : Prop := ∃ D₀, Begins D₀ ∧ ReflTransGen Step D₀ D

end SimulatedSystem

end CostEngine
