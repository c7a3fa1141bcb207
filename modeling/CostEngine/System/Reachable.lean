import CostEngine.Concurrency.Runs
import CostEngine.System.Handlers

/-! # Reachable states

Every state that a run passes satisfies the invariant, and the transaction that a thread is
about to end, the result it is about to return and the command it is about to send are what
`Transaction.Spec`, `Request.Post` and `Sent` say. -/

namespace CostEngine

open Concurrency (Machine Safe Thread Active)

variable {honours : Prop} {st st' : System}

theorem Initial.invariant (h : Initial st) : Invariant honours st.shared := by
  obtain ⟨types, definitions, dependencies, clock⟩ := h
  refine ⟨⟨⟨?_, ?_, ?_, ?_, ?_⟩, ⟨?_, ?_, ?_, ?_⟩, ?_, ?_⟩, ?_, ?_, ?_⟩
  all_goals simp [Store.empty, Concurrency.State.quiet]

theorem Reachable.safe (h : Reachable honours st) :
    Safe (discipline honours) (Transaction.Spec honours) Sent (fun req log r _ => req.Post log r)
      st := by
  obtain ⟨st₀, h₀, hrun⟩ := h
  have hsafe : Safe (discipline honours) (Transaction.Spec honours) Sent
      (fun req log r _ => req.Post log r) st₀ := by
    have hinv : Invariant honours st₀.shared := h₀.invariant
    cases h₀
    exact Concurrency.quiet_safe hinv
  exact Concurrency.run_safe (fun _ _ _ _ _ hp _ => hp) (fun req _ _ => good_serve req) hsafe hrun

theorem Reachable.invariant (h : Reachable honours st) : Invariant honours st.shared :=
  h.safe.inv

theorem Reachable.consistent (h : Reachable honours st) : st.shared.db.Consistent :=
  h.invariant.consistent

theorem Reachable.step (h : Reachable honours st) (hs : (machine honours).Step st st') :
    Reachable honours st' := by
  obtain ⟨st₀, h₀, hrun⟩ := h
  exact ⟨st₀, h₀, .step hrun hs⟩

theorem Reachable.run (h : Reachable honours st) (hr : (machine honours).Run st st') :
    Reachable honours st' := by
  obtain ⟨st₀, h₀, hrun⟩ := h
  exact ⟨st₀, h₀, hrun.trans hr⟩

/-- Later states of a run have grown. -/
theorem Reachable.grows (h : Reachable honours st) (hr : (machine honours).Run st st') :
    Moment.Grows st.shared st'.shared := by
  induction hr with
  | refl => exact .refl
  | step hr hs ih => exact ih.trans ((h.run hr).safe.grows hs)

/-! ## Ending transactions -/

variable {i : Nat} {req : Request} {log : List ServiceEvent} {t : Transaction}
variable {k : Except ServiceError t.Result → Service Response}
variable {a : Active Store RowLock Write ServiceError TxEnv World t.Result}

theorem Reachable.commits (h : Reachable honours st) (hi : st.threads i = .inTxn req log t k a)
    {r : t.Result} (hr : a.rest = .pure r) : ∃ last,
      t.Spec honours a.env ⟨a.seen, last, .ok r, a.locks, a.writes⟩ st.shared := by
  obtain ⟨last, -, hends⟩ := h.safe.commits hi hr
  exact ⟨last, hends.spec⟩

theorem Reachable.fails (h : Reachable honours st) (hi : st.threads i = .inTxn req log t k a)
    {e : ServiceError} (he : a.rest = .throw e) : ∃ last,
      t.Spec honours a.env ⟨a.seen, last, .error e, a.locks, a.writes⟩ st.shared := by
  obtain ⟨last, -, hends⟩ := h.safe.fails hi he
  exact ⟨last, hends.spec⟩

theorem Reachable.ends (h : Reachable honours st) {r : Except ServiceError t.Result}
    (he : st.Ending i t r a) : ∃ last,
      t.Spec honours a.env ⟨a.seen, last, r, a.locks, a.writes⟩ st.shared := by
  obtain ⟨⟨req, log, k, hi⟩, hr⟩ := he
  cases r with
  | ok x => exact h.commits hi hr
  | error e => exact h.fails hi hr

theorem Reachable.returns (h : Reachable honours st) {r : Except ServiceError Response}
    (hi : st.threads i = .running req log (.ret r)) : req.Post log r :=
  h.safe.returns hi

/-! ## What one step changes -/

/-- A thread commits the transaction `t` with the changes `ws`. -/
def Commits (i : Nat) (t : Transaction) (r : t.Result) (ws : List Write) (st st' : System) :
    Prop :=
  ∃ req log k, ∃ a : Active Store RowLock Write ServiceError TxEnv World t.Result,
    st.threads i = .inTxn req log t k a ∧ a.rest = .pure r ∧ a.writes = ws
      ∧ st'.shared = { st.shared with db := ws.foldl Store.apply st.shared.db }

/-- The orchestration tables change only when a transaction commits. -/
theorem step_db (hs : (machine honours).Step st st') :
    (∃ i t r ws, Commits i t r ws st st')
      ∨ (∃ locks, st.shared.db.ConfigStep locks st'.shared.db)
      ∨ st'.shared.db = st.shared.db := by
  cases hs with
  | commit i req log t k a r hi hp =>
      exact .inl ⟨i, t, r, a.writes, req, log, k, a, hi, hp, rfl, rfl⟩
  | config L s hc hfree => exact .inr (.inl ⟨L, hc⟩)
  | _ => exact .inr (.inr rfl)

/-- In one step every attempt and every version is updated at most once. -/
theorem Reachable.single (h : Reachable honours st) (hs : (machine honours).Step st st') :
    ∃ now, st.shared.db.Single now st'.shared.db := by
  rcases step_db hs with ⟨i, t, r, ws, req, log, k, a, hi, hr, rfl, hst⟩ | ⟨locks, hc⟩ | hst
  · obtain ⟨last, hspec⟩ := h.commits hi hr
    rw [hst]
    exact ⟨_, (hspec.ensures.commit r rfl).change.single⟩
  · exact ⟨0, .of_eq hc.executionAttempts hc.datasetVersions⟩
  · rw [hst]
    exact ⟨0, .refl⟩

end CostEngine
