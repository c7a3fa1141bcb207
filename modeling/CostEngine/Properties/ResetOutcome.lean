import CostEngine.Demo.Readers
import CostEngine.Properties.SessionGate

/-! # The outcome of a reset is never guessed wrong -/

namespace CostEngine

open Relational (Table)

namespace DemoRuntime

variable {S S₀ S' : DemoRuntime} {i r : Nat} {cl : Clean} {id : String}

/-! ## Outcomes -/

/-- The session is revoked for good: nothing of its company is left, and its executor is
released. -/
def erased (S : DemoRuntime) (id : String) : Prop :=
  (∃ row, S.sessions.get? id = some row ∧ row.revoked = true
      ∧ S.store.ownedBy row.companyCode = ⟨[], [], [], [], [], []⟩)
    ∧ S.registry.executor? id = none

/-- Reservation `i` was given back with the rows, the revocation and the executor of the session
as they were when the call was made, and the session was no longer reserved then. -/
def restored (S : DemoRuntime) (i : Nat) (cl : Clean) : Prop :=
  ∃ f ∈ S.finished, f.reservation = i ∧ f.committed = false ∧ f.after = cl.before
    ∧ f.admissible = true

/-- Nothing is admitted for the session, and it is not reserved again. -/
def blocked (S : DemoRuntime) (id : String) : Prop :=
  (S.coordinator.reserveCleanup id).toOption = none
    ∧ ∀ trusted session, session.sessionId = id →
      (S.coordinator.tryBeginReset trusted session).toOption = none
        ∧ (S.coordinator.run trusted session).toOption = none
        ∧ (S.coordinator.runParallel trusted session).toOption = none

/-- What a resolution has found out about reservation `i`. -/
def resolvedTo (S : DemoRuntime) (i : Nat) (cl : Clean) : ResetOutcome → Prop
  | .committed => S.erased cl.sessionId
  | .rolledBack => S.restored i cl
  | .unknown => True

structure OutcomesSound (S : DemoRuntime) : Prop where
  returned : ∀ (i : Nat) (cl : Clean), S.reset.cleans[i]? = some cl → cl.phase = .done (.ok ()) →
    S.erased cl.sessionId
  threw : ∀ (i : Nat) (cl : Clean) e, S.reset.cleans[i]? = some cl → cl.phase = .done (.error e) →
    e = .resetOutcomeUnknown
      ∨ ((e = .resetFailed ∨ e = .sessionUnavailable) ∧ S.restored i cl)
  resolved : ∀ (r : Nat) (reader : OutcomeReader) (e : PendingReset) (cl : Clean) outcome,
    S.reset.readers[r]? = some reader → S.reset.entries[reader.entry]? = some e →
    S.reset.cleans[e.reservation]? = some cl →
    reader.phase = .ending outcome ∨ reader.phase = .done outcome →
    S.resolvedTo e.reservation cl outcome
  /-- Until its reservation is given back with a verdict, the session stays blocked. -/
  undecided : ∀ (i : Nat) (cl : Clean), S.reset.cleans[i]? = some cl → ¬ S.isFinished i →
    S.blocked cl.sessionId
  /-- The resolution that a call waits for has just come out as unknown. -/
  unknown : ∀ (i : Nat) (cl : Clean) r (reader : OutcomeReader), S.reset.cleans[i]? = some cl →
    cl.phase = .resolving r → S.reset.readers[r]? = some reader →
    reader.phase = .ending .unknown → ¬ S.isFinished i
  /-- A verdict is pronounced once, and it is one of the two. -/
  once : (S.finished.map (·.reservation)).Nodup
  verdict : ∀ f ∈ S.finished, ∃ cl, S.reset.cleans[f.reservation]? = some cl
    ∧ (if f.committed then S.erased cl.sessionId else S.restored f.reservation cl)
  released : ∀ event S', S.step event = some S' → ∀ id x, S.registry.executor? id = some x →
    S'.registry.executor? id ≠ some x → S'.erased id

/-! ## What the invariant gives -/

theorem blocked_of_reserved (h : S.coordinator.resets.get? id ≠ none) : S.blocked id := by
  have hcleanup : ∀ r, S.coordinator.reserveCleanup id ≠ .ok r :=
    fun ⟨_, _⟩ hr => h (Coordinator.reserveCleanup_ok hr).1
  refine ⟨Coordinator.toOption_eq_none hcleanup, fun trusted session hsession => ⟨?_, ?_, ?_⟩⟩
  · refine Coordinator.toOption_eq_none fun ⟨n, c⟩ hreset => ?_
    exact hcleanup _ (hsession ▸ Coordinator.tryBeginReset_ok hreset)
  · refine Coordinator.toOption_eq_none fun ⟨n, c⟩ hrun => ?_
    obtain ⟨q, c₁, hadmit, -⟩ := Coordinator.run_ok hrun
    exact Coordinator.admit_reserved (hsession ▸ h) _ hadmit
  · refine Coordinator.toOption_eq_none fun ⟨n, c⟩ hrun => ?_
    obtain ⟨q, c₁, hadmit, -⟩ := Coordinator.runParallel_ok hrun
    exact Coordinator.admit_reserved (hsession ▸ h) _ hadmit

theorem erased_of_durable (hdurable : S.durable id) (hnone : S.registry.executor? id = none) :
    S.erased id := by
  obtain ⟨row, hrow, hrevoked, hseries⟩ := hdurable
  exact ⟨⟨row, hrow, hrevoked, Store.ownedBy_of_seriesIds hseries⟩, hnone⟩

namespace Invariant

theorem erased (h : S.Invariant) (hcl : S.reset.cleans[i]? = some cl)
    (hi : S.finishedAs i true) : S.erased cl.sessionId := by
  obtain ⟨f, hf, rfl, hc⟩ := hi
  obtain ⟨cl', hcl', -, hdone, -⟩ := h.finishes f hf
  obtain rfl := Option.some.inj (hcl.symm.trans hcl')
  exact erased_of_durable (hdone hc).1 (hdone hc).2

theorem restored (h : S.Invariant) (hcl : S.reset.cleans[i]? = some cl)
    (hi : S.finishedAs i false) : S.restored i cl := by
  obtain ⟨f, hf, rfl, hc⟩ := hi
  obtain ⟨cl', hcl', hadmissible, -, hback⟩ := h.finishes f hf
  obtain rfl := Option.some.inj (hcl.symm.trans hcl')
  exact ⟨f, hf, rfl, hc, hback hc, hadmissible⟩

theorem outcomesSound (h : S.Invariant) (hattended : S.Attended) : S.OutcomesSound where
  returned i cl hcl hphase := h.erased hcl (h.outcome i cl _ hcl hphase)
  threw i cl e hcl hphase :=
    (h.outcome i cl _ hcl hphase).imp_right fun ⟨he, hi⟩ => ⟨he, h.restored hcl hi⟩
  resolved r reader e cl outcome hr he hcl hphase := by
    have hresolved := h.verdicts r reader e outcome hr he hphase
    cases outcome with
    | committed => exact h.erased hcl hresolved
    | rolledBack => exact h.restored hcl hresolved
    | unknown => trivial
  undecided i cl hcl hi := blocked_of_reserved (Table.row_ne_none ((h.current i cl hcl).mp hi))
  unknown i cl r reader hcl hphase hr hunknown :=
    hattended.clean i cl r reader hcl hphase hr (by rw [hunknown]; rfl)
  once := h.once
  verdict f hf := by
    obtain ⟨cl, hcl, -⟩ := h.finishes f hf
    refine ⟨cl, hcl, ?_⟩
    cases hc : f.committed with
    | true => exact h.erased hcl ⟨f, hf, rfl, hc⟩
    | false => exact h.restored hcl ⟨f, hf, rfl, hc⟩
  released event S' hstep id x hx hx' := by
    obtain ⟨hdurable, hnone, -⟩ := h.released hstep hx hx'
    exact erased_of_durable hdurable hnone

end Invariant

/-! ## The property -/

/-- Whatever fails during resets and cleanups, and whichever way a lost `COMMIT` has gone: a
verdict is right, and without one the session stays blocked and keeps its executor. -/
theorem reset_outcomes_sound {events : List DemoEvent} (h₀ : S₀.Starts)
    (hruns : runs events S₀ = some S) : S.OutcomesSound :=
  (h₀.runs hruns).outcomesSound (h₀.attended.runs h₀.invariant hruns)

/-- A reset that commits, and whose acknowledgement is lost; the recovery connection finds it
out. -/
def lostCommit : List DemoEvent :=
  [.authenticate "a", .reset ⟨"a", "A"⟩, .advance 0, .advance 0, .lock 0, .advance 0]
    ++ List.replicate 14 (.advance 0)
    ++ [.advance 0, .advance 0, .commit 0, .fail 0 "", .read 0, .read 0, .read 0, .unlock 0, .read 0,
      .read 0, .advance 0]

theorem reset_outcomes_sound_lostCommit : ∃ S, runs lostCommit sampleStart = some S
    ∧ (S.reset.cleans.map (·.phase)) = [.done (.ok ())] ∧ S.OutcomesSound := by
  have hany : (runs lostCommit sampleStart).any (fun S =>
      (S.reset.cleans.map (·.phase)) = [.done (.ok ())]) = true := by decide +kernel
  obtain ⟨S, hS, hp⟩ := (Option.any_eq_true _ _).mp hany
  rw [decide_eq_true_eq] at hp
  exact ⟨S, hS, hp, reset_outcomes_sound sampleStart_starts hS⟩

end DemoRuntime

end CostEngine
