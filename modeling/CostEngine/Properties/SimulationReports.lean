import CostEngine.Demo.ScopedRequests
import CostEngine.Executor.Decisions
import CostEngine.Properties.FakeExecutor

/-! # Simulation reports tell the truth

A report is computed afterwards, from the identity of the recorded decision. `Truthful` says
which adapter has which decision, also while an observation is still pending. -/

namespace CostEngine

open Relation (ReflTransGen)

namespace ScopedRequests

variable {S S' : ScopedRequests} {i : ExecutionIdentity} {r : Nat}

/-- The decision is one that the adapter of the request has, or will have noted. -/
def Holds (S : ScopedRequests) (r : Nat) (decision : FakeSimulationDecision) : Prop :=
  (∃ A, S.requests[r]? = some A ∧ decision ∈ A.decisions)
    ∨ ∃ p ∈ S.pending, p.request = r ∧ p.observation.applied = true
      ∧ p.observation.decision = some decision

/-! ## The invariant -/

structure Truthful (S : ScopedRequests) : Prop where
  seen : ∀ key, S.fake.fate key ≠ .unseen ↔ ∃ d ∈ S.decided, executionKey d.1 = key
  once : (S.decided.map fun d => executionKey d.1).Nodup
  unseen : ∀ key, S.fake.fate key = .unseen → S.fake.simulationDecisions key = none
  legacy : ∀ i, (i, .legacy) ∈ S.decided →
    S.fake.simulationDecisions (executionKey i) = none
  request : ∀ i r, (i, .request r) ∈ S.decided → ∃ decision,
    S.fake.simulationDecisions (executionKey i) = some decision
      ∧ S.Requested r decision.simulation ∧ S.Holds r decision
  holds : ∀ r decision, S.Holds r decision → ∃ i, (i, .request r) ∈ S.decided
    ∧ S.fake.simulationDecisions (executionKey i) = some decision
  objects : ∀ key decision, S.fake.simulationDecisions key = some decision →
    decision.object ≤ S.fake.dispatchHistory.length
  distinct : ∀ key key' decision, S.fake.simulationDecisions key = some decision →
    S.fake.simulationDecisions key' = some decision → key = key'

theorem new_truthful (options : FakeExecutorOptions) : (new options).Truthful where
  seen key := by
    refine ⟨fun h => absurd rfl h, ?_⟩
    rintro ⟨d, hd, -⟩
    cases hd
  once := List.nodup_nil
  unseen key _ := rfl
  legacy i hi := by cases hi
  request i r hi := by cases hi
  holds r decision h := by
    rcases h with ⟨A, hA, -⟩ | ⟨p, hp, -⟩
    · cases hA
    · cases hp
  objects key decision h := by cases h
  distinct key key' decision h := by cases h

/-! ## One step -/

/-- The step decides nothing, and no adapter has more than before. -/
structure Undeciding (S S' : ScopedRequests) : Prop where
  fate : ∀ key, S'.fake.fate key = S.fake.fate key
  decisions : S'.fake.simulationDecisions = S.fake.simulationDecisions
  history : S.fake.dispatchHistory.length ≤ S'.fake.dispatchHistory.length
  decided : S'.decided = S.decided
  requested : ∀ r requested, S.Requested r requested → S'.Requested r requested
  holds : ∀ r decision, S'.Holds r decision ↔ S.Holds r decision

/-! ### Steps that decide nothing -/

theorem Truthful.of_undeciding (h : S.Truthful) (hs : S.Undeciding S') : S'.Truthful where
  seen key := by
    rw [hs.fate, hs.decided]
    exact h.seen key
  once := hs.decided ▸ h.once
  unseen key hkey := by
    rw [hs.decisions]
    exact h.unseen key (hs.fate key ▸ hkey)
  legacy i hi := by
    rw [hs.decisions]
    exact h.legacy i (hs.decided ▸ hi)
  request i r hi := by
    obtain ⟨decision, hdecision, hrequested, hholds⟩ := h.request i r (hs.decided ▸ hi)
    exact ⟨decision, hs.decisions ▸ hdecision, hs.requested _ _ hrequested,
      (hs.holds _ _).mpr hholds⟩
  holds r decision hd := by
    rw [hs.decided, hs.decisions]
    exact h.holds r decision ((hs.holds _ _).mp hd)
  objects key decision hkey := by
    rw [hs.decisions] at hkey
    exact Nat.le_trans (h.objects key decision hkey) hs.history
  distinct key key' decision hkey hkey' := by
    rw [hs.decisions] at hkey hkey'
    exact h.distinct key key' decision hkey hkey'

/-! ### Steps that decide -/

/-- The step decides the identity, which was undecided: by a legacy dispatch, or by one of the
request `r`, whose adapter will have the new decision. -/
structure Deciding (S S' : ScopedRequests) (i : ExecutionIdentity) (who : Dispatcher) :
    Prop where
  unseen : S.fake.fate (executionKey i) = .unseen
  seen : S'.fake.fate (executionKey i) ≠ .unseen
  fate : ∀ key, key ≠ executionKey i → S'.fake.fate key = S.fake.fate key
  history : S'.fake.dispatchHistory.length = S.fake.dispatchHistory.length + 1
  decided : S'.decided = S.decided ++ [(i, who)]
  requests : S'.requests = S.requests
  decision : who = .legacy ∧ S'.fake.simulationDecisions = S.fake.simulationDecisions
        ∧ (∀ r decision, S'.Holds r decision ↔ S.Holds r decision)
    ∨ ∃ r decision, who = .request r ∧ S.Requested r decision.simulation
      ∧ decision.object = S.fake.dispatchHistory.length + 1
      ∧ S'.fake.simulationDecisions
        = Function.update S.fake.simulationDecisions (executionKey i) (some decision)
      ∧ ∀ r' decision', S'.Holds r' decision' ↔
        S.Holds r' decision' ∨ r' = r ∧ decision' = decision

section Deciding

variable {who : Dispatcher} (hs : S.Deciding S' i who) (h : S.Truthful)
include hs h

/-! ### What a decision keeps -/

/-- What is recorded about an identity that was decided before. -/
theorem Deciding.decisions_of_mem {d : ExecutionIdentity × Dispatcher} (hd : d ∈ S.decided) :
    S'.fake.simulationDecisions (executionKey d.1)
      = S.fake.simulationDecisions (executionKey d.1) := by
  -- An identity that was decided is not undecided.
  have hne : executionKey d.1 ≠ executionKey i := by
    intro hkey
    exact (h.seen _).mpr ⟨d, hd, hkey⟩ hs.unseen
  rcases hs.decision with ⟨-, hdecisions, -⟩ | ⟨r, decision, -, -, -, hdecisions, -⟩
  · rw [hdecisions]
  · rw [hdecisions, Function.update_of_ne hne]

omit h in
theorem Deciding.requested (requested : FakeRunSimulation) :
    S'.Requested r requested ↔ S.Requested r requested := by
  unfold Requested
  rw [hs.requests]

theorem Deciding.truthful : S'.Truthful where
  seen key := by
    rw [hs.decided]
    -- The identity that is decided here, or another.
    by_cases hkey : key = executionKey i
    · subst hkey
      exact ⟨fun _ => ⟨_, List.mem_append_right _ (List.mem_singleton_self _), rfl⟩,
        fun _ => hs.seen⟩
    · rw [hs.fate key hkey, h.seen]
      constructor
      · rintro ⟨d, hd, rfl⟩
        exact ⟨d, List.mem_append_left _ hd, rfl⟩
      · rintro ⟨d, hd, rfl⟩
        rcases List.mem_append.mp hd with hd | hd
        · exact ⟨d, hd, rfl⟩
        · exact absurd (congrArg (executionKey ·.1) (List.mem_singleton.mp hd)) hkey
  once := by
    rw [hs.decided, List.map_append, List.map_singleton]
    refine List.nodup_append.mpr ⟨h.once, List.nodup_singleton _, ?_⟩
    intro key hkey key' hkey' he
    obtain ⟨d, hd, rfl⟩ := List.mem_map.mp hkey
    rw [List.mem_singleton.mp hkey'] at he
    -- Nobody had decided the identity.
    exact (h.seen _).mpr ⟨d, hd, he⟩ hs.unseen
  unseen key hkey := by
    have hne : key ≠ executionKey i := fun he => hs.seen (he ▸ hkey)
    have hbefore := h.unseen key (hs.fate key hne ▸ hkey)
    rcases hs.decision with ⟨-, hdecisions, -⟩ | ⟨r, decision, -, -, -, hdecisions, -⟩
    · rw [hdecisions, hbefore]
    · rw [hdecisions, Function.update_of_ne hne, hbefore]
  legacy j hj := by
    rw [hs.decided] at hj
    rcases List.mem_append.mp hj with hj | hj
    · exact (hs.decisions_of_mem h hj).trans (h.legacy j hj)
    · -- The decision is new, and of this dispatcher.
      cases List.mem_singleton.mp hj
      rcases hs.decision with ⟨-, hdecisions, -⟩ | ⟨r, decision, hwho, -⟩
      · rw [hdecisions, h.unseen _ hs.unseen]
      · cases hwho
  request j r hj := by
    rw [hs.decided] at hj
    rcases List.mem_append.mp hj with hj | hj
    · obtain ⟨decision, hdecision, hrequested, hholds⟩ := h.request j r hj
      refine ⟨decision, (hs.decisions_of_mem h hj).trans hdecision,
        (hs.requested _).mpr hrequested, ?_⟩
      rcases hs.decision with ⟨-, -, hheld⟩ | ⟨r', decision', -, -, -, -, hheld⟩
      · exact (hheld _ _).mpr hholds
      · exact (hheld _ _).mpr (.inl hholds)
    · -- The request that decides holds its own decision.
      cases List.mem_singleton.mp hj
      rcases hs.decision with ⟨hwho, -⟩ | ⟨r', decision, hwho, hrequested, -, hdecisions, hheld⟩
      · cases hwho
      · cases hwho
        refine ⟨decision, ?_, (hs.requested _).mpr hrequested, (hheld _ _).mpr (.inr ⟨rfl, rfl⟩)⟩
        rw [hdecisions, Function.update_self]
  holds r decision hd := by
    have hbefore : S.Holds r decision → ∃ j, (j, .request r) ∈ S'.decided
        ∧ S'.fake.simulationDecisions (executionKey j) = some decision := by
      intro hd
      obtain ⟨j, hj, hdecision⟩ := h.holds r decision hd
      exact ⟨j, hs.decided ▸ List.mem_append_left _ hj,
        (hs.decisions_of_mem h hj).trans hdecision⟩
    rcases hs.decision with ⟨-, -, hheld⟩ | ⟨r', decision', hwho, -, -, hdecisions, hheld⟩
    · exact hbefore ((hheld _ _).mp hd)
    · -- What is held is what was held, or the new decision.
      rcases (hheld _ _).mp hd with hd | ⟨rfl, rfl⟩
      · exact hbefore hd
      · refine ⟨i, ?_, ?_⟩
        · rw [hs.decided, hwho]
          exact List.mem_append_right _ (List.mem_singleton_self _)
        · rw [hdecisions, Function.update_self]
  objects key decision hkey := by
    rw [hs.history]
    rcases hs.decision with ⟨-, hdecisions, -⟩ | ⟨r, decision', -, -, hobject, hdecisions, -⟩
    · rw [hdecisions] at hkey
      exact Nat.le_succ_of_le (h.objects key decision hkey)
    · rw [hdecisions] at hkey
      by_cases hk : key = executionKey i
      · rw [hk, Function.update_self] at hkey
        cases hkey
        -- Objects are numbered by the dispatches so far.
        exact Nat.le_of_eq hobject
      · rw [Function.update_of_ne hk] at hkey
        exact Nat.le_succ_of_le (h.objects key decision hkey)
  distinct key key' decision hkey hkey' := by
    rcases hs.decision with ⟨-, hdecisions, -⟩ | ⟨r, decision', -, -, hobject, hdecisions, -⟩
    · rw [hdecisions] at hkey hkey'
      exact h.distinct key key' decision hkey hkey'
    · -- The new object is none of those that were there.
      have hnew : ∀ key, S.fake.simulationDecisions key ≠ some decision' := by
        intro key hkey
        have := h.objects key decision' hkey
        omega
      rw [hdecisions] at hkey hkey'
      by_cases hk : key = executionKey i <;> by_cases hk' : key' = executionKey i
      · exact hk.trans hk'.symm
      · rw [hk, Function.update_self] at hkey
        rw [Function.update_of_ne hk'] at hkey'
        exact absurd (hkey' ▸ hkey.symm) (hnew key')
      · rw [hk', Function.update_self] at hkey'
        rw [Function.update_of_ne hk] at hkey
        exact absurd (hkey ▸ hkey'.symm) (hnew key)
      · rw [Function.update_of_ne hk] at hkey
        rw [Function.update_of_ne hk'] at hkey'
        exact h.distinct key key' decision hkey hkey'

end Deciding

/-! ## Every step -/

/-! ### The requests -/

/-- The requests after one adapter was replaced. -/
theorem getElem?_set_of_some {A A' : RequestScopedFakeExecutor} (hr : S.requests[r]? = some A)
    (r' : Nat) : (S.requests.set r A')[r']? = if r' = r then some A' else S.requests[r']? := by
  split
  · rename_i h
    rw [h, List.getElem?_set_self (List.getElem?_eq_some_iff.mp hr).1]
  · rename_i h
    exact List.getElem?_set_ne (Ne.symm h)

/-- The new adapter has the same settings. -/
theorem Requested.set {A : RequestScopedFakeExecutor} (A' : RequestScopedFakeExecutor)
    (hr : S.requests[r]? = some A)
    (hrequests : S'.requests = S.requests.set r A') (hA : A'.requested = A.requested)
    {r' : Nat} {requested : FakeRunSimulation} (h : S.Requested r' requested) :
    S'.Requested r' requested := by
  obtain ⟨A₀, hA₀, rfl⟩ := h
  unfold Requested
  rw [hrequests, getElem?_set_of_some hr]
  split
  · rename_i h
    rw [h, hr] at hA₀
    cases hA₀
    exact ⟨A', rfl, hA⟩
  · exact ⟨A₀, hA₀, rfl⟩

theorem undeciding_request (requested : FakeRunSimulation) :
    S.Undeciding { S with requests := S.requests ++ [.new requested] } where
  fate _ := rfl
  decisions := rfl
  history := Nat.le_refl _
  decided := rfl
  requested r requested h := by
    obtain ⟨A, hA, rfl⟩ := h
    exact ⟨A, List.getElem?_append_left (List.getElem?_eq_some_iff.mp hA).1 |>.trans hA, rfl⟩
  holds r decision := by
    refine or_congr_left ⟨?_, ?_⟩
    · -- The new adapter has decided nothing.
      rintro ⟨A, hA, hd⟩
      refine ⟨A, ?_, hd⟩
      rw [List.getElem?_append] at hA
      split at hA
      · exact hA
      · rw [List.getElem?_singleton] at hA
        split at hA
        · cases hA
          cases hd
        · cases hA
    · rintro ⟨A, hA, hd⟩
      exact ⟨A, List.getElem?_append_left (List.getElem?_eq_some_iff.mp hA).1 |>.trans hA, hd⟩

/-! ### Observations -/

theorem mem_observe {A : RequestScopedFakeExecutor} {i : ExecutionIdentity}
    {o : FakeSimulatedDispatch} {decision : FakeSimulationDecision} :
    decision ∈ (A.observe i o).decisions
      ↔ decision ∈ A.decisions ∨ o.applied = true ∧ o.decision = some decision := by
  unfold RequestScopedFakeExecutor.observe
  dsimp only
  split
  · rename_i d ha hd
    rw [ha, hd, List.mem_insert_iff, Option.some.injEq, eq_comm (a := d)]
    simp [or_comm]
  · rename_i hnot
    refine ⟨.inl, fun h => h.resolve_right ?_⟩
    rintro ⟨ha, hd⟩
    exact hnot decision ha hd

theorem undeciding_observe {before after : List PendingObservation} {p : PendingObservation}
    {A : RequestScopedFakeExecutor} (hp : S.pending = before ++ p :: after)
    (hA : S.requests[p.request]? = some A) :
    S.Undeciding { S with
      requests := S.requests.set p.request (A.observe p.identity p.observation)
      pending := before ++ after } where
  fate _ := rfl
  decisions := rfl
  history := Nat.le_refl _
  decided := rfl
  requested r requested h := h.set (A.observe p.identity p.observation) hA rfl rfl
  holds r decision := by
    unfold Holds
    dsimp only
    simp only [getElem?_set_of_some hA, hp, List.mem_append, List.mem_cons]
    -- Its own observation goes from the pending ones to the adapter.
    by_cases hr : r = p.request
    · subst hr
      simp only [if_pos, hA, Option.some.injEq, exists_eq_left', mem_observe]
      constructor
      · rintro ((hd | hd) | ⟨q, hq, h⟩)
        · exact .inl hd
        · exact .inr ⟨p, .inr (.inl rfl), rfl, hd⟩
        · exact .inr ⟨q, hq.imp_right .inr, h⟩
      · rintro (hd | ⟨q, hq | rfl | hq, h⟩)
        · exact .inl (.inl hd)
        · exact .inr ⟨q, .inl hq, h⟩
        · exact .inl (.inr h.2)
        · exact .inr ⟨q, .inr hq, h⟩
    · simp only [if_neg hr]
      refine or_congr_right ⟨?_, ?_⟩
      · rintro ⟨q, hq, h⟩
        exact ⟨q, hq.imp_right .inr, h⟩
      · rintro ⟨q, hq | rfl | hq, h⟩
        · exact ⟨q, .inl hq, h⟩
        · exact absurd h.1.symm hr
        · exact ⟨q, .inr hq, h⟩

theorem undeciding_finish {A : RequestScopedFakeExecutor} (hA : S.requests[r]? = some A) :
    S.Undeciding { S with
      fake := (A.finish S.fake).2
      requests := S.requests.set r (A.finish S.fake).1 } where
  fate := (FakeExecutor.finish_decided A.releases).2.1
  decisions := (FakeExecutor.finish_decided A.releases).2.2
  history := Nat.le_of_eq (congrArg List.length (FakeExecutor.finish_decided A.releases).1.symm)
  decided := rfl
  requested r' requested h := h.set (A.finish S.fake).1 hA rfl rfl
  holds r' decision := by
    refine or_congr_left ?_
    dsimp only
    simp only [getElem?_set_of_some hA]
    split
    · rename_i hr
      rw [hr, hA]
      simp only [Option.some.injEq, exists_eq_left']
      rfl
    · rfl

theorem undeciding_call {c : FakeCall} (hc : c.dispatched = none) :
    S.Undeciding { S with fake := S.fake.call c } := by
  obtain ⟨hhistory, hfate, hdecisions⟩ := FakeExecutor.call_decided (F := S.fake) hc
  exact ⟨hfate, hdecisions, Nat.le_of_eq (congrArg List.length hhistory.symm), rfl,
    fun _ _ h => h, fun _ _ => Iff.rfl⟩

/-- A dispatch that decides nothing is not added to the history. -/
theorem newlyDecided_eq_nil (i : ExecutionIdentity) (who : Dispatcher) {F F' : FakeExecutor}
    (h : ∀ key, F'.fate key = F.fate key) : F.newlyDecided F' i who = [] := by
  refine if_neg fun hd => ?_
  rw [h] at hd
  exact hd.2 hd.1

theorem newlyDecided_eq_singleton (i : ExecutionIdentity) (who : Dispatcher) {F F' : FakeExecutor}
    (h : F.fate (executionKey i) = .unseen) (h' : F'.fate (executionKey i) ≠ .unseen) :
    F.newlyDecided F' i who = [(i, who)] := if_pos ⟨h, h'⟩

theorem step_legacy (S : ScopedRequests) (command : DispatchCalculationCommand) :
    S.Undeciding (S.legacyDispatched command)
      ∨ S.Deciding (S.legacyDispatched command) command.identity .legacy := by
  obtain ⟨hlength, hd⟩ := (S.fake.decides command none).decided
  rcases hd with ⟨-, hfate, hdecisions⟩ | ⟨hunseen, hseen, hfate, -, -, hdecisions⟩
  · have hdecided := congrArg (S.decided ++ ·)
      (newlyDecided_eq_nil command.identity .legacy hfate)
    exact .inl ⟨hfate, hdecisions, hlength ▸ Nat.le_succ _, hdecided.trans (List.append_nil _),
      fun _ _ h => h, fun _ _ => Iff.rfl⟩
  · have hdecided := congrArg (S.decided ++ ·)
      (newlyDecided_eq_singleton command.identity .legacy hunseen hseen)
    exact .inr ⟨hunseen, hseen, hfate, hlength, hdecided, rfl, .inl ⟨rfl, hdecisions, fun _ _ => Iff.rfl⟩⟩

theorem holds_pending {p : PendingObservation} (r : Nat) (decision : FakeSimulationDecision)
    (hrequests : S'.requests = S.requests) (hp : S'.pending = S.pending ++ [p]) :
    S'.Holds r decision ↔ S.Holds r decision
      ∨ p.request = r ∧ p.observation.applied = true ∧ p.observation.decision = some decision := by
  unfold Holds
  rw [hrequests, hp]
  simp only [List.mem_append, List.mem_singleton, or_and_right, exists_or, exists_eq_left, or_assoc]

theorem step_dispatch {A : RequestScopedFakeExecutor} (hA : S.requests[r]? = some A)
    (command : DispatchCalculationCommand) :
    S.Undeciding (S.dispatched r A command)
      ∨ S.Deciding (S.dispatched r A command) command.identity (.request r) := by
  obtain ⟨hlength, hd⟩ := (S.fake.decides command (some A.requested)).decided
  have hpending : (S.dispatched r A command).pending = S.pending
      ++ [⟨r, command.identity, (S.fake.decideDispatch command (some A.requested)).1⟩] := rfl
  have hrequests : (S.dispatched r A command).requests = S.requests := rfl
  have hholds := fun r' decision => holds_pending r' decision hrequests hpending
  rcases hd with ⟨happlied, hfate, hdecisions⟩ |
    ⟨hunseen, hseen, hfate, happlied, hdecision, hdecisions⟩
  · have hdecided := congrArg (S.decided ++ ·)
      (newlyDecided_eq_nil command.identity (.request r) hfate)
    refine .inl ⟨hfate, hdecisions, hlength ▸ Nat.le_succ _, hdecided.trans (List.append_nil _),
      fun _ _ h => h, fun r' decision => (hholds r' decision).trans (or_iff_left ?_)⟩
    rintro ⟨-, happlied', -⟩
    exact absurd (happlied.symm.trans happlied') (by decide)
  · have hown : (S.fake.decideDispatch command (some A.requested)).2.simulationDecisions
        (executionKey command.identity)
          = some ⟨A.requested, S.fake.dispatchHistory.length + 1⟩ := by
      rw [hdecisions]
      exact Function.update_self _ _ _
    have hdecided := congrArg (S.decided ++ ·)
      (newlyDecided_eq_singleton command.identity (.request r) hunseen hseen)
    refine .inr ⟨hunseen, hseen, hfate, hlength, hdecided, rfl,
      .inr ⟨r, ⟨A.requested, S.fake.dispatchHistory.length + 1⟩, rfl, ⟨A, hA, rfl⟩, rfl,
        hdecisions, fun r' decision => (hholds r' decision).trans (or_congr_right ?_)⟩⟩
    show r = r' ∧ _ ∧ (S.fake.decideDispatch command (some A.requested)).1.decision = _ ↔ _
    rw [hdecision, hown, Option.some.injEq, eq_comm (a := r), eq_comm (b := decision)]
    exact and_congr_right fun _ => and_iff_right happlied

/-- A step decides one identity or none. -/
theorem Step.undeciding_or_deciding (h : S.Step S') :
    S.Undeciding S' ∨ ∃ i who, S.Deciding S' i who := by
  cases h with
  | request requested => exact .inl (undeciding_request requested)
  | dispatch r A command hA => exact (step_dispatch hA command).imp_right fun h => ⟨_, _, h⟩
  | observe before p after A hp hA => exact .inl (undeciding_observe hp hA)
  | finish r A hA => exact .inl (undeciding_finish hA)
  | legacy command => exact (step_legacy S command).imp_right fun h => ⟨_, _, h⟩
  | call c hc => exact .inl (undeciding_call hc)

theorem Step.truthful (h : S.Step S') (hS : S.Truthful) : S'.Truthful := by
  rcases h.undeciding_or_deciding with h | ⟨i, who, h⟩
  · exact hS.of_undeciding h
  · exact h.truthful hS

/-! ### What a step keeps -/

/-- The history only grows, and no request changes its settings. -/
theorem Step.kept (h : S.Step S') : (∀ d ∈ S.decided, d ∈ S'.decided)
    ∧ ∀ r requested, S.Requested r requested → S'.Requested r requested := by
  rcases h.undeciding_or_deciding with h | ⟨i, who, h⟩
  · exact ⟨fun d hd => h.decided ▸ hd, h.requested⟩
  · exact ⟨fun d hd => h.decided ▸ List.mem_append_left _ hd,
      fun r requested => (h.requested requested).mpr⟩

/-! ## Every run -/

theorem Run.truthful (h : S.Run S') (hS : S.Truthful) : S'.Truthful := by
  induction h with
  | refl => exact hS
  | tail _ hstep ih => exact hstep.truthful ih

theorem Run.kept (h : S.Run S') : (∀ d ∈ S.decided, d ∈ S'.decided)
    ∧ ∀ r requested, S.Requested r requested → S'.Requested r requested := by
  induction h with
  | refl => exact ⟨fun _ hd => hd, fun _ _ hr => hr⟩
  | tail _ hstep ih =>
      exact ⟨fun d hd => hstep.kept.1 d (ih.1 d hd), fun r _ hr => hstep.kept.2 r _ (ih.2 r _ hr)⟩

theorem Reached.truthful (h : S.Reached) : S.Truthful := by
  obtain ⟨options, hr⟩ := h
  exact hr.truthful (new_truthful options)

/-! ## Reports -/

theorem simulationInfo_eq (F : FakeExecutor) (i : ExecutionIdentity) : F.simulationInfo i
    = if F.fate (executionKey i) = .unseen then .unbound
      else .bound (F.simulationDecisions (executionKey i)) := by
  have hbound : ((F.externalExecutions.get? (executionKey i)).isSome
      ∨ executionKey i ∈ F.rejectedIdentities) ↔ ¬ F.fate (executionKey i) = .unseen := by
    rw [FakeExecutor.fate_eq_unseen, not_and_or, not_not, Option.isSome_iff_ne_none]
  unfold FakeExecutor.simulationInfo
  by_cases h : F.fate (executionKey i) = .unseen
  · rw [if_pos h, if_neg fun hb => hbound.mp hb h]
  · rw [if_neg h, if_pos (hbound.mpr h)]

variable {report : SimulationReport} {who : Dispatcher}

/-! ### Who decided -/

theorem Truthful.decidedBy_iff (h : S.Truthful) :
    (∃ who, S.DecidedBy i who) ↔ S.fake.fate (executionKey i) ≠ .unseen := by
  rw [h.seen]
  constructor
  · rintro ⟨who, d, hd, hkey, -⟩
    exact ⟨d, hd, hkey⟩
  · rintro ⟨d, hd, hkey⟩
    exact ⟨d.2, d, hd, hkey, rfl⟩

theorem Truthful.decidedBy_unique (h : S.Truthful) {who' : Dispatcher} (hw : S.DecidedBy i who)
    (hw' : S.DecidedBy i who') : who' = who := by
  obtain ⟨d, hd, hkey, rfl⟩ := hw
  obtain ⟨d', hd', hkey', rfl⟩ := hw'
  rw [List.inj_on_of_nodup_map h.once hd' hd (hkey'.trans hkey.symm)]

/-! ### The three kinds of report -/

/-- What is reported of an undecided identity. -/
theorem Reports.unseen (hr : S.Reports r i report)
    (hi : S.fake.fate (executionKey i) = .unseen) :
    ∃ requested, S.Requested r requested ∧ report = ⟨requested, none, .unbound⟩ := by
  obtain ⟨-, A, hA, rfl⟩ := hr
  refine ⟨A.requested, ⟨A, hA, rfl⟩, ?_⟩
  unfold RequestScopedFakeExecutor.report
  rw [simulationInfo_eq, if_pos hi]

/-- What is reported of an identity that a legacy dispatch decided. -/
theorem Reports.legacy (hr : S.Reports r i report) (h : S.Truthful)
    (hi : S.DecidedBy i .legacy) :
    ∃ requested, S.Requested r requested ∧ report = ⟨requested, none, .unknown⟩ := by
  have hseen := h.decidedBy_iff.mp ⟨_, hi⟩
  obtain ⟨⟨j, who⟩, hd, hkey, rfl⟩ := hi
  obtain ⟨-, A, hA, rfl⟩ := hr
  refine ⟨A.requested, ⟨A, hA, rfl⟩, ?_⟩
  unfold RequestScopedFakeExecutor.report
  rw [simulationInfo_eq, if_neg hseen, ← hkey, h.legacy j hd]

/-- What is reported of an identity that a dispatch of the request `r'` decided. -/
theorem Reports.request (hr : S.Reports r i report) (h : S.Truthful) {r' : Nat}
    (hi : S.DecidedBy i (.request r')) :
    ∃ requested settings, S.Requested r requested ∧ S.Requested r' settings
      ∧ report = ⟨requested, some settings, if r = r' then .applied else .existing⟩ := by
  have hseen := h.decidedBy_iff.mp ⟨_, hi⟩
  obtain ⟨⟨j, who⟩, hd, hkey, rfl⟩ := hi
  obtain ⟨hpending, A, hA, rfl⟩ := hr
  obtain ⟨decision, hdecision, hrequested, hholds⟩ := h.request j r' hd
  have hmem : decision ∈ A.decisions ↔ r = r' := by
    constructor
    · intro hmem
      -- The adapter has it, so the identity was decided by a dispatch of its own request.
      obtain ⟨j', hd', hdecision'⟩ := h.holds r decision (.inl ⟨A, hA, hmem⟩)
      have hkey' := h.distinct _ _ decision hdecision' hdecision
      cases List.inj_on_of_nodup_map h.once hd' hd hkey'
      rfl
    · rintro rfl
      -- The adapter holds the decision: its observation is not pending any more.
      rcases hholds with ⟨A', hA', hmem⟩ | ⟨p, hp, hpr, -⟩
      · rw [hA] at hA'
        cases hA'
        exact hmem
      · exact absurd hpr (hpending p hp)
  refine ⟨A.requested, decision.simulation, ⟨A, hA, rfl⟩, hrequested, ?_⟩
  unfold RequestScopedFakeExecutor.report
  rw [simulationInfo_eq, if_neg hseen, ← hkey, hdecision]
  simp only [hmem]

/-- The report after a rejection is one of the identity that was rejected. -/
theorem rejectionReport_eq {A : RequestScopedFakeExecutor} {F : FakeExecutor}
    (h : A.rejectionReport F = some report) :
    ∃ i, A.rejectedIdentity = some i ∧ A.report F i = report := by
  simpa [RequestScopedFakeExecutor.rejectionReport] using h

theorem Requested.unique {requested requested' : FakeRunSimulation}
    (h : S.Requested r requested) (h' : S.Requested r requested') : requested' = requested := by
  obtain ⟨A, hA, rfl⟩ := h
  obtain ⟨A', hA', rfl⟩ := h'
  rw [hA] at hA'
  cases hA'
  rfl

/-! ### All reports -/

/-- The history decides what a request reports. -/
theorem Reports.cases (hr : S.Reports r i report) (h : S.Truthful) :
    (S.fake.fate (executionKey i) = .unseen ∧ (∀ who, ¬ S.DecidedBy i who)
      ∧ ∃ requested, S.Requested r requested ∧ report = ⟨requested, none, .unbound⟩)
    ∨ S.fake.fate (executionKey i) ≠ .unseen
      ∧ ((S.DecidedBy i .legacy
          ∧ ∃ requested, S.Requested r requested ∧ report = ⟨requested, none, .unknown⟩)
        ∨ ∃ r', S.DecidedBy i (.request r')
          ∧ ∃ requested settings, S.Requested r requested ∧ S.Requested r' settings
            ∧ report = ⟨requested, some settings, if r = r' then .applied else .existing⟩) := by
  by_cases hi : S.fake.fate (executionKey i) = .unseen
  · exact .inl ⟨hi, fun who hw => h.decidedBy_iff.mp ⟨who, hw⟩ hi, hr.unseen hi⟩
  · obtain ⟨who, hw⟩ := h.decidedBy_iff.mpr hi
    cases who with
    | legacy => exact .inr ⟨hi, .inl ⟨hw, hr.legacy h hw⟩⟩
    | request r' => exact .inr ⟨hi, .inr ⟨r', hw, hr.request h hw⟩⟩

section Applications

variable (hr : S.Reports r i report) (h : S.Truthful)
include hr h

/-! ### What each answer means -/

theorem Reports.requested : S.Requested r report.requested := by
  rcases hr.cases h with ⟨-, -, requested, hreq, rfl⟩ |
    ⟨-, ⟨-, requested, hreq, rfl⟩ | ⟨-, -, requested, settings, hreq, -, rfl⟩⟩
  all_goals exact hreq

theorem Reports.unbound_iff :
    report.application = .unbound ↔ S.fake.fate (executionKey i) = .unseen := by
  rcases hr.cases h with ⟨hi, -, requested, hreq, rfl⟩ |
    ⟨hi, ⟨-, requested, hreq, rfl⟩ | ⟨r', -, requested, settings, hreq, -, rfl⟩⟩
  · exact ⟨fun _ => hi, fun _ => rfl⟩
  · exact ⟨fun hu => (by cases hu), fun hu => absurd hu hi⟩
  · refine ⟨fun hu => ?_, fun hu => absurd hu hi⟩
    dsimp only at hu
    split at hu <;> cases hu

theorem Reports.unknown_iff : report.application = .unknown ↔ S.DecidedBy i .legacy := by
  rcases hr.cases h with ⟨-, hnone, requested, hreq, rfl⟩ |
    ⟨-, ⟨hw, requested, hreq, rfl⟩ | ⟨r', hw, requested, settings, hreq, -, rfl⟩⟩
  · exact ⟨fun hu => (by cases hu), fun hl => absurd hl (hnone _)⟩
  · exact ⟨fun _ => hw, fun _ => rfl⟩
  · refine ⟨fun hu => ?_, fun hl => (by cases h.decidedBy_unique hw hl)⟩
    dsimp only at hu
    split at hu <;> cases hu

theorem Reports.applied_iff : report.application = .applied ↔ S.DecidedBy i (.request r) := by
  rcases hr.cases h with ⟨-, hnone, requested, hreq, rfl⟩ |
    ⟨-, ⟨hw, requested, hreq, rfl⟩ | ⟨r', hw, requested, settings, hreq, -, rfl⟩⟩
  · exact ⟨fun hu => (by cases hu), fun hl => absurd hl (hnone _)⟩
  · exact ⟨fun hu => (by cases hu), fun hl => (by cases h.decidedBy_unique hw hl)⟩
  · dsimp only
    split
    · rename_i he
      exact ⟨fun _ => he ▸ hw, fun _ => rfl⟩
    · rename_i hne
      refine ⟨fun hu => (by cases hu), fun hl => ?_⟩
      cases h.decidedBy_unique hw hl
      exact absurd rfl hne

theorem Reports.existing_iff :
    report.application = .existing ↔ ∃ r', r' ≠ r ∧ S.DecidedBy i (.request r') := by
  rcases hr.cases h with ⟨-, hnone, requested, hreq, rfl⟩ |
    ⟨-, ⟨hw, requested, hreq, rfl⟩ | ⟨r', hw, requested, settings, hreq, -, rfl⟩⟩
  · exact ⟨fun hu => (by cases hu), fun ⟨r', _, hl⟩ => absurd hl (hnone _)⟩
  · exact ⟨fun hu => (by cases hu), fun ⟨r', _, hl⟩ => (by cases h.decidedBy_unique hw hl)⟩
  · dsimp only
    split
    · rename_i he
      refine ⟨fun hu => (by cases hu), fun ⟨r'', hne, hl⟩ => ?_⟩
      cases h.decidedBy_unique hw hl
      exact absurd he.symm hne
    · rename_i hne
      exact ⟨fun _ => ⟨r', Ne.symm hne, hw⟩, fun _ => rfl⟩

/-- The settings are those of the request that decided. -/
theorem Reports.settings {r' : Nat} {settings : FakeRunSimulation}
    (hw : S.DecidedBy i (.request r')) (hset : S.Requested r' settings) :
    report.applied = some settings := by
  obtain ⟨requested, settings', hreq, hset', rfl⟩ := hr.request h hw
  exact congrArg some (hset.unique hset')

end Applications

/-! ### Reports that are bound -/

/-- A report that is bound stays the same. -/
theorem Reports.stable (hr : S.Reports r i report) (h : S.Truthful) (hrun : S.Run S')
    {report' : SimulationReport} (hr' : S'.Reports r i report')
    (hbound : report.application ≠ .unbound) : report' = report := by
  have h' := hrun.truthful h
  obtain ⟨hdecided, hrequested⟩ := hrun.kept
  have hkept : ∀ {who}, S.DecidedBy i who → S'.DecidedBy i who := by
    rintro who ⟨d, hd, hkey⟩
    exact ⟨d, hdecided d hd, hkey⟩
  rcases hr.cases h with ⟨-, -, requested, -, rfl⟩ |
    ⟨-, ⟨hw, requested, hreq, rfl⟩ | ⟨r', hw, requested, settings, hreq, hset, rfl⟩⟩
  · -- Nothing was bound.
    exact absurd rfl hbound
  · obtain ⟨requested', hreq', rfl⟩ := hr'.legacy h' (hkept hw)
    rw [(hrequested r requested hreq).unique hreq']
  · obtain ⟨requested', settings', hreq', hset', rfl⟩ := hr'.request h' (hkept hw)
    rw [(hrequested r requested hreq).unique hreq', (hrequested r' settings hset).unique hset']

/-- **Simulation reports tell the truth**, in every run of requests, legacy dispatches and
controls: a report says whose dispatch decided the identity, and says so for good. -/
theorem simulation_reports_truthful (h : S.Reached) (hr : S.Reports r i report) :
    S.Requested r report.requested
    ∧ ((report.application = .applied ↔ S.DecidedBy i (.request r))
      ∧ (report.application = .applied → report.applied = some report.requested))
    ∧ ((report.application = .existing ↔ ∃ r', r' ≠ r ∧ S.DecidedBy i (.request r'))
      ∧ ∀ r' settings, S.DecidedBy i (.request r') → S.Requested r' settings →
          report.applied = some settings)
    ∧ (report.application = .unknown ↔ S.DecidedBy i .legacy)
    ∧ (report.application = .unbound ↔
        S.fake.externalExecutions.get? (executionKey i) = none
          ∧ executionKey i ∉ S.fake.rejectedIdentities)
    ∧ ∀ S', S.Run S' → ∀ r' report', S'.Reports r' i report' →
        (report.application = .applied → report'.application = .applied → r' = r)
        ∧ (report.application ≠ .unbound → r' = r → report' = report) := by
  have hS := h.truthful
  refine ⟨hr.requested hS, ⟨hr.applied_iff hS, fun ha => ?_⟩,
    ⟨hr.existing_iff hS, fun r' settings => hr.settings hS⟩, hr.unknown_iff hS,
    (hr.unbound_iff hS).trans FakeExecutor.fate_eq_unseen, fun S' hrun r' report' hr' => ⟨?_, ?_⟩⟩
  · exact hr.settings hS ((hr.applied_iff hS).mp ha) (hr.requested hS)
  · intro ha ha'
    -- The same decision stands behind both reports.
    obtain ⟨d, hd, hkey, hwho⟩ := (hr.applied_iff hS).mp ha
    have hS' := hrun.truthful hS
    cases hS'.decidedBy_unique ⟨d, hrun.kept.1 d hd, hkey, hwho⟩ ((hr'.applied_iff hS').mp ha')
    rfl
  · rintro hbound rfl
    exact hr.stable hS hrun hr' hbound

/-- Two requests race on one identity: the second loses, and reports first. -/
theorem simulation_reports_truthful_raced : ∃ S : ScopedRequests, S.Reached
    ∧ S.Reports 1 FakeExecutor.sampleCommand.identity ⟨.reject, some (.accept .running), .existing⟩
    ∧ ∃ r, r ≠ 1 ∧ S.DecidedBy FakeExecutor.sampleCommand.identity (.request r) := by
  let S₀ : ScopedRequests :=
    { new {} with requests := [.new (.accept .running)] ++ [.new .reject] }
  let S₁ := S₀.dispatched 0 (.new (.accept .running)) FakeExecutor.sampleCommand
  let S₂ := S₁.dispatched 1 (.new .reject) FakeExecutor.sampleCommand
  let p : PendingObservation := ⟨1, FakeExecutor.sampleCommand.identity,
    (S₁.fake.decideDispatch FakeExecutor.sampleCommand (some .reject)).1⟩
  let S : ScopedRequests :=
    { S₂ with
      requests := S₂.requests.set 1 ((RequestScopedFakeExecutor.new .reject).observe
        p.identity p.observation)
      pending := S₁.pending ++ [] }
  have hrun : (new {}).Run S := by
    refine ReflTransGen.tail (ReflTransGen.tail (ReflTransGen.tail (ReflTransGen.tail
      (ReflTransGen.single (Step.request (.accept .running))) (Step.request .reject))
        (Step.dispatch 0 _ FakeExecutor.sampleCommand rfl))
      (Step.dispatch 1 _ FakeExecutor.sampleCommand rfl)) ?_
    exact Step.observe S₁.pending p [] (.new .reject) rfl rfl
  have hreached : S.Reached := ⟨_, hrun⟩
  have hreports : S.Reports 1 FakeExecutor.sampleCommand.identity
      ⟨.reject, some (.accept .running), .existing⟩ :=
    ⟨by decide +kernel, _, rfl, by decide +kernel⟩
  exact ⟨S, hreached, hreports,
    (simulation_reports_truthful hreached hreports).2.2.1.1.mp rfl⟩

end ScopedRequests

end CostEngine
