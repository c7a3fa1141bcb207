import CostEngine.Executor.Decisions

/-! # The closures of ambiguous answers

A dispatch returns a closure exactly when it leaves its identity undecided, and as long as one
for a key has not been called, the key is not rejected. -/

namespace CostEngine

namespace FakeExecutor

variable {F F' : FakeExecutor} {key : String} {command : DispatchCalculationCommand}
variable {simulation : Option FakeRunSimulation} {o : FakeSimulatedDispatch}

/-- The closure number `n` was returned and has not been called. -/
def awaits (F : FakeExecutor) (n : Nat) : Bool := (F.unboundOutcomes[n]?).any (!·.finished)

theorem awaits_of_eq (h : F'.unboundOutcomes = F.unboundOutcomes) : F'.awaits = F.awaits := by
  funext n
  rw [awaits, h, awaits]

theorem lt_of_awaits {n : Nat} (h : F.awaits n = true) : n < F.unboundOutcomes.length := by
  by_contra hn
  rw [awaits, List.getElem?_eq_none (Nat.le_of_not_lt hn)] at h
  cases h

theorem unfinished_eq_zero_iff : F.unfinished key = 0 ↔ ∀ (n : Nat) (outcome : UnboundOutcome),
    F.unboundOutcomes[n]? = some outcome → outcome.waits key = false := by
  simp only [unfinished, List.countP_eq_zero, List.mem_iff_getElem?, Bool.not_eq_true]
  constructor
  · intro h n outcome hn
    exact h outcome ⟨n, hn⟩
  · rintro h outcome ⟨n, hn⟩
    exact h n outcome hn

/-! ## Answers -/

/-- What a dispatch may answer of an identity that it leaves with this fate. -/
inductive Answer : Fate → DispatchResult → Prop
  | accepted : Answer .created .accepted
  | existing : Answer .created .alreadyExists
  | lost (message : String) : Answer .created (.unknown message)
  | rejected (message : String) : Answer .rejected (.rejected message)
  | undecided (message : String) : Answer .unseen (.unknown message)

/-- What a dispatch does to the closures: it returns a new one, and decides nothing, or none,
and leaves an identity undecided only without a simulation. -/
inductive Closes (F : FakeExecutor) (key : String) (simulation : Option FakeRunSimulation)
    (o : FakeSimulatedDispatch) (F' : FakeExecutor) : Prop
  | opens : simulation ≠ none → o.finish = some F.unboundOutcomes.length →
      F'.unboundOutcomes = F.unboundOutcomes ++ [⟨key, false⟩] →
      F.fate key = .unseen → (∀ key, F'.fate key = F.fate key) → Closes F key simulation o F'
  | closed : o.finish = none → F'.unboundOutcomes = F.unboundOutcomes →
      (∀ key', key' ≠ key → F'.fate key' = F.fate key') →
      (F'.fate key = .rejected → F.fate key = .rejected ∨ F.unfinished key = 0) →
      (F'.fate key = .unseen → simulation = none) → Closes F key simulation o F'

theorem unboundOutcomes_bind : (F.bind key simulation).unboundOutcomes = F.unboundOutcomes := by
  cases simulation <;> rfl

theorem Coherent.unfinished_eq_zero (h : F.Coherent)
    (hpending : F.pendingUnboundOutcomes key = none) : F.unfinished key = 0 := by
  by_contra hne
  rw [h.pending, if_neg hne] at hpending
  cases hpending

/-- The answer tells the fate, and the closure what is still open. -/
theorem Decides.answered (h : F.Decides command simulation o F') (hF : F.Coherent) :
    Answer (F'.fate (executionKey command.identity)) o.result
      ∧ F.Closes (executionKey command.identity) simulation o F' := by
  -- Taking a behavior changes the queue only.
  have htaken : ∀ {behavior F₁}, (F.noted command).takeBehavior simulation = (behavior, F₁) →
      F₁.unboundOutcomes = F.unboundOutcomes ∧ (∀ key, F₁.fate key = F.fate key)
        ∧ F₁.pendingUnboundOutcomes = F.pendingUnboundOutcomes := by
    intro behavior F₁ htake
    obtain ⟨rfl, -⟩ := takeBehavior_eq htake
    exact ⟨rfl, fun _ => rfl, rfl⟩
  cases h with
  | «exists» hf =>
      have hf' : (F.noted command).fate (executionKey command.identity) = .created := hf
      refine ⟨hf' ▸ .existing, .closed rfl rfl (fun _ _ => rfl) (fun hr => ?_) (fun hu => ?_)⟩
      · exact .inl hr
      · rw [hf'] at hu
        cases hu
  | rejected hf =>
      have hf' : (F.noted command).fate (executionKey command.identity) = .rejected := hf
      refine ⟨hf' ▸ .rejected _, .closed rfl rfl (fun _ _ => rfl) (fun hr => .inl hr) (fun hu => ?_)⟩
      rw [hf'] at hu
      cases hu
  | rejects F₁ hf htake hpending =>
      obtain ⟨houtcomes, hfate, hcounts⟩ := htaken htake
      have hnew := fun key' => fate_tombstone simulation key'
        ((hfate (executionKey command.identity)).trans hf)
      have hf' := (hnew (executionKey command.identity)).trans (if_pos rfl)
      refine ⟨hf' ▸ .rejected _, .closed rfl (unboundOutcomes_bind.trans houtcomes)
        (fun key hkey => ?_) (fun _ => .inr ?_) (fun hu => ?_)⟩
      · rw [hnew, if_neg hkey, hfate]
      · exact hF.unfinished_eq_zero (hcounts ▸ hpending)
      · rw [hf'] at hu
        cases hu
  | unbound behavior F₁ message hf htake hb =>
      obtain ⟨houtcomes, hfate, -⟩ := htaken htake
      have hf₁ := (hfate (executionKey command.identity)).trans hf
      cases simulation with
      | none =>
          refine ⟨hf₁ ▸ .undecided _, .closed rfl houtcomes (fun key _ => hfate key) (fun hr => ?_)
            (fun _ => rfl)⟩
          exact .inl ((hfate _).symm.trans hr)
      | some simulation =>
          have hf₂ : (F₁.unbound (executionKey command.identity) (some simulation) message).2.fate
              (executionKey command.identity) = .unseen := hf₁
          have hopened : (F₁.unbound (executionKey command.identity) (some simulation)
              message).2.unboundOutcomes
                = F₁.unboundOutcomes ++ [⟨executionKey command.identity, false⟩] := rfl
          refine ⟨hf₂ ▸ .undecided message, .opens (Option.some_ne_none _) ?_ (houtcomes ▸ hopened) hf
            hfate⟩
          exact congrArg (fun outcomes => some (List.length outcomes)) houtcomes
  | creates behavior F₁ result hf htake hb =>
      obtain ⟨houtcomes, hfate, -⟩ := htaken htake
      have hnew := fun key' => fate_create simulation key'
        ((hfate (executionKey command.identity)).trans hf)
      have hf' := (hnew (executionKey command.identity)).trans (if_pos rfl)
      refine ⟨hf' ▸ ?_, .closed rfl (unboundOutcomes_bind.trans houtcomes)
        (fun key hkey => ?_) (fun hr => ?_) (fun hu => ?_)⟩
      · rcases hb with ⟨-, rfl⟩ | ⟨-, message, rfl⟩
        · exact .accepted
        · exact .lost message
      · rw [hnew, if_neg hkey, hfate]
      · rw [hf'] at hr
        cases hr
      · rw [hf'] at hu
        cases hu

/-- A dispatch moves the fate of its own identity only, and to a rejection only when no closure
for it is open. -/
theorem Closes.moves (h : F.Closes key simulation o F') (hF' : ∀ key ∈ F'.rejectedIdentities,
    F'.externalExecutions.get? key = none) (hkeeps : F.Keeps F') (key' : String) :
    F'.fate key' = F.fate key'
      ∨ F.fate key' = .unseen ∧ (F'.fate key' = .rejected → F.unfinished key' = 0) := by
  cases h with
  | opens _ _ _ _ hfate => exact .inl (hfate key')
  | closed _ _ hothers hrejected _ =>
      by_cases hkey : key' = key
      · subst hkey
        rcases hkeeps.fate hF' with hunseen | hsame
        · refine .inr ⟨hunseen, fun hr => (hrejected hr).resolve_left ?_⟩
          rw [hunseen]
          decide
        · exact .inl hsame.symm
      · exact .inl (hothers key' hkey)

/-! ### What a dispatch decides -/

/-- What there is to know about a dispatch: its answer, its closure and the fates after it. -/
theorem Coherent.decided (h : F.Coherent) (hnul : command.identity.NulFree)
    (simulation : Option FakeRunSimulation) :
    (F.decideDispatch command simulation).2.Coherent
      ∧ Answer ((F.decideDispatch command simulation).2.fate (executionKey command.identity))
        (F.decideDispatch command simulation).1.result
      ∧ F.Closes (executionKey command.identity) simulation
        (F.decideDispatch command simulation).1 (F.decideDispatch command simulation).2
      ∧ ∀ key, (F.decideDispatch command simulation).2.fate key = F.fate key
        ∨ F.fate key = .unseen
          ∧ ((F.decideDispatch command simulation).2.fate key = .rejected → F.unfinished key = 0) := by
  obtain ⟨hcoherent, hkeeps⟩ : (F.decideDispatch command simulation).2.Coherent ∧ _ :=
    h.decideDispatch hnul
  obtain ⟨hanswer, hcloses⟩ := (F.decides command simulation).answered h
  exact ⟨hcoherent, hanswer, hcloses, hcloses.moves hcoherent.exclusive hkeeps⟩

/-- A closure is what an explicit dispatch returns with an ambiguous answer and no run. -/
theorem Closes.finish_ne_none (h : F.Closes key simulation o F') (hsimulation : simulation ≠ none)
    (hanswer : Answer (F'.fate key) o.result) : o.finish ≠ none
      ↔ (∃ message, o.result = .unknown message) ∧ F'.externalExecutions.get? key = none := by
  have hopen : o.finish ≠ none ↔ F'.fate key = .unseen := by
    cases h with
    | opens _ hfinish _ hunseen hfate => simp [hfinish, hfate, hunseen]
    | closed hfinish _ _ _ hnone => simpa [hfinish] using fun hunseen => hsimulation (hnone hunseen)
  rw [hopen]
  constructor
  · intro hunseen
    rw [hunseen] at hanswer
    generalize hresult : o.result = result at hanswer
    cases hanswer with
    | undecided message => exact ⟨⟨message, rfl⟩, (fate_eq_unseen.mp hunseen).1⟩
  · rintro ⟨⟨message, hresult⟩, hnone⟩
    rw [hresult] at hanswer
    generalize hfate : F'.fate key = fate at hanswer
    cases hanswer with
    | undecided _ => rfl
    | lost _ =>
        rw [fate_of_none hnone] at hfate
        split at hfate <;> cases hfate

/-! ## Calling closures -/

theorem finish_outcomes (n m : Nat) : (F.finish n).unboundOutcomes[m]?
    = (F.unboundOutcomes[m]?).map fun outcome =>
      if m = n then { outcome with finished := true } else outcome := by
  unfold finish
  split
  · rename_i hnone
    by_cases hm : m = n
    · rw [hm, hnone]
      rfl
    · simp [hm]
  rename_i outcome houtcome
  obtain ⟨hn, hget⟩ := List.getElem?_eq_some_iff.mp houtcome
  split
  · rename_i hfinished
    by_cases hm : m = n
    · rw [hm, houtcome, Option.map_some, if_pos rfl, ← hfinished]
    · simp [hm]
  · dsimp only
    by_cases hm : m = n
    · rw [hm, List.getElem?_set_self hn, houtcome, Option.map_some, if_pos rfl]
    · rw [List.getElem?_set_ne (Ne.symm hm)]
      simp [hm]

/-! ### Several closures -/

theorem releases_outcomes (releases : List Nat) (m : Nat) :
    (releases.foldl finish F).unboundOutcomes[m]? = (F.unboundOutcomes[m]?).map fun outcome =>
      if m ∈ releases then { outcome with finished := true } else outcome := by
  induction releases generalizing F with
  | nil => simp
  | cons n releases ih =>
      rw [List.foldl_cons, ih, finish_outcomes, Option.map_map]
      congr 1
      funext outcome
      by_cases hm : m = n
      · simp [hm]
      · simp [hm]

theorem releases_awaits (releases : List Nat) (m : Nat) :
    (releases.foldl finish F).awaits m = (F.awaits m && m ∉ releases) := by
  rw [awaits, releases_outcomes, awaits]
  cases F.unboundOutcomes[m]? with
  | none => rfl
  | some outcome => by_cases hm : m ∈ releases <;> simp [hm]

/-- The other calls return no closure and call none. -/
theorem call_outcomes {c : FakeCall} (hc : c.dispatched = none) (hfinish : ∀ n, c ≠ .finish n) :
    (F.call c).unboundOutcomes = F.unboundOutcomes := by
  cases c with
  | dispatch command => cases hc
  | dispatchWithSimulation command simulation => cases hc
  | finish n => exact absurd rfl (hfinish n)
  | setExecutionState identity state =>
      show (F.setExecutionState identity state).2.unboundOutcomes = _
      unfold setExecutionState
      split <;> rfl
  | setExecutionStateByDagRunId airflowDagRunId state =>
      show (F.setExecutionStateByDagRunId airflowDagRunId state).2.unboundOutcomes = _
      unfold setExecutionStateByDagRunId
      split <;> rfl
  | getExecutionStatus identity =>
      obtain ⟨history, hsame⟩ := F.getExecutionStatus_eq identity
      show (F.getExecutionStatus identity).2.unboundOutcomes = _
      rw [hsame]
  | _ => rfl

theorem releases_coherent (h : F.Coherent) (releases : List Nat) :
    (releases.foldl finish F).Coherent := by
  induction releases generalizing F with
  | nil => exact h
  | cons n releases ih => exact ih (h.finish n).1

end FakeExecutor

end CostEngine
