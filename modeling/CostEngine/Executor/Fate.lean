import CostEngine.Executor.FakeExecutor

/-! # What becomes of an identity

Every identity is decided once: it is rejected, or it gets its one run. `Decides` lists what
a dispatch can do, and `Fate.Leads` what may become of an identity later. -/

namespace CostEngine

open Relational (Table)

/-! ## Keys -/

/-- A list is cut at the first place where `a` stands. -/
theorem List.append_inj_of_not_mem {α : Type} {a : α} {l l' m m' : List α} (h : a ∉ l)
    (h' : a ∉ l') (he : l ++ [a] ++ m = l' ++ [a] ++ m') : l = l' ∧ m = m' := by
  induction l generalizing l' with
  | nil =>
      cases l' with
      | nil => exact ⟨rfl, by simpa using he⟩
      | cons b l' =>
          simp only [List.nil_append, List.cons_append, List.cons.injEq] at he
          exact absurd (he.1 ▸ List.mem_cons_self) h'
  | cons b l ih =>
      cases l' with
      | nil =>
          simp only [List.nil_append, List.cons_append, List.cons.injEq] at he
          exact absurd (he.1 ▸ List.mem_cons_self) h
      | cons c l' =>
          simp only [List.cons_append, List.cons.injEq] at he
          obtain ⟨rfl, he⟩ := he
          obtain ⟨rfl, rfl⟩ := ih (fun hm => h (List.mem_cons_of_mem _ hm))
            (fun hm => h' (List.mem_cons_of_mem _ hm)) he
          exact ⟨rfl, rfl⟩

/-- Neither part has the character that separates them in a key. -/
def ExecutionIdentity.NulFree (i : ExecutionIdentity) : Prop :=
  '\x00' ∉ i.airflowDagId.toList ∧ '\x00' ∉ i.airflowDagRunId.toList

theorem executionKey_inj {i i' : ExecutionIdentity} (h : i.NulFree) (h' : i'.NulFree)
    (he : executionKey i = executionKey i') : i = i' := by
  obtain ⟨dag, run⟩ := i
  obtain ⟨dag', run'⟩ := i'
  have hl := congrArg String.toList he
  simp only [executionKey, String.toList_append] at hl
  obtain ⟨hdag, hrun⟩ := List.append_inj_of_not_mem h.1 h'.1 hl
  cases String.toList_inj.mp hdag
  cases String.toList_inj.mp hrun
  rfl

/-! ## Fates -/

inductive Fate where
  | unseen
  | rejected
  | created
  deriving DecidableEq

/-- A decision stands. -/
def Fate.Leads (x y : Fate) : Prop := x = .unseen ∨ x = y

namespace Fate

variable {x y z : Fate}

theorem Leads.refl : x.Leads x := .inr rfl

theorem Leads.trans (h : x.Leads y) (h' : y.Leads z) : x.Leads z := by
  rcases h with h | rfl
  · exact .inl h
  · exact h'

end Fate

/-- The closure is one for the key, and has not been called. -/
def UnboundOutcome.waits (o : UnboundOutcome) (key : String) : Bool :=
  o.key = key ∧ o.finished = false

namespace FakeExecutor

variable {F F' : FakeExecutor} {key : String}

/-! ### The fate of an identity -/

/-- In the order in which a dispatch checks them. -/
def fate (F : FakeExecutor) (key : String) : Fate :=
  match F.externalExecutions.get? key with
  | some _ => .created
  | none => if key ∈ F.rejectedIdentities then .rejected else .unseen

theorem fate_of_some {e : FakeExternalExecution} (h : F.externalExecutions.get? key = some e) :
    F.fate key = .created := by
  rw [fate, h]

theorem fate_of_none (h : F.externalExecutions.get? key = none) :
    F.fate key = if key ∈ F.rejectedIdentities then .rejected else .unseen := by
  rw [fate, h]

theorem fate_eq_created : F.fate key = .created ↔ F.externalExecutions.get? key ≠ none := by
  cases h : F.externalExecutions.get? key with
  | some e => simp [fate_of_some h]
  | none =>
      rw [fate_of_none h]
      split <;> simp

theorem fate_eq_rejected : F.fate key = .rejected ↔
    F.externalExecutions.get? key = none ∧ key ∈ F.rejectedIdentities := by
  cases h : F.externalExecutions.get? key with
  | some e => simp [fate_of_some h]
  | none =>
      rw [fate_of_none h]
      split <;> simp_all

theorem fate_eq_unseen : F.fate key = .unseen ↔
    F.externalExecutions.get? key = none ∧ key ∉ F.rejectedIdentities := by
  cases h : F.externalExecutions.get? key with
  | some e => simp [fate_of_some h]
  | none =>
      rw [fate_of_none h]
      split <;> simp_all

/-! ## What a dispatch does -/

/-- What a dispatch of `command` can do, and the closure it returns. -/
inductive Decides (F : FakeExecutor) (command : DispatchCalculationCommand)
    (simulation : Option FakeRunSimulation) : FakeSimulatedDispatch → FakeExecutor → Prop
  | exists : F.fate (executionKey command.identity) = .created →
      Decides F command simulation
        ((F.noted command).observed (executionKey command.identity) .alreadyExists false)
        (F.noted command)
  | rejected : F.fate (executionKey command.identity) = .rejected →
      Decides F command simulation
        ((F.noted command).observed (executionKey command.identity)
          (.rejected "Fake executor rejected dispatch") false)
        (F.noted command)
  | rejects (F₁ : FakeExecutor) : F.fate (executionKey command.identity) = .unseen →
      (F.noted command).takeBehavior simulation = (.reject, F₁) →
      F₁.pendingUnboundOutcomes (executionKey command.identity) = none →
      Decides F command simulation
        ((F₁.tombstone (executionKey command.identity) simulation).observed
          (executionKey command.identity) (.rejected "Fake executor rejected dispatch")
          simulation.isSome)
        (F₁.tombstone (executionKey command.identity) simulation)
  | unbound (behavior : FakeDispatchBehavior) (F₁ : FakeExecutor) (message : String) :
      F.fate (executionKey command.identity) = .unseen →
      (F.noted command).takeBehavior simulation = (behavior, F₁) →
      behavior = .unknownWithoutCreation ∨ behavior = .reject →
      Decides F command simulation
        (F₁.unbound (executionKey command.identity) simulation message).1
        (F₁.unbound (executionKey command.identity) simulation message).2
  | creates (behavior : FakeDispatchBehavior) (F₁ : FakeExecutor) (result : DispatchResult) :
      F.fate (executionKey command.identity) = .unseen →
      (F.noted command).takeBehavior simulation = (behavior, F₁) →
      (behavior = .accept ∧ result = .accepted ∨
        behavior = .acceptThenUnknown ∧ ∃ message, result = .unknown message) →
      Decides F command simulation
        ((F₁.create command simulation).observed (executionKey command.identity) result
          simulation.isSome)
        (F₁.create command simulation)

theorem decides (F : FakeExecutor) (command : DispatchCalculationCommand)
    (simulation : Option FakeRunSimulation) :
    F.Decides command simulation (F.decideDispatch command simulation).1
      (F.decideDispatch command simulation).2 := by
  unfold decideDispatch
  dsimp only
  split
  · rename_i h
    exact .exists (fate_eq_created.mpr (Option.isSome_iff_ne_none.mp h))
  rename_i hcreated
  have hnone : F.externalExecutions.get? (executionKey command.identity) = none := by
    simpa [noted] using hcreated
  split
  · rename_i h
    exact .rejected (fate_eq_rejected.mpr ⟨hnone, h⟩)
  rename_i hrejected
  have hunseen := fate_eq_unseen.mpr ⟨hnone, hrejected⟩
  generalize htake : (F.noted command).takeBehavior simulation = taken
  obtain ⟨behavior, F₁⟩ := taken
  unfold applyBehavior
  dsimp only
  cases behavior with
  | reject =>
      rw [if_pos rfl]
      by_cases hpending : (F₁.pendingUnboundOutcomes (executionKey command.identity)).isSome
      · rw [if_pos hpending]
        exact .unbound .reject F₁ _ hunseen htake (.inr rfl)
      · rw [if_neg hpending]
        exact .rejects F₁ hunseen htake (by simpa using hpending)
  | unknownWithoutCreation =>
      exact .unbound .unknownWithoutCreation F₁ _ hunseen htake (.inl rfl)
  | acceptThenUnknown =>
      exact .creates .acceptThenUnknown F₁ _ hunseen htake (.inr ⟨rfl, _, rfl⟩)
  | accept => exact .creates .accept F₁ _ hunseen htake (.inl ⟨rfl, rfl⟩)

/-! ### The queue -/

/-- Taking a behavior changes the queue only. -/
theorem takeBehavior_eq {simulation : Option FakeRunSimulation}
    {behavior : FakeDispatchBehavior} {F₁ : FakeExecutor}
    (h : F.takeBehavior simulation = (behavior, F₁)) :
    F₁ = { F with scriptedBehaviors :=
        if simulation.isSome then F.scriptedBehaviors else F.scriptedBehaviors.tail }
      ∧ behavior = match simulation with
        | some simulation => simulation.dispatch
        | none => F.scriptedBehaviors.headD F.defaultBehavior := by
  unfold takeBehavior at h
  cases simulation with
  | some simulation =>
      cases h
      exact ⟨rfl, rfl⟩
  | none =>
      obtain ⟨_, _, _, _, _, _, _, scripted, _, _⟩ := F
      cases scripted with
      | nil =>
          cases h
          exact ⟨rfl, rfl⟩
      | cons behavior' rest =>
          cases h
          exact ⟨rfl, rfl⟩

/-! ## What a call keeps -/

/-- Runs and rejections are there to stay, and so is what was recorded about them. -/
structure Keeps (F F' : FakeExecutor) : Prop where
  runs : ∀ key e, F.externalExecutions.get? key = some e → ∃ state,
    F'.externalExecutions.get? key = some { e with state }
  rejected : ∀ key ∈ F.rejectedIdentities, key ∈ F'.rejectedIdentities
  decisions : ∀ key, F.fate key ≠ .unseen →
    F'.simulationDecisions key = F.simulationDecisions key

theorem Keeps.of_eq (h₁ : F'.externalExecutions = F.externalExecutions)
    (h₂ : F'.rejectedIdentities = F.rejectedIdentities)
    (h₃ : F'.simulationDecisions = F.simulationDecisions) : F.Keeps F' := by
  refine ⟨fun key e he => ⟨e.state, ?_⟩, fun key hkey => h₂ ▸ hkey, fun key _ => by rw [h₃]⟩
  rw [h₁, he]

theorem Keeps.refl : F.Keeps F := .of_eq rfl rfl rfl

/-! ### The fates that are kept -/

theorem Keeps.fate (h : F.Keeps F') (hF : ∀ key ∈ F'.rejectedIdentities,
    F'.externalExecutions.get? key = none) : (F.fate key).Leads (F'.fate key) := by
  cases hf : F.fate key with
  | unseen => exact .inl rfl
  | created =>
      obtain ⟨e, he⟩ := Option.ne_none_iff_exists'.mp (fate_eq_created.mp hf)
      obtain ⟨state, he'⟩ := h.runs key e he
      exact .inr (fate_of_some he').symm
  | rejected =>
      obtain ⟨-, hrejected⟩ := fate_eq_rejected.mp hf
      have hkey := h.rejected key hrejected
      exact .inr (fate_eq_rejected.mpr ⟨hF key hkey, hkey⟩).symm

theorem Keeps.trans {F'' : FakeExecutor} (h : F.Keeps F') (h' : F'.Keeps F'')
    (hF : ∀ key ∈ F'.rejectedIdentities, F'.externalExecutions.get? key = none) :
    F.Keeps F'' := by
  refine ⟨fun key e he => ?_, fun key hkey => h'.rejected key (h.rejected key hkey),
    fun key hkey => ?_⟩
  · obtain ⟨state, he'⟩ := h.runs key e he
    obtain ⟨state', he''⟩ := h'.runs key _ he'
    exact ⟨state', he''⟩
  · have hkey' : F'.fate key ≠ .unseen := by
      rcases h.fate hF with hf | hf
      · exact absurd hf hkey
      · exact hf ▸ hkey
    exact (h'.decisions key hkey').trans (h.decisions key hkey)

/-! ### Coherence -/

/-- How many closures for the key have not been called. -/
def unfinished (F : FakeExecutor) (key : String) : Nat :=
  F.unboundOutcomes.countP (·.waits key)

/-- What holds of every executor that only its methods have changed. -/
structure Coherent (F : FakeExecutor) : Prop where
  exclusive : ∀ key ∈ F.rejectedIdentities, F.externalExecutions.get? key = none
  nulFree : ∀ e ∈ F.externalExecutions.rows, e.identity.NulFree
  pending : ∀ key, F.pendingUnboundOutcomes key
    = if F.unfinished key = 0 then none else some (F.unfinished key : Int)

theorem new_coherent (options : FakeExecutorOptions) : (new options).Coherent where
  exclusive key hkey := by cases hkey
  nulFree e he := by cases he
  pending key := rfl

end FakeExecutor

/-- The identity that a call names has no separator in it. -/
def FakeCall.NulFree : FakeCall → Prop
  | .dispatch command => command.identity.NulFree
  | .dispatchWithSimulation command _ => command.identity.NulFree
  | .setExecutionState identity _ => identity.NulFree
  | .getExecutionStatus identity => identity.NulFree
  | _ => True

namespace FakeExecutor

variable {F F' : FakeExecutor} {key : String}

/-! ## One lemma for each change -/

theorem Coherent.of_eq (h : F.Coherent) (h₁ : F'.externalExecutions = F.externalExecutions)
    (h₂ : F'.rejectedIdentities = F.rejectedIdentities)
    (h₃ : F'.pendingUnboundOutcomes = F.pendingUnboundOutcomes)
    (h₄ : F'.unboundOutcomes = F.unboundOutcomes) : F'.Coherent where
  exclusive := by
    rw [h₁, h₂]
    exact h.exclusive
  nulFree := by
    rw [h₁]
    exact h.nulFree
  pending key := by
    unfold unfinished
    rw [h₃, h₄]
    exact h.pending key

/-- Recording a simulation touches the decisions only, and of them the one of the key. -/
theorem bind_eq (F : FakeExecutor) (key : String) (simulation : Option FakeRunSimulation) :
    ∃ decisions, F.bind key simulation = { F with simulationDecisions := decisions }
      ∧ ∀ key', key' ≠ key → decisions key' = F.simulationDecisions key' := by
  cases simulation with
  | none => exact ⟨F.simulationDecisions, rfl, fun _ _ => rfl⟩
  | some simulation => exact ⟨_, rfl, fun key' hne => Function.update_of_ne hne _ _⟩

/-- A lookup is noted, and changes nothing else. -/
theorem getExecutionStatus_eq (F : FakeExecutor) (identity : ExecutionIdentity) :
    ∃ history, (F.getExecutionStatus identity).2 = { F with statusLookupHistory := history } := by
  unfold getExecutionStatus
  dsimp only
  repeat' split
  all_goals exact ⟨_, rfl⟩

section Changes

variable (h : F.Coherent) {command : DispatchCalculationCommand}
variable {simulation : Option FakeRunSimulation}
include h

/-! ### Decisions -/

theorem Coherent.tombstone (hkey : F.fate key = .unseen) :
    (F.tombstone key simulation).Coherent ∧ F.Keeps (F.tombstone key simulation) := by
  obtain ⟨hnone, hfresh⟩ := fate_eq_unseen.mp hkey
  obtain ⟨decisions, hbind, hdecisions⟩ := bind_eq
    { F with rejectedIdentities := F.rejectedIdentities ++ [key] } key simulation
  unfold FakeExecutor.tombstone
  rw [hbind]
  refine ⟨⟨fun key' hmem => ?_, h.nulFree, h.pending⟩, fun key' e he => ⟨e.state, he⟩,
    fun key' hmem => List.mem_append_left _ hmem, fun key' hseen => hdecisions key' ?_⟩
  · rcases List.mem_append.mp hmem with hmem | hmem
    · exact h.exclusive key' hmem
    · rw [List.mem_singleton.mp hmem]
      exact hnone
  · rintro rfl
    exact hseen hkey

theorem Coherent.create (hkey : F.fate (executionKey command.identity) = .unseen)
    (hnul : command.identity.NulFree) :
    (F.create command simulation).Coherent ∧ F.Keeps (F.create command simulation) := by
  obtain ⟨hnone, hfresh⟩ := fate_eq_unseen.mp hkey
  have hnew : F.externalExecutions.get? (executionKey (execution command simulation).identity)
      = none := hnone
  obtain ⟨decisions, hbind, hdecisions⟩ := bind_eq
    { F with externalExecutions := F.externalExecutions.insert (execution command simulation) }
    (executionKey command.identity) simulation
  unfold FakeExecutor.create
  rw [hbind]
  refine ⟨⟨fun key' hmem => ?_, fun e he => ?_, h.pending⟩, fun key' e he => ⟨e.state, ?_⟩,
    fun key' hmem => hmem, fun key' hseen => hdecisions key' ?_⟩
  · have hmem : key' ∈ F.rejectedIdentities := hmem
    have hne : executionKey (execution command simulation).identity ≠ key' := by
      rintro rfl
      exact hfresh hmem
    exact (Table.get?_insert hnew).trans ((if_neg hne).trans (h.exclusive key' hmem))
  · rcases (Table.mem_insert hnew).mp he with he | rfl
    · exact h.nulFree e he
    · exact hnul
  · exact Table.get?_insert_of_some he
  · rintro rfl
    exact hseen hkey

theorem Coherent.unbound (message : String) :
    (F.unbound key simulation message).2.Coherent
      ∧ F.Keeps (F.unbound key simulation message).2 := by
  cases simulation with
  | none => exact ⟨h, .refl⟩
  | some simulation =>
      refine ⟨⟨h.exclusive, h.nulFree, fun key' => ?_⟩, .of_eq rfl rfl rfl⟩
      have hpending := h.pending key'
      have hcount : (F.unbound key (some simulation) message).2.unfinished key'
          = F.unfinished key' + if key = key' then 1 else 0 := by
        unfold unfinished
        show List.countP _ (F.unboundOutcomes ++ [⟨key, false⟩]) = _
        rw [List.countP_append, List.countP_singleton]
        simp [UnboundOutcome.waits]
      rw [hcount]
      by_cases hk : key = key'
      · subst hk
        show Function.update F.pendingUnboundOutcomes key _ key = _
        rw [Function.update_self, hpending, if_pos rfl, if_neg (Nat.succ_ne_zero _)]
        by_cases hzero : F.unfinished key = 0
        · simp [hzero]
        · simp [hzero]
      · show Function.update F.pendingUnboundOutcomes key _ key' = _
        rw [Function.update_of_ne (Ne.symm hk), if_neg hk]
        exact hpending

/-! ### States and closures -/

theorem Coherent.withState {e : FakeExternalExecution}
    (he : F.externalExecutions.get? (executionKey e.identity) = some e)
    (state : FakeExecutionState) :
    (F.withState e state).Coherent ∧ F.Keeps (F.withState e state) := by
  have hget : ∀ key', (F.withState e state).externalExecutions.get? key'
      = if executionKey e.identity = key' then some { e with state }
        else F.externalExecutions.get? key' := by
    intro key'
    refine Table.get?_put.trans ?_
    show (if executionKey e.identity = key' then _ else _) = _
    split
    · rename_i hk
      rw [← hk, he]
      rfl
    · rfl
  refine ⟨⟨fun key' hmem => ?_, fun e' he' => ?_, h.pending⟩, fun key' e' he' => ?_,
    fun _ hmem => hmem, fun _ _ => rfl⟩
  · have hnone := h.exclusive key' hmem
    rw [hget, if_neg]
    · exact hnone
    · rintro rfl
      exact Table.no_row hnone he
  · rcases Table.mem_put.mp he' with ⟨rfl, -⟩ | ⟨he', -⟩
    · exact h.nulFree e (Table.get?_mem he)
    · exact h.nulFree e' he'
  · rw [hget]
    split
    · rename_i hk
      rw [← hk, he] at he'
      cases he'
      exact ⟨state, rfl⟩
    · exact ⟨e'.state, he'⟩

theorem Coherent.finish (n : Nat) : (F.finish n).Coherent ∧ F.Keeps (F.finish n) := by
  unfold FakeExecutor.finish
  split
  · exact ⟨h, .refl⟩
  rename_i outcome houtcome
  split
  · exact ⟨h, .refl⟩
  rename_i hfinished
  refine ⟨⟨h.exclusive, h.nulFree, fun key' => ?_⟩, .of_eq rfl rfl rfl⟩
  have hpending := h.pending key'
  obtain ⟨hn, hget⟩ := List.getElem?_eq_some_iff.mp houtcome
  have hwaits : outcome.waits outcome.key = true := by
    simpa [UnboundOutcome.waits] using hfinished
  have hcount : (F.unboundOutcomes.set n { outcome with finished := true }).countP (·.waits key')
      = F.unfinished key' - if outcome.key = key' then 1 else 0 := by
    rw [List.countP_set hn, hget]
    by_cases hk : outcome.key = key'
    · subst hk
      rw [if_pos hwaits, if_pos rfl]
      simp [unfinished, UnboundOutcome.waits]
    · simp [unfinished, hk, UnboundOutcome.waits]
  unfold unfinished
  dsimp only
  rw [hcount]
  by_cases hk : outcome.key = key'
  · subst hk
    have hpos : 0 < F.unfinished outcome.key :=
      List.countP_pos_iff.mpr ⟨outcome, hget ▸ List.getElem_mem hn, hwaits⟩
    rw [Function.update_self, hpending, if_pos rfl, if_neg (Nat.ne_of_gt hpos), Option.map_some]
    by_cases hone : F.unfinished outcome.key = 1
    · simp [hone]
    · have hmore : F.unfinished outcome.key - 1 ≠ 0 := by omega
      rw [if_neg hmore, Option.filter_some, if_pos (by simp; omega)]
      congr 1
      omega
  · rw [Function.update_of_ne (Ne.symm hk), if_neg hk]
    exact hpending

/-! ### Dispatches and other calls -/

/-- A dispatch keeps what there is. -/
theorem Coherent.decideDispatch (hnul : command.identity.NulFree) :
    (F.decideDispatch command simulation).2.Coherent
      ∧ F.Keeps (F.decideDispatch command simulation).2 := by
  have hnoted : (F.noted command).Coherent := h.of_eq rfl rfl rfl rfl
  have hkeeps : ∀ {F' : FakeExecutor}, (F.noted command).Keeps F' → F.Keeps F' :=
    fun hk => ⟨hk.runs, hk.rejected, hk.decisions⟩
  -- Taking a behavior leaves everything else alone.
  have htaken : ∀ {behavior F₁}, (F.noted command).takeBehavior simulation = (behavior, F₁) →
      F₁.Coherent ∧ (∀ key, F₁.fate key = F.fate key) ∧
        ∀ {F' : FakeExecutor}, F₁.Keeps F' → F.Keeps F' := by
    intro behavior F₁ htake
    obtain ⟨rfl, -⟩ := takeBehavior_eq htake
    exact ⟨h.of_eq rfl rfl rfl rfl, fun _ => rfl,
      fun hk => ⟨hk.runs, hk.rejected, hk.decisions⟩⟩
  have hd := F.decides command simulation
  generalize (F.decideDispatch command simulation).1 = o at hd
  generalize (F.decideDispatch command simulation).2 = F' at hd
  cases hd with
  | «exists» hf => exact ⟨hnoted, hkeeps .refl⟩
  | rejected hf => exact ⟨hnoted, hkeeps .refl⟩
  | rejects F₁ hf htake hpending =>
      obtain ⟨h₁, hfate, hkeeps₁⟩ := htaken htake
      obtain ⟨hc, hk⟩ := h₁.tombstone ((hfate _).trans hf)
      exact ⟨hc, hkeeps₁ hk⟩
  | unbound behavior F₁ message hf htake hb =>
      obtain ⟨h₁, hfate, hkeeps₁⟩ := htaken htake
      obtain ⟨hc, hk⟩ := h₁.unbound message
      exact ⟨hc, hkeeps₁ hk⟩
  | creates behavior F₁ result hf htake hb =>
      obtain ⟨h₁, hfate, hkeeps₁⟩ := htaken htake
      obtain ⟨hc, hk⟩ := h₁.create ((hfate _).trans hf) hnul
      exact ⟨hc, hkeeps₁ hk⟩

/-- So does every other call. -/
theorem Coherent.call {c : FakeCall} (hnul : c.NulFree) :
    (F.call c).Coherent ∧ F.Keeps (F.call c) := by
  cases c with
  | dispatch command => exact h.decideDispatch hnul
  | dispatchWithSimulation command simulation =>
      exact h.decideDispatch hnul
  | finish n => exact h.finish n
  | setExecutionState identity state =>
      show (F.setExecutionState identity state).2.Coherent
        ∧ F.Keeps (F.setExecutionState identity state).2
      unfold FakeExecutor.setExecutionState
      cases hget : F.externalExecutions.get? (executionKey identity) with
      | none => exact ⟨h, .refl⟩
      | some e =>
          exact h.withState (Table.get?_of_mem (Table.get?_mem hget)) state
  | setExecutionStateByDagRunId airflowDagRunId state =>
      show (F.setExecutionStateByDagRunId airflowDagRunId state).2.Coherent
        ∧ F.Keeps (F.setExecutionStateByDagRunId airflowDagRunId state).2
      unfold FakeExecutor.setExecutionStateByDagRunId
      split
      · rename_i e hselect
        have hmem : e ∈ F.externalExecutions.select fun execution =>
            execution.airflowDagRunId = airflowDagRunId := by
          rw [hselect]
          exact List.mem_singleton_self e
        exact h.withState (Table.mem_rows.mp (Table.mem_select.mp hmem).1) state
      · exact ⟨h, .refl⟩
  | getExecutionStatus identity =>
      obtain ⟨history, hsame⟩ := F.getExecutionStatus_eq identity
      show (F.getExecutionStatus identity).2.Coherent ∧ F.Keeps (F.getExecutionStatus identity).2
      rw [hsame]
      exact ⟨h.of_eq rfl rfl rfl rfl, .of_eq rfl rfl rfl⟩
  | _ => exact ⟨h.of_eq rfl rfl rfl rfl, .of_eq rfl rfl rfl⟩

end Changes

end FakeExecutor

end CostEngine
