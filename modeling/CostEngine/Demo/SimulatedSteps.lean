import CostEngine.Demo.SimulatedRuns
import CostEngine.Executor.Closures

/-! # The invariant of the Runs on one fake

Every closure that has not been called is held by one Run, and a Run with an ambiguous result
in hand of an identity that is still open holds one for it (`Sound`). A rejection waits until
no closure is open, so what a Run has in hand still tells the fate of the identity when it is
recorded. -/

namespace CostEngine

open Relation (ReflTransGen)
open FakeExecutor (Answer Closes)

namespace SimulatedRuns

variable {S S' : SimulatedRuns} {r n : Nat} {key : String}

/-! ## The invariant -/

/-- The results that a Run has in hand, or that are on their way to it. -/
def inHand (S : SimulatedRuns) : List UnrecordedResult :=
  (S.adapters.pending.map fun p => ⟨p.request, p.identity, p.observation.result⟩) ++ S.unrecorded

def Holds (S : SimulatedRuns) (r n : Nat) : Prop :=
  (∃ p ∈ S.adapters.pending, p.request = r ∧ p.observation.finish = some n)
    ∨ ∃ A, S.adapters.requests[r]? = some A ∧ n ∈ A.releases

/-- The Run holds an open closure for the key. -/
def HoldsFor (S : SimulatedRuns) (r : Nat) (key : String) : Prop :=
  ∃ n outcome, S.Holds r n ∧ S.adapters.fake.unboundOutcomes[n]? = some outcome
    ∧ outcome.waits key = true

/-- The result tells the fate of its identity, and if that is open, its Run holds a closure. -/
structure Backed (S : SimulatedRuns) (u : UnrecordedResult) : Prop where
  answer : Answer (S.adapters.fake.fate (executionKey u.identity)) u.result
  holds : S.adapters.fake.fate (executionKey u.identity) = .unseen →
    S.HoldsFor u.request (executionKey u.identity)

def RejectedFirst (a b : ExecutionIdentity × DispatchResult) : Prop :=
  executionKey a.1 = executionKey b.1 → (∃ message, a.2 = .rejected message) →
    ∃ message, b.2 = .rejected message

structure Sound (S : SimulatedRuns) : Prop where
  coherent : S.adapters.fake.Coherent
  /-- Every open closure is held, once; no closed one is. -/
  counted : ∀ n, S.held.count n = (S.adapters.fake.awaits n).toNat
  settled : ∀ key, S.adapters.fake.fate key = .rejected → S.adapters.fake.unfinished key = 0
  backed : ∀ u ∈ S.inHand, S.Backed u
  recorded : ∀ a ∈ S.recorded, (∃ message, a.2 = .rejected message) →
    S.adapters.fake.fate (executionKey a.1) = .rejected
  ordered : S.recorded.Pairwise RejectedFirst

theorem new_sound (options : FakeExecutorOptions) : (new options).Sound where
  coherent := FakeExecutor.new_coherent options
  counted _ := rfl
  settled _ h := by cases h
  backed _ h := by cases h
  recorded _ h := by cases h
  ordered := .nil

/-! ## What a step does to the rest -/

theorem Holds.awaits (h : S.Sound) (hn : S.Holds r n) : S.adapters.fake.awaits n = true := by
  have hmem : n ∈ S.held := by
    rcases hn with ⟨p, hp, -, hfinish⟩ | ⟨A, hA, hmem⟩
    · refine List.mem_append_left _ (List.mem_flatMap.mpr ⟨p, hp, ?_⟩)
      rw [hfinish]
      exact List.mem_singleton_self n
    · exact List.mem_append_right _ (List.mem_flatMap.mpr ⟨A, List.mem_of_getElem? hA, hmem⟩)
  have := List.count_pos_iff.mpr hmem
  rw [h.counted] at this
  cases hawaits : S.adapters.fake.awaits n with
  | true => rfl
  | false =>
      rw [hawaits] at this
      cases this

/-! ### Results that are backed -/

/-- A result stays backed when its identity is decided, since it was not rejected. -/
theorem Backed.mono {u : UnrecordedResult} (h : S.Backed u)
    (hmoves : S'.adapters.fake.fate (executionKey u.identity)
        = S.adapters.fake.fate (executionKey u.identity)
      ∨ S.adapters.fake.fate (executionKey u.identity) = .unseen
        ∧ (S'.adapters.fake.fate (executionKey u.identity) = .rejected →
          S.adapters.fake.unfinished (executionKey u.identity) = 0))
    (hholds : S.HoldsFor u.request (executionKey u.identity) →
      S'.HoldsFor u.request (executionKey u.identity)) : S'.Backed u := by
  obtain ⟨hanswer, hheld⟩ := h
  rcases hmoves with hsame | ⟨hunseen, hrejected⟩
  · exact ⟨hsame ▸ hanswer, fun hu => hholds (hheld (hsame ▸ hu))⟩
  · obtain ⟨n, outcome, hn, houtcome, hwaits⟩ := hheld hunseen
    -- its own closure is open, so the identity was not rejected
    have hopen : S.adapters.fake.unfinished (executionKey u.identity) ≠ 0 := by
      intro hzero
      have := FakeExecutor.unfinished_eq_zero_iff.mp hzero n outcome houtcome
      rw [hwaits] at this
      cases this
    rw [hunseen] at hanswer
    obtain ⟨request, identity, result⟩ := u
    cases hanswer with
    | undecided message =>
        cases hfate : S'.adapters.fake.fate (executionKey identity) with
        | unseen =>
            exact ⟨hfate ▸ .undecided message, fun _ => hholds ⟨n, outcome, hn, houtcome, hwaits⟩⟩
        | rejected => exact absurd (hrejected hfate) hopen
        | created =>
            refine ⟨hfate ▸ .lost message, fun hu => ?_⟩
            rw [hfate] at hu
            cases hu

theorem rejected_of_answer {result : DispatchResult} (h : Answer .rejected result) :
    ∃ message, result = .rejected message := by
  cases h with
  | rejected message => exact ⟨message, rfl⟩

theorem fate_of_rejected {fate : Fate} {result : DispatchResult} (h : Answer fate result)
    (hresult : ∃ message, result = .rejected message) : fate = .rejected := by
  obtain ⟨message, rfl⟩ := hresult
  cases h
  rfl

/-! ### Counting closures -/

/-- Replacing one element changes what the elements contribute by the difference of the two. -/
theorem count_flatMap_set {α : Type} (f : α → List Nat) {l : List α} {i : Nat} {a : α} (a' : α)
    (h : l[i]? = some a) (n : Nat) : ((l.set i a').flatMap f).count n + (f a).count n
      = (l.flatMap f).count n + (f a').count n := by
  induction l generalizing i with
  | nil => cases h
  | cons b l ih =>
      cases i with
      | zero =>
          cases h
          simp only [List.set_cons_zero, List.flatMap_cons, List.count_append]
          omega
      | succ i =>
          have := ih h
          simp only [List.set_cons_succ, List.flatMap_cons, List.count_append]
          omega

theorem le_count_flatMap {α : Type} (f : α → List Nat) {l : List α} {i : Nat} {a : α}
    (h : l[i]? = some a) (n : Nat) : (f a).count n ≤ (l.flatMap f).count n := by
  induction l generalizing i with
  | nil => cases h
  | cons b l ih =>
      simp only [List.flatMap_cons, List.count_append]
      cases i with
      | zero =>
          cases h
          exact Nat.le_add_right _ _
      | succ i => exact Nat.le_trans (ih h) (Nat.le_add_left _ _)

/-- A new closure is the one more that is open. -/
theorem awaits_append {F F' : FakeExecutor} {key : String}
    (h : F'.unboundOutcomes = F.unboundOutcomes ++ [⟨key, false⟩]) (n : Nat) :
    (F'.awaits n).toNat
      = (F.awaits n).toNat + [F.unboundOutcomes.length].count n := by
  rw [FakeExecutor.awaits, h, FakeExecutor.awaits, List.getElem?_append]
  by_cases hlt : n < F.unboundOutcomes.length
  · rw [if_pos hlt, List.count_singleton, if_neg (by simp; omega)]
    rfl
  · rw [if_neg hlt, List.getElem?_eq_none (Nat.le_of_not_lt hlt)]
    by_cases heq : n = F.unboundOutcomes.length
    · simp [heq]
    · have hpast : n - F.unboundOutcomes.length ≠ 0 := by omega
      rw [List.getElem?_singleton, if_neg hpast, List.count_singleton,
        if_neg (by simpa using Ne.symm heq)]
      rfl

/-- No closure is opened for a rejected key. -/
theorem Closes.settled {F F' : FakeExecutor} {simulation : Option FakeRunSimulation}
    {o : FakeSimulatedDispatch} (h : Closes F key simulation o F')
    (hmoves : ∀ key, F'.fate key = F.fate key
      ∨ F.fate key = .unseen ∧ (F'.fate key = .rejected → F.unfinished key = 0))
    (hF : ∀ key, F.fate key = .rejected → F.unfinished key = 0) {key' : String}
    (hkey' : F'.fate key' = .rejected) : F'.unfinished key' = 0 := by
  have hzero : F.unfinished key' = 0 := by
    rcases hmoves key' with hsame | ⟨-, hrejected⟩
    · exact hF key' (hsame ▸ hkey')
    · exact hrejected hkey'
  cases h with
  | closed _ houtcomes _ _ _ => rw [FakeExecutor.unfinished, houtcomes]; exact hzero
  | opens _ _ houtcomes hunseen hfate =>
      have hne : key ≠ key' := by
        rintro rfl
        rw [hfate, hunseen] at hkey'
        cases hkey'
      rw [FakeExecutor.unfinished, houtcomes, List.countP_append]
      simp only [List.countP_singleton, UnboundOutcome.waits, hne, false_and, decide_false]
      exact hzero

/-! ## One lemma a step -/

theorem getElem?_set_self {l : List RequestScopedFakeExecutor} {A A' : RequestScopedFakeExecutor}
    (hA : l[r]? = some A) : (l.set r A')[r]? = some A' :=
  List.getElem?_set_self (List.getElem?_eq_some_iff.mp hA).1

section Steps

variable (h : S.Sound)
include h

/-- Two Runs never hold the same closure. -/
theorem Sound.apart {r' : Nat} (hr : r' ≠ r) {A : RequestScopedFakeExecutor}
    (hA : S.adapters.requests[r]? = some A) (hn : S.Holds r' n) : n ∉ A.releases := by
  intro hmem
  have hone : S.held.count n ≤ 1 := h.counted n ▸ Bool.toNat_le _
  rw [held, List.count_append] at hone
  have hpos := List.count_pos_iff.mpr hmem
  rcases hn with ⟨p, hp, -, hfinish⟩ | ⟨B, hB, hmemB⟩
  · have hpending : n ∈ S.adapters.pending.flatMap (·.observation.finish.toList) := by
      refine List.mem_flatMap.mpr ⟨p, hp, ?_⟩
      rw [hfinish]
      exact List.mem_singleton_self n
    have hcount := List.count_pos_iff.mpr hpending
    have hle := le_count_flatMap (·.releases) hA n
    omega
  · -- without the closures of `A` there are still those of `B`
    have hset := count_flatMap_set (·.releases) { A with releases := [] } hA n
    have hnone : ({ A with releases := [] } : RequestScopedFakeExecutor).releases.count n = 0 :=
      List.count_nil
    have hle := le_count_flatMap (·.releases)
      ((List.getElem?_set_ne (a := { A with releases := [] }) (Ne.symm hr)).trans hB) n
    have hposB := List.count_pos_iff.mpr hmemB
    omega

/-! ### Requests and dispatches -/

theorem Sound.request (requested : FakeRunSimulation) : Sound { S with
    adapters := { S.adapters with requests := S.adapters.requests ++ [.new requested] } } where
  coherent := h.coherent
  counted n := by
    rw [← h.counted n]
    simp [held, RequestScopedFakeExecutor.new]
  settled := h.settled
  backed u hu := by
    refine (h.backed u hu).mono (.inl rfl) ?_
    rintro ⟨n, outcome, hn, houtcome, hwaits⟩
    refine ⟨n, outcome, hn.imp_right ?_, houtcome, hwaits⟩
    rintro ⟨A, hA, hmem⟩
    exact ⟨A, (List.getElem?_append_left (List.getElem?_eq_some_iff.mp hA).1).trans hA, hmem⟩
  recorded := h.recorded
  ordered := h.ordered

theorem Sound.dispatch (A : RequestScopedFakeExecutor) {command : DispatchCalculationCommand}
    (hnul : command.identity.NulFree) :
    Sound { S with adapters := S.adapters.dispatched r A command } := by
  obtain ⟨hcoherent, hanswer, hcloses, hmoves⟩ := h.coherent.decided hnul (some A.requested)
  have hheld (n : Nat) : (held { S with adapters := S.adapters.dispatched r A command }).count n
      = S.held.count n
        + (S.adapters.fake.decideDispatch command (some A.requested)).1.finish.toList.count n := by
    simp only [held, ScopedRequests.dispatched, RequestScopedFakeExecutor.dispatch,
      FakeExecutor.dispatchWithSimulation, List.flatMap_append, List.flatMap_cons,
      List.flatMap_nil, List.append_nil, List.count_append]
    omega
  -- what the rest had stays as it was
  have hrest {u : UnrecordedResult} (hu : S.Backed u) :
      Backed { S with adapters := S.adapters.dispatched r A command } u := by
    refine hu.mono (hmoves _) ?_
    rintro ⟨n, outcome, hn, houtcome, hwaits⟩
    refine ⟨n, outcome, hn.imp_left ?_, ?_, hwaits⟩
    · rintro ⟨p, hp, hr⟩
      exact ⟨p, List.mem_append_left _ hp, hr⟩
    · cases hcloses with
      | opens _ _ houtcomes _ _ =>
          refine Eq.trans (congrArg (·[n]?) houtcomes) ?_
          rw [List.getElem?_append_left (List.getElem?_eq_some_iff.mp houtcome).1, houtcome]
      | closed _ houtcomes _ _ _ => exact (congrArg (·[n]?) houtcomes).trans houtcome
  refine ⟨hcoherent, fun n => ?_, fun key hkey => ?_, fun u hu => ?_, fun a ha hr => ?_, h.ordered⟩
  · rw [hheld, h.counted]
    cases hcloses with
    | opens _ hfinish houtcomes _ _ =>
        rw [hfinish]
        exact (awaits_append houtcomes n).symm
    | closed hfinish houtcomes _ _ _ =>
        rw [hfinish]
        exact congrArg (fun F => Bool.toNat (F n)) (FakeExecutor.awaits_of_eq houtcomes).symm
  · exact Closes.settled hcloses hmoves h.settled hkey
  · rcases List.mem_append.mp hu with hu | hu
    · rw [ScopedRequests.dispatched, List.map_append] at hu
      rcases List.mem_append.mp hu with hu | hu
      · exact hrest (h.backed u (List.mem_append_left _ hu))
      · rw [List.map_singleton, List.mem_singleton] at hu
        subst hu
        refine ⟨hanswer, fun hunseen => ?_⟩
        cases hcloses with
        | opens _ hfinish houtcomes _ _ =>
            refine ⟨S.adapters.fake.unboundOutcomes.length, ⟨executionKey command.identity, false⟩,
              .inl ⟨⟨r, command.identity, (A.dispatch S.adapters.fake command).1⟩,
                List.mem_append_right _ (List.mem_singleton_self _), rfl, hfinish⟩, ?_, ?_⟩
            · exact (congrArg (·[S.adapters.fake.unboundOutcomes.length]?) houtcomes).trans
                List.getElem?_concat_length
            · simp [UnboundOutcome.waits]
        | closed _ _ _ _ hnone => exact absurd (hnone hunseen) (Option.some_ne_none _)
    · exact hrest (h.backed u (List.mem_append_right _ hu))
  · have hold := h.recorded a ha hr
    rcases hmoves (executionKey a.1) with hsame | ⟨hunseen, -⟩
    · exact hsame.trans hold
    · rw [hold] at hunseen
      cases hunseen

theorem Sound.observe {before after : List PendingObservation} {p : PendingObservation}
    {A : RequestScopedFakeExecutor} (hp : S.adapters.pending = before ++ p :: after)
    (hA : S.adapters.requests[p.request]? = some A) : Sound { S with
      adapters := { S.adapters with
        requests := S.adapters.requests.set p.request (A.observe p.identity p.observation)
        pending := before ++ after }
      unrecorded := S.unrecorded ++ [⟨p.request, p.identity, p.observation.result⟩] } where
  coherent := h.coherent
  counted n := by
    have hset := count_flatMap_set (·.releases) (A.observe p.identity p.observation) hA n
    have hobserved : (A.observe p.identity p.observation).releases.count n
        = A.releases.count n + p.observation.finish.toList.count n := List.count_append
    rw [← h.counted n]
    simp only [held, hp, List.flatMap_append, List.flatMap_cons, List.count_append]
    omega
  settled := h.settled
  backed u hu := by
    have hbefore : u ∈ S.inHand := by
      simp only [inHand, hp, List.map_append, List.map_cons, List.mem_append, List.mem_cons,
        List.not_mem_nil, or_false] at hu ⊢
      tauto
    refine (h.backed u hbefore).mono (.inl rfl) ?_
    have hnew : ∀ i, p.request = i → (S.adapters.requests.set p.request
        (A.observe p.identity p.observation))[i]? = some (A.observe p.identity p.observation) := by
      rintro _ rfl
      exact getElem?_set_self hA
    rintro ⟨n, outcome, hn, houtcome, hwaits⟩
    refine ⟨n, outcome, ?_, houtcome, hwaits⟩
    rcases hn with ⟨q, hq, hr, hfinish⟩ | ⟨B, hB, hmem⟩
    · rw [hp, List.mem_append, List.mem_cons] at hq
      rcases hq with hq | rfl | hq
      · exact .inl ⟨q, List.mem_append_left _ hq, hr, hfinish⟩
      · refine .inr ⟨_, hnew _ hr, List.mem_append_right _ ?_⟩
        rw [hfinish]
        exact List.mem_singleton_self n
      · exact .inl ⟨q, List.mem_append_right _ hq, hr, hfinish⟩
    · by_cases hr : p.request = u.request
      · rw [← hr, hA] at hB
        cases hB
        exact .inr ⟨_, hnew _ hr, List.mem_append_left _ hmem⟩
      · exact .inr ⟨B, (List.getElem?_set_ne hr).trans hB, hmem⟩
  recorded := h.recorded
  ordered := h.ordered

/-! ### Recording and finishing -/

theorem Sound.record {before after : List UnrecordedResult} {u : UnrecordedResult}
    (hu : S.unrecorded = before ++ u :: after) : Sound { S with
      unrecorded := before ++ after
      recorded := S.recorded ++ [(u.identity, u.result)] } := by
  have hanswer := (h.backed u (List.mem_append_right _
    (hu ▸ List.mem_append_right _ List.mem_cons_self))).answer
  refine ⟨h.coherent, h.counted, h.settled, fun v hv => ?_, fun a ha hr => ?_, ?_⟩
  · have hbefore : v ∈ S.inHand := by
      simp only [inHand, hu, List.mem_append, List.mem_cons] at hv ⊢
      tauto
    exact ⟨(h.backed v hbefore).answer, (h.backed v hbefore).holds⟩
  · rcases List.mem_append.mp ha with ha | ha
    · exact h.recorded a ha hr
    · rw [List.mem_singleton] at ha
      subst ha
      exact fate_of_rejected hanswer hr
  · refine List.pairwise_append.mpr ⟨h.ordered, List.pairwise_singleton _ _, ?_⟩
    intro a ha b hb hkey hr
    rw [List.mem_singleton] at hb
    subst hb
    -- the identity was rejected before, so that is what every result of it says
    have hfate := h.recorded a ha hr
    rw [hkey] at hfate
    exact rejected_of_answer (hfate ▸ hanswer)

theorem Sound.finish {A : RequestScopedFakeExecutor} (hA : S.adapters.requests[r]? = some A)
    (hpending : ∀ p ∈ S.adapters.pending, p.request ≠ r) : Sound { S with
      adapters := { S.adapters with
        fake := (A.finish S.adapters.fake).2
        requests := S.adapters.requests.set r (A.finish S.adapters.fake).1 }
      unrecorded := S.unrecorded.filter fun u => u.request ≠ r } := by
  have hfate := (FakeExecutor.finish_decided (F := S.adapters.fake) A.releases).2.1
  refine ⟨FakeExecutor.releases_coherent h.coherent A.releases, fun n => ?_, fun key hkey => ?_,
    fun u hu => ?_, fun a ha hr => (hfate _).trans (h.recorded a ha hr), h.ordered⟩
  · have hset := count_flatMap_set (·.releases) (A.finish S.adapters.fake).1 hA n
    have hcounted := h.counted n
    have hawaits := FakeExecutor.releases_awaits (F := S.adapters.fake) A.releases n
    have hcleared : (A.finish S.adapters.fake).1.releases.count n = 0 := List.count_nil
    simp only [held, List.count_append] at hcounted ⊢
    show _ = ((A.releases.foldl FakeExecutor.finish S.adapters.fake).awaits n).toNat
    rw [hawaits]
    by_cases hmem : n ∈ A.releases
    · have hpos := List.count_pos_iff.mpr hmem
      have hle := Bool.toNat_le (S.adapters.fake.awaits n)
      simp only [hmem, not_true_eq_false, decide_false, Bool.and_false, Bool.toNat_false]
      omega
    · have hzero := List.count_eq_zero.mpr hmem
      simp only [hmem, not_false_eq_true, decide_true, Bool.and_true]
      omega
  · refine FakeExecutor.unfinished_eq_zero_iff.mpr fun n outcome houtcome => ?_
    have hzero := FakeExecutor.unfinished_eq_zero_iff.mp
      (h.settled key ((hfate key).symm.trans hkey))
    have houtcome := (FakeExecutor.releases_outcomes A.releases n).symm.trans houtcome
    obtain ⟨before, hbefore, rfl⟩ := Option.map_eq_some_iff.mp houtcome
    have hwaits := hzero n before hbefore
    split
    · simp [UnboundOutcome.waits]
    · exact hwaits
  · have hother : u.request ≠ r ∧ u ∈ S.inHand := by
      rcases List.mem_append.mp hu with hu | hu
      · obtain ⟨p, hp, rfl⟩ := List.mem_map.mp hu
        exact ⟨hpending p hp, List.mem_append_left _ (List.mem_map_of_mem hp)⟩
      · obtain ⟨hu, hr⟩ := List.mem_filter.mp hu
        exact ⟨of_decide_eq_true hr, List.mem_append_right _ hu⟩
    obtain ⟨hr, hbefore⟩ := hother
    refine (h.backed u hbefore).mono (.inl (hfate _)) ?_
    rintro ⟨n, outcome, hn, houtcome, hwaits⟩
    -- the closure of another Run is not among those that are called
    have hnot : n ∉ A.releases := h.apart hr hA hn
    refine ⟨n, outcome, hn.imp_right ?_, ?_, hwaits⟩
    · rintro ⟨B, hB, hmem⟩
      exact ⟨B, (List.getElem?_set_ne (Ne.symm hr)).trans hB, hmem⟩
    · refine (FakeExecutor.releases_outcomes A.releases n).trans ?_
      rw [houtcome, Option.map_some, if_neg hnot]

theorem Sound.legacy (hidle : S.Idle) {command : DispatchCalculationCommand}
    (hnul : command.identity.NulFree) (stored : Bool) : Sound { S with
      adapters := S.adapters.legacyDispatched command
      recorded := S.recorded ++
        if stored then [(command.identity, (S.adapters.fake.dispatch command).1)] else [] } := by
  obtain ⟨hcoherent, hanswer, hcloses, hmoves⟩ := h.coherent.decided hnul none
  have hrejected : ∀ key, S.adapters.fake.fate key = .rejected →
      (S.adapters.fake.decideDispatch command none).2.fate key = .rejected := by
    intro key hkey
    rcases hmoves key with hsame | ⟨hunseen, -⟩
    · exact hsame.trans hkey
    · rw [hkey] at hunseen
      cases hunseen
  refine ⟨hcoherent, fun n => ?_, fun key hkey => Closes.settled hcloses hmoves h.settled hkey,
    fun u hu => ?_, fun a ha hr => ?_, ?_⟩
  · refine (h.counted n).trans ?_
    cases hcloses with
    | opens hsome _ _ _ _ => exact absurd rfl hsome
    | closed _ houtcomes _ _ _ =>
        exact congrArg (fun F => Bool.toNat (F n)) (FakeExecutor.awaits_of_eq houtcomes).symm
  · rw [inHand, hidle.unrecorded] at hu
    rw [show (S.adapters.legacyDispatched command).pending = [] from hidle.pending] at hu
    cases hu
  · rcases List.mem_append.mp ha with ha | ha
    · exact hrejected _ (h.recorded a ha hr)
    · cases stored with
      | false => cases ha
      | true =>
          rw [if_pos rfl, List.mem_singleton] at ha
          subst ha
          exact fate_of_rejected hanswer hr
  · refine List.pairwise_append.mpr ⟨h.ordered, ?_, ?_⟩
    · cases stored with
      | false => exact .nil
      | true => exact List.pairwise_singleton _ _
    · intro a ha b hb hkey hr
      cases stored with
      | false => cases hb
      | true =>
          rw [if_pos rfl, List.mem_singleton] at hb
          subst hb
          have hfate := hrejected _ (h.recorded a ha hr)
          rw [hkey] at hfate
          exact rejected_of_answer (hfate ▸ hanswer)

theorem Sound.control {c : FakeCall} (hc : c.dispatched = none) (hfinish : ∀ n, c ≠ .finish n)
    (hnul : c.NulFree) :
    Sound { S with adapters := { S.adapters with fake := S.adapters.fake.call c } } := by
  have hfate := (FakeExecutor.call_decided (F := S.adapters.fake) hc).2.1
  have houtcomes := FakeExecutor.call_outcomes (F := S.adapters.fake) hc hfinish
  refine ⟨(h.coherent.call hnul).1, fun n => ?_, fun key hkey => ?_, fun u hu => ?_,
    fun a ha hr => (hfate _).trans (h.recorded a ha hr), h.ordered⟩
  · refine (h.counted n).trans ?_
    exact congrArg (fun F => Bool.toNat (F n)) (FakeExecutor.awaits_of_eq houtcomes).symm
  · rw [FakeExecutor.unfinished, houtcomes]
    exact h.settled key ((hfate key).symm.trans hkey)
  · refine (h.backed u hu).mono (.inl (hfate _)) ?_
    rintro ⟨n, outcome, hn, houtcome, hwaits⟩
    exact ⟨n, outcome, hn, (congrArg (·[n]?) houtcomes).trans houtcome, hwaits⟩

end Steps

/-! ### Every step -/

theorem Step.sound (h : S.Step S') (hS : S.Sound) : S'.Sound := by
  cases h with
  | request requested => exact hS.request requested
  | dispatch r A command _ hnul => exact hS.dispatch A hnul
  | observe before p after A hp hA => exact hS.observe hp hA
  | record before u after hu => exact hS.record hu
  | finish r A hA hpending => exact hS.finish hA hpending
  | legacy command stored hidle hnul => exact hS.legacy hidle hnul stored
  | control c hc hfinish hnul => exact hS.control hc hfinish hnul

/-- A decided identity keeps its fate. -/
theorem Step.fate (h : S.Step S') (hS : S.Sound) (key : String) :
    S'.adapters.fake.fate key = S.adapters.fake.fate key ∨ S.adapters.fake.fate key = .unseen := by
  cases h with
  | request requested => exact .inl rfl
  | dispatch r A command _ hnul =>
      exact ((hS.coherent.decided hnul (some A.requested)).2.2.2 key).imp_right (·.1)
  | observe before p after A hp hA => exact .inl rfl
  | record before u after hu => exact .inl rfl
  | finish r A hA hpending =>
      exact .inl ((FakeExecutor.finish_decided (F := S.adapters.fake) A.releases).2.1 key)
  | legacy command stored hidle hnul =>
      exact ((hS.coherent.decided hnul none).2.2.2 key).imp_right (·.1)
  | control c hc hfinish hnul =>
      exact .inl ((FakeExecutor.call_decided (F := S.adapters.fake) hc).2.1 key)

theorem Run.sound (h : S.Run S') (hS : S.Sound) : S'.Sound := by
  induction h with
  | refl => exact hS
  | tail _ hstep ih => exact hstep.sound ih

theorem Reached.sound (h : S.Reached) : S.Sound := by
  obtain ⟨options, hrun⟩ := h
  exact hrun.sound (new_sound options)

/-! ## Counting -/

/-- Counting the elements of a list is counting their positions. -/
theorem countP_range {α : Type} (p : α → Bool) (l : List α) :
    (List.range l.length).countP (fun n => (l[n]?).any p) = l.countP p := by
  induction l with
  | nil => rfl
  | cons a l ih =>
      rw [List.length_cons, List.range_succ_eq_map, List.countP_cons, List.countP_cons,
        List.countP_map, ← ih]
      rfl

/-- The open closures are those that the Runs hold. -/
theorem Sound.held_perm (h : S.Sound) : S.held.Perm
    ((List.range S.adapters.fake.unboundOutcomes.length).filter S.adapters.fake.awaits) := by
  refine List.perm_iff_count.mpr fun n => ?_
  rw [h.counted]
  by_cases hawaits : S.adapters.fake.awaits n = true
  · rw [List.count_filter hawaits, List.count_eq_one_of_mem List.nodup_range
      (List.mem_range.mpr (FakeExecutor.lt_of_awaits hawaits)), hawaits]
    rfl
  · rw [List.count_eq_zero.mpr fun hn => hawaits (List.mem_filter.mp hn).2,
      Bool.eq_false_iff.mpr hawaits]
    rfl

theorem Sound.outstanding (h : S.Sound) (key : String) :
    S.outstanding key = S.adapters.fake.unfinished key := by
  rw [SimulatedRuns.outstanding, h.held_perm.countP_eq, List.countP_filter]
  refine Eq.trans (List.countP_congr fun n _ => ?_) (countP_range (fun o : UnboundOutcome => o.waits key) _)
  rw [FakeExecutor.awaits]
  cases S.adapters.fake.unboundOutcomes[n]? with
  | none => simp
  | some outcome => simp [UnboundOutcome.waits]

/-! ## Rejecting an open identity -/

/-- A simulated rejection of an open identity, with and without an ambiguous answer before it. -/
theorem reject_result {F : FakeExecutor} (hF : F.Coherent) {command : DispatchCalculationCommand}
    (hunseen : F.fate (executionKey command.identity) = .unseen) :
    (F.dispatchWithSimulation command .reject).1.result
      = if F.unfinished (executionKey command.identity) = 0 then
          .rejected "Fake executor rejected dispatch"
        else .unknown
          "Fake rejection deferred while an earlier ambiguous dispatch is recording" := by
  obtain ⟨hnone, hfresh⟩ := FakeExecutor.fate_eq_unseen.mp hunseen
  have hpending := hF.pending (executionKey command.identity)
  have hcreated : ((F.noted command).externalExecutions.get?
      (executionKey command.identity)).isSome = false := by
    show (F.externalExecutions.get? _).isSome = false
    rw [hnone]
    rfl
  have hrejected : executionKey command.identity ∉ (F.noted command).rejectedIdentities := hfresh
  unfold FakeExecutor.dispatchWithSimulation FakeExecutor.decideDispatch
  simp only [hcreated, Bool.false_eq_true, if_false, if_neg hrejected, FakeExecutor.takeBehavior,
    FakeRunSimulation.dispatch, FakeExecutor.applyBehavior, if_true]
  show (if (F.pendingUnboundOutcomes (executionKey command.identity)).isSome = true then _
    else _ : FakeSimulatedDispatch × FakeExecutor).1.result = _
  rw [hpending]
  split <;> rfl

end SimulatedRuns

end CostEngine
