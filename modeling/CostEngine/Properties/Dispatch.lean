import CostEngine.System.Scripts

/-! # Dispatching an attempt

What a Run sends, and how it ends when others overtake it. -/

namespace CostEngine

open Relational (Table)
open Concurrency (Machine Active play playWhile)

variable {honours : Prop} {st₀ st st' : System}

/-! ## Recording an answer -/

/-- The attempt of the answer has moved on since the answer was asked for. -/
def Store.Late (s : Store) (c : DispatchCalculationCommand) : Prop :=
  ∀ a, s.executionAttempts.get? c.executionAttemptId = some a → a.status ≠ .dispatching

/-- The exact condition under which the transaction fails. -/
theorem Reachable.recordDispatchOutcome_raises (h : Reachable True st) {i : Nat}
    {c : DispatchCalculationCommand} {outcome : DispatchResult}
    {r : Except ServiceError RecordOutcomeResult}
    {a : Active Store RowLock Write ServiceError TxEnv World RecordOutcomeResult}
    (he : st.Ending i (.recordDispatchOutcome c outcome) r a) :
    (∃ e, r = .error e) ↔ st.shared.db.Overlooked c outcome := by
  obtain ⟨last, hspec⟩ := h.ends he
  exact RecordOutcomeSpec.raises hspec.ensures trivial

/-- A late answer changes no row. -/
theorem Reachable.recordDispatchOutcome_late (h : Reachable honours st) {i : Nat}
    {c : DispatchCalculationCommand} {outcome : DispatchResult} {r : RecordOutcomeResult}
    {ws : List Write} (hc : Commits i (.recordDispatchOutcome c outcome) r ws st st')
    (hlate : st.shared.db.Late c) : st'.shared.db = st.shared.db := by
  obtain ⟨req, log, k, a, hi, hr, rfl, hst⟩ := hc
  obtain ⟨last, hspec⟩ := h.commits hi hr
  obtain ⟨b, hb, -⟩ := hspec.pre.1.attempt
  have hws : a.writes = [] := RecordOutcomeSpec.late hspec.ensures b hb (hlate b hb)
  rw [hst, hws]
  rfl

/-! ### Runs in which no answer is overlooked -/

/-- No answer is recorded for an attempt that was rejected meanwhile, if the answer is
`UNKNOWN` or the job or the version has moved on. -/
def Foreseen (st _ : System) : Prop :=
  ∀ i c outcome r a, st.Ending i (.recordDispatchOutcome c outcome) r a →
    ¬ st.shared.db.Overlooked c outcome

theorem no_recordDispatchOutcome_error (h₀ : Initial st₀)
    (hr : (machine True).RunWhere Foreseen st₀ st) (i : Nat) (c : DispatchCalculationCommand)
    (outcome : DispatchResult) (e : ServiceError) :
    .ended (.recordDispatchOutcome c outcome) (.error e) ∉ (st.threads i).events := by
  induction hr with
  | refl =>
      cases h₀
      exact List.not_mem_nil
  | step hr hs hforeseen ih =>
      intro hmem
      rcases hs.ended_mem hmem with hmem | ⟨a, ha⟩
      · exact ih hmem
      · -- An answer that is recorded in error was overlooked when its transaction ended.
        have hreach : Reachable True _ := ⟨_, h₀, hr.run⟩
        exact hforeseen i c outcome _ a ha
          ((hreach.recordDispatchOutcome_raises ha).mp ⟨e, rfl⟩)

/-- **Recording an answer never fails**, in a run where no answer is overlooked: late answers
leave every row unchanged, and a Run that has dispatched ends in a result or in
`ExecutorDispatchFailedError`. -/
theorem recordDispatchOutcome_never_raises (h₀ : Initial st₀)
    (hr : (machine True).RunWhere Foreseen st₀ st) :
    (∀ i c outcome e,
      .ended (.recordDispatchOutcome c outcome) (.error e) ∉ (st.threads i).events)
    ∧ (∀ i jobId log r c, st.threads i = .running (.runCalculationJob jobId) log (.ret r) →
        .sent c ∈ log → (∃ result, r = .ok (.ran result))
          ∨ r = .error (.executorDispatchFailed jobId))
    ∧ ∀ i c outcome r ws st', Commits i (.recordDispatchOutcome c outcome) r ws st st' →
        st.shared.db.Late c → st'.shared.db = st.shared.db := by
  have hreach : Reachable True st := ⟨st₀, h₀, hr.run⟩
  have hnone := no_recordDispatchOutcome_error h₀ hr
  refine ⟨hnone, fun i jobId log r c hi hsent => ?_, fun i c outcome r ws st' hc hlate =>
    hreach.recordDispatchOutcome_late hc hlate⟩
  obtain ⟨r', hends, rfl⟩ := hreach.returns hi
  cases hends with
  | routed r hunsent _ => exact absurd hsent (hunsent c)
  | recorded before c' outcome recorded _ _ =>
      cases recorded with
      | rejected => exact .inr rfl
      | result result => exact .inl ⟨result, rfl⟩
  -- Such an error would have been an answer that was recorded in error.
  | raised before c' outcome message _ hlog =>
      refine absurd ?_ (hnone i c' outcome (.calculationStateInvariant message))
      rw [hi, hlog]
      exact List.mem_append_right _ (List.mem_singleton_self _)

/-! ### A late confirmation -/

/-- No attempt has been rejected. -/
def SystemStage.noRejection (S : SystemStage) : Bool :=
  S.shared.db.executionAttempts.rows.all fun a => a.status ≠ .dispatchFailed

theorem SystemStage.foreseen_of_noRejection (S : SystemStage) (st' : System)
    (h : noRejection S = true) : Foreseen S.state st' := by
  rintro i c outcome r a - ⟨⟨ea, hea, hs⟩, -⟩
  have := List.all_eq_true.mp h ea (Table.get?_mem hea)
  simp [hs] at this

/-- Two Runs dispatch the first attempt. The second one learns that the run exists and is about
to record that when the first one has recorded its own answer. -/
def Script.lateConfirmation (honours : Prop) : Script honours :=
  dispatched honours ++ request honours (.runCalculationJob "v2") ++ steps honours 2 13 "b"
    ++ executes honours 0 .running ++ answers honours 1 .accepted .notFound
    ++ answers honours 2 .alreadyExists .notFound ++ steps honours 1 19 "a" ++ steps honours 2 9 "b"

/-- The thread is about to commit that the run exists, for an attempt that has moved on. -/
def SystemStage.recordsLate (i : Nat) (S : SystemStage) : Bool :=
  match S.thread i with
  | .inTxn _ _ (.recordDispatchOutcome c .alreadyExists) _ ⟨_, _, _, _, .pure _⟩ =>
      (S.shared.db.executionAttempts.get? c.executionAttemptId).all (·.status ≠ .dispatching)
  | _ => false

theorem SystemStage.commits_of_recordsLate {S : SystemStage} {i : Nat}
    (h : recordsLate i S = true) : ∃ c r ws st',
      Commits i (.recordDispatchOutcome c .alreadyExists) r ws S.state st'
        -- The row has moved on, which is what being late means.
        ∧ S.shared.db.Late c := by
  unfold recordsLate at h
  split at h
  · rename_i req log c k env seen locks writes r hi
    refine ⟨c, r, writes, ⟨{ S.shared with db := writes.foldl Store.apply S.shared.db }, S.thread⟩,
      ⟨req, log, k, _, hi, rfl, rfl, rfl⟩, fun a ha => ?_⟩
    rw [ha] at h
    exact of_decide_eq_true h
  · cases h

theorem recordDispatchOutcome_never_raises_late : ∃ S, playWhile (machine True)
    SystemStage.noRejection (Script.lateConfirmation True) SystemStage.sample = some S
      ∧ SystemStage.statuses S = ([.building], [.running], [.accepted])
      ∧ ∃ c r ws st', Commits 2 (.recordDispatchOutcome c .alreadyExists) r ws S.state st'
          ∧ S.shared.db.Late c ∧ st'.shared.db = S.shared.db := by
  obtain ⟨S, hS, hp⟩ := (Option.any_eq_true (fun S =>
    decide (SystemStage.statuses S = ([.building], [.running], [.accepted]))
      && SystemStage.recordsLate 2 S) _).mp
    (show (playWhile (machine True) SystemStage.noRejection (Script.lateConfirmation True)
      SystemStage.sample).any _ = true by decide +kernel)
  obtain ⟨hstatuses, hrecords⟩ := Bool.and_eq_true_iff.mp hp
  have hr := Concurrency.playWhile_run SystemStage.foreseen_of_noRejection hS
  obtain ⟨c, r, ws, st', hc, hlate⟩ := SystemStage.commits_of_recordsLate hrecords
  exact ⟨S, hS, of_decide_eq_true hstatuses, c, r, ws, st', hc, hlate,
    (recordDispatchOutcome_never_raises SystemStage.sample_initial hr).2.2 2 c _ r ws st' hc hlate⟩

/-! ### A late rejection -/

/-- The thread is about to roll `recordDispatchOutcome` back with an invariant error. -/
def raisesWhileRecording : Concurrency.Thread Store RowLock Write ServiceError TxEnv Transaction
    Transaction.Result DispatchCalculationCommand ExecutorQuestion ExecutorQuestion.Answer World
    Request Response → Bool
  | .inTxn _ _ (.recordDispatchOutcome _ (.rejected _)) _
      ⟨_, _, _, _, .throw (.calculationStateInvariant _)⟩ => true
  | _ => false

theorem ending_of_raisesWhileRecording {i : Nat} (h : raisesWhileRecording (st.threads i) = true) :
    ∃ c text message a, st.Ending i (.recordDispatchOutcome c (.rejected text))
      (.error (.calculationStateInvariant message)) a := by
  unfold raisesWhileRecording at h
  split at h
  · rename_i req log c text k env seen locks writes message hi
    exact ⟨c, text, message, _, ⟨req, log, k, hi⟩, rfl⟩
  · cases h

/-- Two Runs dispatch the first attempt, the executor rejects it, one of them records the
rejection and a third Run gets a second attempt accepted, before the other records it. -/
def Script.lateRejection : Script True :=
  dispatched True ++ request True (.runCalculationJob "v2") ++ steps True 2 13 "b"
    ++ executes True 0 .rejected ++ answers True 1 (.rejected "no") .notFound
    ++ answers True 2 (.rejected "no") .notFound ++ steps True 2 14 "b"
    ++ request True (.runCalculationJob "v2") ++ steps True 3 34 "c"
    ++ executes True 2 .running ++ answers True 3 .accepted .notFound ++ steps True 3 18 "c"
    ++ steps True 1 9 "a"

/-- The rejection that comes late is an internal error. -/
theorem recordDispatchOutcome_raises_late : ∃ st : System, Reachable True st ∧
    ∃ i c text message a, st.Ending i (.recordDispatchOutcome c (.rejected text))
      (.error (.calculationStateInvariant message)) a := by
  obtain ⟨S, hS, hp⟩ := exists_of_play (p := fun S => raisesWhileRecording (S.thread 1))
    (show (play (machine True) Script.lateRejection SystemStage.sample).any _ = true by
      decide +kernel)
  exact ⟨S.state, .of_play SystemStage.sample_initial hS, 1, ending_of_raisesWhileRecording hp⟩

/-! ## A Run that is overtaken -/

/-- Every `beginDispatch` that makes its first statement finds its version `BUILDING`. -/
def FindsBuilding (st st' : System) : Prop :=
  ∀ i d, st.FirstRead st' i (.beginDispatch d) → st.shared.db.Building d.datasetVersionId

theorem building_of_seen (h₀ : Initial st₀) (hr : (machine honours).RunWhere FindsBuilding st₀ st)
    {i : Nat} {req : Request} {log : List ServiceEvent} {d : DurableRunAttempt}
    {k : Except ServiceError BeginDispatchResult → Service Response}
    {a : Active Store RowLock Write ServiceError TxEnv World BeginDispatchResult}
    {g : Moment} {rest : List Moment}
    (hi : st.threads i = .inTxn req log (.beginDispatch d) k a) (hseen : a.seen = g :: rest) :
    g.db.Building d.datasetVersionId := by
  induction hr generalizing a rest with
  | refl =>
      cases h₀
      cases hi
  | step hr hs hfinds ih =>
      rcases hs.seen_cons hi hseen with ⟨rfl, hfirst⟩ | ⟨a', rest', hi', hseen'⟩
      · exact hfinds i d hfirst
      · exact ih hi' hseen'

/-! ### How a dispatch begins -/

/-- How `beginDispatch` ends when it found its version `BUILDING`. -/
theorem beginDispatch_error (h₀ : Initial st₀)
    (hr : (machine honours).RunWhere FindsBuilding st₀ st) {i : Nat} {d : DurableRunAttempt}
    {r : Except ServiceError BeginDispatchResult}
    {a : Active Store RowLock Write ServiceError TxEnv World BeginDispatchResult}
    (he : st.Ending i (.beginDispatch d) r a) :
    (∀ e, r = .error e → e = .attemptRoutingRace)
      ∧ (¬ st.shared.db.Active d.executionAttemptId → r = .error .attemptRoutingRace) := by
  have hreach : Reachable honours st := ⟨st₀, h₀, hr.run⟩
  obtain ⟨last, hspec⟩ := hreach.ends he
  obtain ⟨⟨req, log, k, hi⟩, -⟩ := he
  obtain ⟨g, rest, hseen, hends⟩ := BeginDispatchSpec.ends hspec.ensures
  have hbuilding := building_of_seen h₀ hr hi hseen
  cases hends with
  | dispatch c _ hactive => exact ⟨by simp, fun h => absurd hactive h⟩
  | alreadyAccepted r _ hactive => exact ⟨by simp, fun h => absurd hactive h⟩
  -- The first statement saw the version, so it was being built.
  | race => exact ⟨by simp, fun _ => rfl⟩
  | notBuilding status hnot => exact absurd hbuilding hnot

theorem no_beginDispatch_invariant (h₀ : Initial st₀)
    (hr : (machine honours).RunWhere FindsBuilding st₀ st) (i : Nat) (d : DurableRunAttempt)
    (message : String) : .ended (.beginDispatch d) (.error (.calculationStateInvariant message))
      ∉ (st.threads i).events := by
  induction hr with
  | refl =>
      cases h₀
      exact List.not_mem_nil
  | step hr hs _ ih =>
      intro hmem
      rcases hs.ended_mem hmem with hmem | ⟨a, ha⟩
      · exact ih hmem
      · cases (beginDispatch_error h₀ hr ha).1 _ rfl

/-! ### Runs that are not hindered -/

/-- A Run has lost its attempt to others before it dispatched it. -/
def Overtaken (log : List ServiceEvent) : Prop :=
  ∃ d, .ended (.beginDispatch d) (.error .attemptRoutingRace) ∈ log

/-- Every `beginDispatch` finds its version `BUILDING`, and an answer that is recorded by a Run
that was overtaken before confirms the attempt. -/
structure Unhindered (st st' : System) : Prop where
  building : FindsBuilding st st'
  confirmed : ∀ i c outcome r a, st.Ending i (.recordDispatchOutcome c outcome) r a →
    Overtaken (st.threads i).events → st.shared.db.Confirms c outcome

theorem Unhindered.findsBuilding (hr : (machine honours).RunWhere Unhindered st₀ st) :
    (machine honours).RunWhere FindsBuilding st₀ st := by
  induction hr with
  | refl => exact .refl _
  | step _ hs hu ih => exact .step ih hs hu.building

/-! ### What is recorded after a race -/

/-- What a Run has recorded after it was overtaken. -/
theorem Unhindered.recorded (h₀ : Initial st₀) (hr : (machine honours).RunWhere Unhindered st₀ st)
    {i : Nat} {before : List ServiceEvent} {c : DispatchCalculationCommand}
    {outcome : DispatchResult} {r : Except ServiceError RecordOutcomeResult}
    (hlog : (st.threads i).events = before ++ [.ended (.recordDispatchOutcome c outcome) r])
    (hraced : Overtaken before) : ∃ result, r = .ok (.result result) ∧ result.IsConfirmed := by
  have hnew : (st₀.threads i).events = [] := by
    cases h₀
    rfl
  -- The state in which the answer was recorded, with the log as it was then.
  obtain ⟨s, s', a, hrun, hu, hbefore, he⟩ := hr.ended_after hnew hlog
  have hreach : Reachable honours s := ⟨st₀, h₀, hrun.run⟩
  obtain ⟨last, hspec⟩ := hreach.ends he
  exact (RecordOutcomeSpec.confirms hspec.ensures).mp (hu.confirmed i c outcome r a he (hbefore ▸ hraced))

/-- **A Run that is overtaken before it dispatches ends in a normal result or a conflict**, in
a run where every `beginDispatch` finds its version `BUILDING`: what has lost its attempt goes
back to the routing read, and no phase before the dispatch raises an invariant error. If the
executor confirms what the Run dispatches in the end, it returns an accepted result or throws
`JobNotRunnableError`, unless a UUID it drew is taken. -/
theorem run_overtaken (h₀ : Initial st₀) (hr : (machine honours).RunWhere Unhindered st₀ st) :
    (∀ i d r a, st.Ending i (.beginDispatch d) r a →
      ¬ st.shared.db.Active d.executionAttemptId → r = .error .attemptRoutingRace)
    ∧ (∀ i d message, .ended (.beginDispatch d) (.error (.calculationStateInvariant message))
        ∉ (st.threads i).events)
    ∧ ∀ i jobId log r, st.threads i = .running (.runCalculationJob jobId) log (.ret r) →
        (∀ message, r = .error (.calculationStateInvariant message) → ∃ c outcome,
          .ended (.recordDispatchOutcome c outcome) (.error (.calculationStateInvariant message))
            ∈ log) ∧
        (Overtaken log → (∃ result, r = .ok (.ran result) ∧ result.IsConfirmed)
          ∨ (∃ id, r = .error (.jobNotRunnable id))
          ∨ ∃ key ∈ preparationKeys, r = .error (.uniqueViolation key)) := by
  have hfinds := Unhindered.findsBuilding hr
  have hreach : Reachable honours st := ⟨st₀, h₀, hr.run⟩
  have hnone := no_beginDispatch_invariant h₀ hfinds
  refine ⟨fun i d r a he hactive => (beginDispatch_error h₀ hfinds he).2 hactive, hnone,
    fun i jobId log r hi => ?_⟩
  have hevents : (st.threads i).events = log := by rw [hi]; rfl
  -- A race is no recorded answer, so it came before the one that ends the log.
  have hrecorded : ∀ {before c outcome r}, log = before
      ++ [.ended (.recordDispatchOutcome c outcome) r] → Overtaken log →
      ∃ result, r = .ok (.result result) ∧ result.IsConfirmed := by
    rintro before c outcome r hlog ⟨d, hd⟩
    refine Unhindered.recorded h₀ hr (hevents.trans hlog) ⟨d, ?_⟩
    rw [hlog] at hd
    rcases List.mem_append.mp hd with hd | hd
    · exact hd
    · cases List.mem_singleton.mp hd
  obtain ⟨r', hends, rfl⟩ := hreach.returns hi
  cases hends with
  | recorded before c outcome recorded _ hlog =>
      refine ⟨fun message hm => ?_, fun hraced => ?_⟩
      · -- What was recorded raised no invariant error.
        cases recorded <;> cases hm
      · obtain ⟨result, hresult, hconfirmed⟩ := hrecorded hlog hraced
        cases hresult
        exact .inl ⟨result, rfl, hconfirmed⟩
  | raised before c outcome message _ hlog =>
      refine ⟨fun message' hm => ⟨c, outcome, ?_⟩, fun hraced => ?_⟩
      · cases hm
        rw [hlog]
        exact List.mem_append_right _ (List.mem_singleton_self _)
      · obtain ⟨result, hresult, -⟩ := hrecorded hlog hraced
        cases hresult
  | routed r _ hrouting =>
      cases hrouting with
      | accepted result haccepted =>
          exact ⟨fun message hm => (by cases hm), fun _ => .inl ⟨result, rfl, .inl haccepted⟩⟩
      | jobNotRunnable id =>
          exact ⟨fun message hm => (by cases hm), fun _ => .inr (.inl ⟨id, rfl⟩)⟩
      | uuidTaken key hkey =>
          exact ⟨fun message hm => (by cases hm), fun _ => .inr (.inr ⟨key, hkey, rfl⟩)⟩
      -- A race is the end of a dispatch that was begun, and none was.
      | notPrepared e he hnot =>
          refine ⟨fun message hm => ?_, ?_⟩
          · cases he <;> cases hm
          · rintro ⟨d, hd⟩
            exact absurd hd (hnot d)
      | notBuilding d status hmem => exact absurd (hevents ▸ hmem) (hnone i d _)

/-! ### A Run that is raced -/

/-- The thread has lost an attempt before it dispatched it. -/
def isOvertaken (log : List ServiceEvent) : Bool :=
  log.any fun e => match e with
    | .ended (.beginDispatch _) (.error .attemptRoutingRace) => true
    | _ => false

theorem isOvertaken_iff {log : List ServiceEvent} : isOvertaken log = true ↔ Overtaken log := by
  unfold isOvertaken Overtaken
  rw [List.any_eq_true]
  constructor
  · rintro ⟨e, he, hmatch⟩
    split at hmatch
    · exact ⟨_, he⟩
    · cases hmatch
  · rintro ⟨d, hd⟩
    exact ⟨_, hd, rfl⟩

/-- Every thread that has begun a dispatch finds its version `BUILDING`, and every answer that
an overtaken Run is recording confirms its attempt. -/
def SystemStage.unhindered (S : SystemStage) : Bool :=
  S.threads.all fun th => match th with
    | .inTxn _ _ (.beginDispatch d) _ _ =>
        (S.shared.db.datasetVersions.get? d.datasetVersionId).any (·.status = .building)
    | .inTxn _ log (.recordDispatchOutcome c outcome) _ _ => !isOvertaken log ||
        (S.shared.db.executionAttempts.get? c.executionAttemptId).any fun a =>
          a.status = .accepted ∨ outcome.confirms = true ∧ a.status ≠ .dispatchFailed
    | _ => true

theorem SystemStage.unhindered_of_eq_true (S : SystemStage) (st' : System)
    (h : unhindered S = true) : Unhindered S.state st' := by
  constructor
  · rintro i d ⟨req, log, k, a, a', hi, -⟩
    have hcheck := List.all_eq_true.mp h _ (Concurrency.Stage.mem_threads hi (by simp))
    obtain ⟨v, hv, hs⟩ := (Option.any_eq_true _ _).mp hcheck
    exact ⟨v, hv, of_decide_eq_true hs⟩
  · rintro i c outcome r a ⟨⟨req, log, k, hi⟩, -⟩ hraced
    have hcheck := List.all_eq_true.mp h _ (Concurrency.Stage.mem_threads hi (by simp))
    rw [hi] at hraced
    have hraced : Overtaken log := hraced
    rw [Bool.or_eq_true, isOvertaken_iff.mpr hraced] at hcheck
    obtain ⟨ea, hea, hs⟩ := (Option.any_eq_true _ _).mp (hcheck.resolve_left (by simp))
    exact ⟨ea, hea, of_decide_eq_true hs⟩

/-- A second Run has read that the first attempt is `DISPATCHING`. Before it locks the job, the
executor rejects the attempt and the first Run records that. The second Run begins anew, with a
second attempt, which is accepted. -/
def Script.raced (honours : Prop) : Script honours :=
  dispatched honours ++ request honours (.runCalculationJob "v2") ++ steps honours 2 1 "b"
    ++ executes honours 0 .rejected ++ answers honours 1 (.rejected "no") .notFound
    ++ steps honours 1 15 "a" ++ steps honours 2 41 "b" ++ executes honours 1 .running
    ++ answers honours 2 .accepted .notFound ++ steps honours 2 18 "b"

/-- The Run that the thread is about to return from was overtaken. -/
def returnsOvertaken : Concurrency.Thread Store RowLock Write ServiceError TxEnv Transaction
    Transaction.Result DispatchCalculationCommand ExecutorQuestion ExecutorQuestion.Answer World
    Request Response → Bool
  | .running (.runCalculationJob _) log (.ret _) => isOvertaken log
  | _ => false

theorem run_overtaken_raced : ∃ S, playWhile (machine False) SystemStage.unhindered
    (Script.raced False) SystemStage.sample = some S
      ∧ SystemStage.statuses S = ([.building], [.running], [.dispatchFailed, .accepted])
      ∧ ∃ jobId log r, S.state.threads 2 = .running (.runCalculationJob jobId) log (.ret r)
        ∧ Overtaken log ∧ ((∃ result, r = .ok (.ran result) ∧ result.IsConfirmed)
          ∨ (∃ id, r = .error (.jobNotRunnable id))
          ∨ ∃ key ∈ preparationKeys, r = .error (.uniqueViolation key)) := by
  obtain ⟨S, hS, hp⟩ := (Option.any_eq_true (fun S => decide (SystemStage.statuses S
      = ([.building], [.running], [.dispatchFailed, .accepted]))
        && returnsOvertaken (S.thread 2)) _).mp
    (show (playWhile (machine False) SystemStage.unhindered (Script.raced False)
      SystemStage.sample).any _ = true by decide +kernel)
  obtain ⟨hstatuses, hreturns⟩ := Bool.and_eq_true_iff.mp hp
  have hr := Concurrency.playWhile_run SystemStage.unhindered_of_eq_true hS
  refine ⟨S, hS, of_decide_eq_true hstatuses, ?_⟩
  unfold returnsOvertaken at hreturns
  split at hreturns
  · rename_i jobId log r hi
    have hraced := isOvertaken_iff.mp hreturns
    exact ⟨jobId, log, r, hi, hraced,
      ((run_overtaken SystemStage.sample_initial hr).2.2 2 jobId log r hi).2 hraced⟩
  · cases hreturns

/-! ### A Run that is hindered -/

/-- The thread is about to return an invariant error of a Run that has only tried to begin. -/
def failsBeforeDispatch : Concurrency.Thread Store RowLock Write ServiceError TxEnv Transaction
    Transaction.Result DispatchCalculationCommand ExecutorQuestion ExecutorQuestion.Answer World
    Request Response → Bool
  | .running (.runCalculationJob _) [.ended (.beginDispatch _) _]
      (.ret (.error (.calculationStateInvariant _))) => true
  | _ => false

theorem of_failsBeforeDispatch {i : Nat} (h : failsBeforeDispatch (st.threads i) = true) :
    ∃ jobId log message, st.threads i = .running (.runCalculationJob jobId) log
      (.ret (.error (.calculationStateInvariant message))) ∧ ∀ c, .sent c ∉ log := by
  unfold failsBeforeDispatch at h
  split at h
  · rename_i jobId d r message hi
    exact ⟨jobId, _, message, hi, fun c hc => by cases List.mem_singleton.mp hc⟩
  · cases h

/-- A second Run has read that the first attempt is `DISPATCHING`. Before it locks the job, the
attempt succeeds and the version is submitted for validation. -/
def Script.overtaken : Script True :=
  dispatched True ++ executes True 0 .running
    ++ request True (.runCalculationJob "v2") ++ steps True 2 1 "b"
    ++ request True (.reconcileCalculationJob "v2") ++ steps True 3 2 "r"
    ++ executes True 0 .succeeded ++ answers True 3 .accepted .succeeded ++ steps True 3 18 "r"
    ++ request True (.submitDatasetValidation "v1") ++ steps True 4 15 "s"
    ++ steps True 2 5 "b"

/-- The second Run ends with an internal error, although it has dispatched nothing. -/
theorem run_overtaken_raises : ∃ st : System, Reachable True st ∧ ∃ i jobId log message,
    st.threads i = .running (.runCalculationJob jobId) log
      (.ret (.error (.calculationStateInvariant message))) ∧ ∀ c, .sent c ∉ log := by
  obtain ⟨S, hS, hp⟩ := exists_of_play (p := fun S => failsBeforeDispatch (S.thread 2))
    (show (play (machine True) Script.overtaken SystemStage.sample).any _ = true by
      decide +kernel)
  exact ⟨S.state, .of_play SystemStage.sample_initial hS, 2, of_failsBeforeDispatch hp⟩

end CostEngine
