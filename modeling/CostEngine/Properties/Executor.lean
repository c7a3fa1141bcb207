import CostEngine.System.Scripts

/-! # The database and the executor agree

With an executor that honours ADR-0008, the attempts of a job and the external executions of
their identities tell the same story, and no job gets two executions at a time. -/

namespace CostEngine

open Relational (Table)
open Relation (ReflTransGen)

variable {st st' : System}

/-! ## Agreement -/

namespace Moment

/-- Every attempt that is past the dispatch says what the executor has, and everything the
executor has belongs to an attempt that was dispatched. -/
structure AgreesExternally (g : Moment) : Prop where
  rejected : ∀ id a, g.db.executionAttempts.get? id = some a → a.status = .dispatchFailed →
    g.world.executor a.identity = .rejected
  runExists : ∀ id a, g.db.executionAttempts.get? id = some a →
    a.status = .accepted ∨ a.status = .succeeded ∨ a.status = .failed →
    (g.world.executor a.identity).runExists = true
  succeeded : ∀ id a, g.db.executionAttempts.get? id = some a → a.status = .succeeded →
    g.world.executor a.identity = .succeeded
  failed : ∀ id a, g.db.executionAttempts.get? id = some a → a.status = .failed →
    g.world.executor a.identity = .failed
  attempt : ∀ i, (g.world.executor i).runExists = true → ∃ id a,
    g.db.executionAttempts.get? id = some a ∧ a.identity = i ∧
      (a.status = .dispatching ∨ a.status = .accepted ∨ a.status = .succeeded
        ∨ a.status = .failed)

end Moment

theorem Invariant.agreesExternally {g : Moment} (h : Invariant True g) :
    g.AgreesExternally := by
  have hagrees := h.agrees trivial
  refine ⟨fun id a ha hs => ?_, fun id a ha hs => ?_, fun id a ha hs => ?_,
    fun id a ha hs => ?_, fun i hi => ?_⟩
  · simpa [hs, ExecutionAttemptStatus.Agrees] using hagrees id a ha
  · have := hagrees id a ha
    rcases hs with hs | hs | hs <;> rw [hs] at this
    · exact this
    · rw [show g.world.executor a.identity = .succeeded from this]; rfl
    · rw [show g.world.executor a.identity = .failed from this]; rfl
  · simpa [hs, ExecutionAttemptStatus.Agrees] using hagrees id a ha
  · simpa [hs, ExecutionAttemptStatus.Agrees] using hagrees id a ha
  · have hseen : g.world.executor i ≠ .unseen := by
      intro hu
      rw [hu] at hi
      cases hi
    obtain ⟨c, hc, rfl⟩ := h.seen i hseen
    obtain ⟨a, ha, -, -, hdag, hrun, hprepared⟩ := (h.sent c hc).attempt
    have hid : a.identity = c.identity := by
      simp [ExecutionAttempt.identity, DispatchCalculationCommand.identity, hdag, hrun]
    refine ⟨_, a, ha, hid, ?_⟩
    have := hagrees _ a ha
    cases hs : a.status with
    | prepared => exact absurd hs hprepared
    | dispatchFailed =>
        rw [hs, hid] at this
        rw [show g.world.executor c.identity = .rejected from this] at hi
        cases hi
    | _ => simp

/-- A rejected identity never gets a run. -/
theorem Reachable.rejected_later (h : Reachable True st) (hr : (machine True).Run st st')
    {id : Uuid} {a : ExecutionAttempt} (ha : st.shared.db.executionAttempts.get? id = some a)
    (hs : a.status = .dispatchFailed) : st'.shared.world.executor a.identity = .rejected := by
  have hrejected := h.invariant.agreesExternally.rejected id a ha hs
  have hsteps := (h.grows hr).world.executor a.identity
  rw [ExternalExecution.settled_stays hsteps (by rw [hrejected]; exact .rejected), hrejected]

/-- **Local and external state agree in every reachable state**, and what was recorded as
rejected stays rejected. -/
theorem reachable_agreesExternally (h : Reachable True st) :
    Moment.AgreesExternally st.shared ∧ ∀ st', (machine True).Run st st' → ∀ id a,
      st.shared.db.executionAttempts.get? id = some a → a.status = .dispatchFailed →
      st'.shared.world.executor a.identity = .rejected :=
  ⟨h.invariant.agreesExternally, fun _ hr _ _ ha hs => h.rejected_later hr ha hs⟩

theorem reachable_agreesExternally_accepted : ∃ S, Concurrency.play (machine True)
    (Script.accepted True) SystemStage.sample = some S
      ∧ SystemStage.statuses S = ([.building], [.running], [.accepted])
      ∧ Moment.AgreesExternally S.shared := by
  obtain ⟨S, hS, hp⟩ := exists_of_play (p := fun S =>
    SystemStage.statuses S = ([.building], [.running], [.accepted]))
    (show (Concurrency.play (machine True) (Script.accepted True) SystemStage.sample).any _
      = true by decide +kernel)
  exact ⟨S, hS, of_decide_eq_true hp,
    (reachable_agreesExternally (.of_play SystemStage.sample_initial hS)).1⟩

/-! ## No duplicate work -/

namespace Moment

/-- No two executions of one job run at a time, and no two succeed. -/
structure NoDuplicateWork (g : Moment) : Prop where
  running : ∀ jobId, ∀ a ∈ g.db.attemptsOf jobId, ∀ b ∈ g.db.attemptsOf jobId,
    g.world.executor a.identity = .running → g.world.executor b.identity = .running → a = b
  succeeded : ∀ jobId, ∀ a ∈ g.db.attemptsOf jobId, ∀ b ∈ g.db.attemptsOf jobId,
    g.world.executor a.identity = .succeeded → g.world.executor b.identity = .succeeded → a = b

end Moment

/-- The execution of a dead attempt is over without success. -/
theorem Invariant.of_dead {g : Moment} (h : Invariant True g) {jobId : Uuid}
    {a : ExecutionAttempt} (ha : a ∈ g.db.attemptsOf jobId) (hd : a.status.isDead = true) :
    g.world.executor a.identity = .failed ∨ g.world.executor a.identity = .rejected := by
  have := h.agrees trivial _ a (Store.mem_attemptsOf.mp ha).1
  cases hs : a.status <;> rw [hs] at hd this
  case failed => exact .inl this
  case dispatchFailed => exact .inr this
  all_goals cases hd

theorem Invariant.history {g : Moment} {honours : Prop} (h : Invariant honours g) {jobId : Uuid}
    {a : ExecutionAttempt} (ha : a ∈ g.db.attemptsOf jobId) :
    ∃ j, g.db.calculationJobs.get? jobId = some j
      ∧ History (g.db.attemptsOf jobId) j.status := by
  obtain ⟨hget, rfl⟩ := Store.mem_attemptsOf.mp ha
  obtain ⟨j, hj, hh, -⟩ := h.consistent.jobOf hget
  exact ⟨j, hj, hh⟩

theorem Invariant.noDuplicateWork {g : Moment} (h : Invariant True g) : g.NoDuplicateWork := by
  have hlive : ∀ jobId, ∀ a ∈ g.db.attemptsOf jobId,
      g.world.executor a.identity = .running ∨ g.world.executor a.identity = .succeeded →
      a.status.isDead = false := by
    intro jobId a ha hx
    cases hd : a.status.isDead with
    | false => rfl
    | true => rcases h.of_dead ha hd with hd | hd <;> rw [hd] at hx <;> simp at hx
  refine ⟨fun jobId a ha b hb hxa hxb => ?_, fun jobId a ha b hb hxa hxb => ?_⟩
  · obtain ⟨j, -, hh⟩ := h.history ha
    exact hh.eq_of_not_dead ha hb (hlive jobId a ha (.inl hxa)) (hlive jobId b hb (.inl hxb))
  · obtain ⟨j, -, hh⟩ := h.history ha
    exact hh.eq_of_not_dead ha hb (hlive jobId a ha (.inr hxa)) (hlive jobId b hb (.inr hxb))

/-- A job that has succeeded gets no more attempts. -/
theorem attemptsOf_succeeded {s s' : Store} (h : s.Consistent) (h' : s'.Consistent)
    (hg : s.Grows s') {id : Uuid} {j : CalculationJob}
    (hj : s.calculationJobs.get? id = some j) (hs : j.status = .succeeded) :
    (s'.attemptsOf id).map (·.id) = (s.attemptsOf id).map (·.id) := by
  have hh := h.history id j hj
  obtain ⟨a, ha, has⟩ := hh.succeeded_iff.mp hs
  obtain ⟨init, hinit⟩ := hh.eq_append_of_not_dead ha (by rw [has]; rfl)
  obtain ⟨hget, hjob⟩ := Store.mem_attemptsOf.mp ha
  obtain ⟨a', ha', hsteps⟩ := hg.attempt hget
  -- The attempt that succeeded is still the last one.
  obtain rfl := attempt_over hsteps (by rw [has]; rfl)
  obtain ⟨j', hj', -⟩ := hg.job hj
  have hmem' : a' ∈ s'.attemptsOf id := Store.mem_attemptsOf.mpr ⟨ha', hjob⟩
  have hh' := h'.history id j' hj'
  obtain ⟨init', hinit'⟩ := hh'.eq_append_of_not_dead hmem' (by rw [has]; rfl)
  rw [hinit] at hh
  rw [hinit'] at hh'
  have hlength : (s.attemptsOf id).length = (s'.attemptsOf id).length := by
    rw [hinit, hinit', List.length_append, List.length_append, List.length_singleton]
    exact hh.last_number.symm.trans hh'.last_number
  refine (List.IsPrefix.eq_of_length (hg.attemptsOf id) ?_).symm
  rw [List.length_map, List.length_map, hlength]

/-- An execution of a job that has succeeded was there when it had. -/
theorem Reachable.no_new_execution (h : Reachable True st) (hr : (machine True).Run st st')
    {id : Uuid} {j : CalculationJob} (hj : st.shared.db.calculationJobs.get? id = some j)
    (hs : j.status = .succeeded) {a : ExecutionAttempt}
    (ha : a ∈ st'.shared.db.attemptsOf id)
    (hx : (st'.shared.world.executor a.identity).runExists = true) :
    (st.shared.world.executor a.identity).runExists = true := by
  have hg := h.grows hr
  have hids := attemptsOf_succeeded h.consistent (h.run hr).consistent hg.db hj hs
  have hid : a.id ∈ (st.shared.db.attemptsOf id).map (·.id) := by
    rw [← hids]
    exact List.mem_map_of_mem ha
  obtain ⟨a₀, ha₀, hid₀⟩ := List.mem_map.mp hid
  obtain ⟨hget, -⟩ := Store.mem_attemptsOf.mp ha₀
  have hh := h.consistent.history id j hj
  obtain ⟨a₁, ha₁, hs₁⟩ := hh.succeeded_iff.mp hs
  -- Every attempt of the job is over, and so is its execution.
  have hover : a₀.status.isActive = false := by
    cases hactive : a₀.status.isActive with
    | false => rfl
    | true =>
        have := hh.eq_of_not_dead ha₀ ha₁ (ExecutionAttemptStatus.not_dead_of_active hactive)
          (by rw [hs₁]; rfl)
        rw [this, hs₁] at hactive
        cases hactive
  obtain ⟨a', ha', hsteps⟩ := hg.db.attempt hget
  obtain rfl := attempt_over hsteps hover
  rw [hid₀, (Store.mem_attemptsOf.mp ha).1] at ha'
  obtain rfl := Option.some.inj ha'
  have hagrees := h.invariant.agrees trivial _ a hget
  cases hstatus : a.status with
  | succeeded =>
      rw [hstatus] at hagrees
      rw [show st.shared.world.executor a.identity = .succeeded from hagrees]; rfl
  | failed =>
      rw [hstatus] at hagrees
      rw [show st.shared.world.executor a.identity = .failed from hagrees]; rfl
  | dispatchFailed =>
      rw [h.rejected_later hr hget hstatus] at hx
      cases hx
  | _ => rw [hstatus] at hover; cases hover

/-- **No duplicate external work**: in every reachable state a job has at most one running and
at most one successful execution, and once it has succeeded it never gets another. -/
theorem reachable_noDuplicateWork (h : Reachable True st) :
    Moment.NoDuplicateWork st.shared ∧ ∀ st', (machine True).Run st st' → ∀ id j,
      st.shared.db.calculationJobs.get? id = some j → j.status = .succeeded →
      ∀ a ∈ st'.shared.db.attemptsOf id,
        (st'.shared.world.executor a.identity).runExists = true →
        (st.shared.world.executor a.identity).runExists = true :=
  ⟨h.invariant.noDuplicateWork, fun _ hr _ _ hj hs _ ha hx => h.no_new_execution hr hj hs ha hx⟩

theorem reachable_noDuplicateWork_retried : ∃ S, Concurrency.play (machine True)
    (Script.retried True) SystemStage.sample = some S
      ∧ SystemStage.statuses S = ([.published, .draft], [.succeeded, .pending],
          [.failed, .succeeded])
      ∧ Moment.NoDuplicateWork S.shared := by
  obtain ⟨S, hS, hp⟩ := exists_of_play (p := fun S => SystemStage.statuses S
      = ([.published, .draft], [.succeeded, .pending], [.failed, .succeeded]))
    (show (Concurrency.play (machine True) (Script.retried True) SystemStage.sample).any _
      = true by decide +kernel)
  exact ⟨S, hS, of_decide_eq_true hp,
    (reachable_noDuplicateWork (.of_play SystemStage.sample_initial hS)).1⟩

end CostEngine
