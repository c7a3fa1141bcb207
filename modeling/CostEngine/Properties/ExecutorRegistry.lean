import CostEngine.Demo.RuntimeChanges
import CostEngine.Properties.FakeExecutor

/-! # An admitted operation keeps its executor -/

namespace CostEngine

open Relational (Table)

/-- A run, once created, stays known to the executor. -/
theorem FakeExecutor.known_call {F : FakeExecutor} {key : String}
    (hknown : F.externalExecutions.get? key ≠ none) (call : FakeCall) :
    (F.call call).externalExecutions.get? key ≠ none := by
  have hstate : ∀ e state, (F.withState e state).externalExecutions.get? key ≠ none :=
    fun e state => Table.get?_put_eq_none.not.mpr hknown
  obtain ⟨e, he⟩ := Option.ne_none_iff_exists'.mp hknown
  cases call with
  | dispatch command => exact Table.row_ne_none ((F.decides command none).run_kept he)
  | dispatchWithSimulation command simulation =>
      exact Table.row_ne_none ((F.decides command (some simulation)).run_kept he)
  | finish n =>
      show (F.finish n).externalExecutions.get? key ≠ none
      unfold FakeExecutor.finish
      split
      · exact hknown
      · split
        · exact hknown
        · exact hknown
  | setExecutionState identity state =>
      show (F.setExecutionState identity state).2.externalExecutions.get? key ≠ none
      unfold setExecutionState
      split
      · exact hknown
      · exact hstate _ state
  | setExecutionStateByDagRunId airflowDagRunId state =>
      show (F.setExecutionStateByDagRunId airflowDagRunId state).2.externalExecutions.get? key ≠ none
      unfold setExecutionStateByDagRunId
      split
      · exact hstate _ state
      · exact hknown
  | getExecutionStatus identity =>
      show (F.getExecutionStatus identity).2.externalExecutions.get? key ≠ none
      unfold getExecutionStatus
      dsimp only
      repeat' split
      all_goals exact hknown
  | _ => exact hknown

namespace DemoRuntime

variable {S S₀ S' : DemoRuntime} {n m x y : Nat} {id id' key : String} {event : DemoEvent}
  {events : List DemoEvent} {o o' : Operation}

/-! ## The executor of an operation -/

/-- The executor of an admitted operation is the one that is registered for its session. -/
def Holds (S : DemoRuntime) (n : Nat) (o : Operation) (x : Nat) : Prop :=
  S.coordinator.operations[n]? = some o ∧ o.admitted = true ∧ (S.bodies n).executor = some x

structure KeepsExecutors (S : DemoRuntime) : Prop where
  capacity : S.registry.instances.rows.length ≤ S.registry.capacity
  /-- Not even one after the other. -/
  distinct : ∀ events S', runs events S = some S' → ∀ id id' x,
    S.registry.executor? id = some x → S'.registry.executor? id' = some x → id = id'
  registered : ∀ n o x, S.Holds n o x → S.registry.executor? o.session.sessionId = some x
  /-- Operations of a session, now or later, work with the same executor. -/
  same : ∀ events S', runs events S = some S' → ∀ n m o o' x y, S.Holds n o x → S'.Holds m o' y →
    o.session.sessionId = o'.session.sessionId → x = y
  kept : ∀ events S', runs events S = some S' → ∀ id x, S.registry.executor? id = some x →
    S'.registry.executor? id = some x ∨ S'.durable id
  /-- A release finds the session durably reset, and no operation of it waiting, revalidating or
  running. -/
  released : ∀ event S', S.step event = some S' → ∀ id x, S.registry.executor? id = some x →
    S'.registry.executor? id ≠ some x → S'.durable id
      ∧ ∀ (n : Nat) (o : Operation), S.coordinator.operations[n]? = some o →
        o.session.sessionId = id → o.admitted = false
  /-- The runs that an executor knows are not lost. -/
  known : ∀ events S', runs events S = some S' → ∀ x key,
    (S.fakes x).externalExecutions.get? key ≠ none → (S'.fakes x).externalExecutions.get? key ≠ none

namespace Invariant

/-! ## What the invariant gives -/

theorem working (h : S.Invariant) (hn : S.Holds n o x) :
    S.registry.executor? o.session.sessionId = some x ∧ ¬ S.revokedIn o.session.sessionId := by
  obtain ⟨ho, hadmitted, hx⟩ := hn
  have hlive := h.live n o ho (.inr (.inr ⟨hadmitted, Table.row_ne_none hx⟩))
  exact ⟨(h.executors n o x ho hx).resolve_right hlive, hlive⟩

theorem kept (h : S.Invariant) (hruns : DemoRuntime.runs events S = some S')
    (hx : S.registry.executor? id = some x) :
    S'.registry.executor? id = some x ∨ S'.durable id := by
  induction events generalizing S with
  | nil =>
      cases hruns
      exact .inl hx
  | cons event events ih =>
      obtain ⟨S₁, hstep, hrest⟩ := Option.bind_eq_some_iff.mp hruns
      by_cases hx₁ : S₁.registry.executor? id = some x
      · exact ih (h.step hstep) hrest hx₁
      · exact .inr ((h.step hstep).durable_runs hrest (h.released hstep hx hx₁).1)

/-! ## The executor of a session -/

/-- Whoever has executor `x`, it is `id`. -/
def Reserved (S : DemoRuntime) (x : Nat) (id : String) : Prop :=
  x ∈ S.registry.assigned ∧ ∀ id', S.registry.executor? id' = some x → id' = id

theorem reserved_of_executor (h : S.Invariant) (hx : S.registry.executor? id = some x) :
    Reserved S x id := by
  obtain ⟨e, he, rfl⟩ := Option.map_eq_some_iff.mp hx
  refine ⟨h.assigned id e he, fun id' hx' => ?_⟩
  obtain ⟨e', he', hsame⟩ := Option.map_eq_some_iff.mp hx'
  exact h.distinct id' id e' e he' he hsame

theorem reserved_step (h : S.Invariant) (hstep : S.step event = some S') (hx : Reserved S x id) :
    Reserved S' x id := by
  obtain ⟨hassigned, honly⟩ := hx
  -- A release takes nothing but executors away.
  have hrelease : ∀ {s : String} {committed : Bool},
      S'.registry = (if committed then S.registry.releaseSession s else S.registry) →
      Reserved S' x id := by
    intro s committed hregistry
    unfold Reserved
    rw [hregistry]
    cases committed with
    | false => exact ⟨hassigned, honly⟩
    | true =>
        refine ⟨hassigned, fun id' hx' => honly id' ?_⟩
        rw [if_pos rfl, executor?_releaseSession] at hx'
        split at hx'
        · cases hx'
        · exact hx'
  cases h.change hstep with
  | quiet _ hregistry => exact ⟨hregistry ▸ hassigned, hregistry ▸ honly⟩
  | registers n o created y _ hbody hok =>
      rcases forSession_ok hok with ⟨hsame, -⟩ | ⟨rfl, hnone, -, hnew, hregistry⟩
      · exact ⟨hsame ▸ hassigned, hsame ▸ honly⟩
      · unfold Reserved
        rw [hregistry]
        refine ⟨List.mem_cons_of_mem _ hassigned, fun id' hx' => ?_⟩
        rw [executor?_insert hnone] at hx'
        split at hx'
        · obtain rfl := Option.some.inj hx'
          exact absurd hassigned hnew
        · exact honly id' hx'
  | reserves _ _ hregistry => exact ⟨hregistry ▸ hassigned, hregistry ▸ honly⟩
  | parks _ _ _ hregistry => exact ⟨hregistry ▸ hassigned, hregistry ▸ honly⟩
  | finishes i cl committed hfinishes => exact hrelease hfinishes.registry
  | misses i cl committed hmisses => exact hrelease hmisses.registry

theorem reserved_runs (h : S.Invariant) (hruns : DemoRuntime.runs events S = some S')
    (hx : Reserved S x id) : Reserved S' x id := by
  induction events generalizing S with
  | nil =>
      cases hruns
      exact hx
  | cons event events ih =>
      obtain ⟨S₁, hstep, hrest⟩ := Option.bind_eq_some_iff.mp hruns
      exact ih (h.step hstep) hrest (h.reserved_step hstep hx)

end Invariant

/-! ## Known runs -/

theorem known_step (hstep : S.step event = some S')
    (hknown : (S.fakes x).externalExecutions.get? key ≠ none) :
    (S'.fakes x).externalExecutions.get? key ≠ none := by
  rcases sameWorld hstep with ⟨-, -, hfakes⟩ | ⟨id', company, rfl⟩ | ⟨n, w, rfl⟩ | ⟨n, call, rfl⟩
    | ⟨i, rfl⟩
  · rwa [hfakes]
  · have hstep : S.create id' company = some S' := hstep
    unfold DemoRuntime.create at hstep
    split at hstep
    · cases hstep
      exact hknown
    · cases hstep
  · obtain ⟨o, -, rfl⟩ := Option.map_eq_some_iff.mp hstep
    exact hknown
  · obtain ⟨o, -, hstep⟩ := Option.bind_eq_some_iff.mp hstep
    obtain ⟨y, -, rfl⟩ := Option.map_eq_some_iff.mp hstep
    show (Function.update S.fakes y ((S.fakes y).call call) x).externalExecutions.get? key ≠ none
    by_cases hx : x = y
    · rw [hx, Function.update_self]
      exact FakeExecutor.known_call (hx ▸ hknown) call
    · rwa [Function.update_of_ne hx]
  · have hstep : S.commit i = some S' := hstep
    unfold DemoRuntime.commit at hstep
    split at hstep
    · cases hstep
    · split at hstep
      · cases hstep
      · split at hstep
        · cases hstep
          exact hknown
        · cases hstep

theorem known_runs (hruns : runs events S = some S')
    (hknown : (S.fakes x).externalExecutions.get? key ≠ none) :
    (S'.fakes x).externalExecutions.get? key ≠ none := by
  induction events generalizing S with
  | nil =>
      cases hruns
      exact hknown
  | cons event events ih =>
      obtain ⟨S₁, hstep, hrest⟩ := Option.bind_eq_some_iff.mp hruns
      exact ih hrest (known_step hstep hknown)

/-! ## The property -/

theorem Invariant.keepsExecutors (h : S.Invariant) : S.KeepsExecutors where
  capacity := h.capacity
  distinct events S' hruns id id' x hx hx' :=
    ((h.reserved_runs hruns (h.reserved_of_executor hx)).2 id' hx').symm
  registered n o x hn := (h.working hn).1
  same events S' hruns n m o o' x y hn hm hs := by
    obtain ⟨hy, hlive⟩ := (h.runs hruns).working hm
    rcases h.kept hruns (h.working hn).1 with hx | hdurable
    · rw [hs, hy] at hx
      exact (Option.some.inj hx).symm
    · exact absurd (hs ▸ revokedIn_of_durable hdurable) hlive
  kept events S' hruns id x hx := h.kept hruns hx
  released event S' hstep id x hx hx' :=
    ⟨(h.released hstep hx hx').1, (h.released hstep hx hx').2.2⟩
  known events S' hruns x key hknown := known_runs hruns hknown

/-- Between admission and completion no operation loses its executor, whatever is reset, cleaned
up or recovered at the same time. -/
theorem executors_kept (h₀ : S₀.Starts) (hruns : runs events S₀ = some S) : S.KeepsExecutors :=
  (h₀.runs hruns).keepsExecutors

/-- A session with an operation that has its executor, while another session is reset. -/
def sampleOperations : List DemoEvent :=
  [.authenticate "a", .authenticate "b", .run ⟨"a", "A"⟩, .startOperation 0, .revalidate 0 false,
    .revalidated 0, .lookup 0 false, .forSession 0 7, .reset ⟨"b", "B"⟩, .advance 0]

theorem executors_kept_sample : ∃ S, runs sampleOperations sampleStart = some S
    ∧ S.registry.executor? "a" = some 7 ∧ S.KeepsExecutors := by
  have hany : (runs sampleOperations sampleStart).any
      (fun S => S.registry.executor? "a" = some 7) = true := by decide +kernel
  obtain ⟨S, hS, hp⟩ := (Option.any_eq_true _ _).mp hany
  rw [decide_eq_true_eq] at hp
  exact ⟨S, hS, hp, executors_kept sampleStart_starts hS⟩

end DemoRuntime

end CostEngine
