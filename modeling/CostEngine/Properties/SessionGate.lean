import Mathlib.Data.Nat.Find
import CostEngine.Demo.GateSteps

/-! # The gate of a session is a FIFO reader/writer gate -/

namespace CostEngine

open Relational (Table)

namespace Coordinator

variable {c c' c₀ : Coordinator} {s : String} {n m : Nat} {o o' : Operation}

/-- A run of the gate, from `c` on. -/
def runs : List GateEvent → Coordinator → Option Coordinator
  | [], c => some c
  | event :: events, c => (c.step event).bind (runs events)

/-! ## What is claimed of the gate -/

/-- `finally` of operation `n` gives back the slot of `n` and nothing else. -/
structure Frees (c : Coordinator) (n : Nat) (o : Operation) (c' : Coordinator) : Prop where
  operations : c'.operations = c.operations.set n { o with phase := .released }
  own : c'.admittedTo o.session.sessionId + 1 = c.admittedTo o.session.sessionId
  parallel : c'.parallelIn o.session.sessionId + (if o.parallel then 1 else 0)
    = c.parallelIn o.session.sessionId
  others : ∀ s, s ≠ o.session.sessionId → c'.admittedTo s = c.admittedTo s
    ∧ c'.parallelIn s = c.parallelIn s ∧ c'.queues.get? s = c.queues.get? s
  resets : c'.resets = c.resets

structure FifoGate (c : Coordinator) : Prop where
  /-- The body of an exclusive operation runs alone. -/
  alone : ∀ (n m : Nat) (o o' : Operation), n ≠ m → c.operations[n]? = some o →
    c.operations[m]? = some o' → o.session.sessionId = o'.session.sessionId →
    o.phase = .running → o'.phase = .running → o.parallel = true ∧ o'.parallel = true
  /-- Around an exclusive operation, the later one has not started before the earlier one is
  over. -/
  ordered : ∀ (n m : Nat) (o o' : Operation), n < m → c.operations[n]? = some o →
    c.operations[m]? = some o' → o.session.sessionId = o'.session.sessionId →
    o.parallel = false ∨ o'.parallel = false → o'.phase ≠ .waiting → o.admitted = false
  parallel_bound : ∀ s, c.parallelIn s ≤ 4
  operations_bound : ∀ s, c.admittedTo s ≤ c.maxOperations
  sessions_bound : c.activeSessionCount + c.resets.rows.length ≤ c.maxSessions
  reserved : ∀ s, c.resets.get? s ≠ none → c.admittedTo s = 0
    ∧ ∀ trusted session, session.sessionId = s →
      (c.run trusted session).toOption = none ∧ (c.runParallel trusted session).toOption = none
  occupied : ∀ s, c.admittedTo s ≠ 0 → (c.reserveCleanup s).toOption = none
    ∧ ∀ trusted session, session.sessionId = s → (c.tryBeginReset trusted session).toOption = none
  /-- However the revalidation and the body have ended. -/
  frees : ∀ (n : Nat) (o : Operation), c.operations[n]? = some o → o.phase = .settled →
    ∃ c', c.release n = some c' ∧ c.Frees n o c'
  acyclic : ∀ (n : Nat) (o : Operation), c.operations[n]? = some o → ∀ k ∈ o.awaits, k < n
  /-- While an operation is not over, one of them can go on. -/
  progress : (∃ o ∈ c.operations, o.phase ≠ .completed) → ∃ n, (c.start n).isSome
    ∨ (∀ valid, (c.revalidated n valid).isSome) ∨ (c.bodySettled n).isSome
    ∨ (c.release n).isSome ∨ (c.complete n).isSome
  entry : ∀ s, c.queues.get? s ≠ none ↔ c.admittedTo s ≠ 0

/-! ## What the invariant gives -/

theorem Ok.entry (h : c.Ok) : c.queues.get? s ≠ none ↔ c.admittedTo s ≠ 0 := by
  refine ⟨fun hs => ?_, fun hs hnone => hs (h.vacant hnone)⟩
  obtain ⟨e, he⟩ := Option.ne_none_iff_exists'.mp hs
  exact h.occupied s e he

theorem Ok.alone (h : c.Ok) (hlt : n < m) (hn : c.operations[n]? = some o)
    (hm : c.operations[m]? = some o') (hs : o.session.sessionId = o'.session.sessionId)
    (hrun : o.phase = .running) (hrun' : o'.phase = .running) :
    o.parallel = true ∧ o'.parallel = true := by
  by_contra hnot
  have hex : o.parallel = false ∨ o'.parallel = false := by
    cases hp : o.parallel <;> cases hp' : o'.parallel <;> simp_all
  have hover := h.ordered.before hlt hn hm hs hex (by rw [hrun']; decide)
  simp [Operation.admitted, hrun] at hover

/-- A session that is reserved admits nothing. -/
theorem admit_reserved {trusted parallel : Bool} {session : AuthenticatedDemoSession}
    (hs : c.resets.get? session.sessionId ≠ none) :
    ∀ r, c.admitOperation trusted session parallel ≠ .ok r := by
  rintro ⟨q, c'⟩ h
  exact hs (admit_ok h).1

theorem toOption_eq_none {ε α : Type} {r : Except ε α} (h : ∀ a, r ≠ .ok a) : r.toOption = none := by
  cases r with
  | error e => rfl
  | ok a => exact absurd rfl (h a)

theorem reserveCleanup_occupied (h : c.queues.get? s ≠ none) :
    ∀ r, c.reserveCleanup s ≠ .ok r := by
  rintro ⟨n, c'⟩ hr
  exact h (reserveCleanup_ok hr).2.1

theorem frees_of_settled (ho : c.operations[n]? = some o) (hphase : o.phase = .settled) :
    ∃ c', c.release n = some c' ∧ c.Frees n o c' := by
  obtain ⟨c', hc'⟩ : ∃ c', c.release n = some c' := by
    unfold Coordinator.release
    rw [ho]
    exact ⟨_, if_pos hphase⟩
  obtain ⟨o₁, hr⟩ := release_spec hc'
  obtain rfl := Option.some.inj (ho.symm.trans hr.operation)
  have hx := slot_getElem? ho
  have hheld := hr.held
  have hfree : ∀ s, o.slot.free.heldIn s = false := fun s => by simp [Slot.heldIn, Slot.free]
  have hfree' : ∀ s, o.slot.free.parallelIn s = false := fun s => by simp [Slot.parallelIn, hfree s]
  refine ⟨c', hc', ?_, ?_, ?_, fun s hs => ?_, hr.resets⟩
  · exact hr.operations.trans (operations_setPhase ho _)
  · have hpos := countP_pos_of_getElem? (p := (·.heldIn o.session.sessionId)) hx hheld
    rw [admittedTo, hr.slots, countP_set_free hx (hfree _), hheld, if_pos rfl, admittedTo]
    omega
  · have hpar : o.slot.parallelIn o.session.sessionId = o.parallel := by
      rw [Slot.parallelIn, hheld]
      simp [Operation.slot]
    rw [parallelIn, hr.slots, countP_set_free hx (hfree' _), hpar, parallelIn]
    cases hp : o.parallel with
    | false => rfl
    | true =>
        have hpos := countP_pos_of_getElem? (p := (·.parallelIn o.session.sessionId)) hx
          (hpar.trans hp)
        simp only [if_true]
        omega
  · have hnot : o.slot.heldIn s = false := by simp [Slot.heldIn, Operation.slot, hs.symm]
    have hnot' : o.slot.parallelIn s = false := by simp [Slot.parallelIn, hnot]
    refine ⟨?_, ?_, ?_⟩
    · rw [admittedTo, hr.slots, countP_set_free hx (hfree s), hnot]
      rfl
    · rw [parallelIn, hr.slots, countP_set_free hx (hfree' s), hnot']
      rfl
    · exact Option.ext fun e => hr.get?_queues.trans ⟨And.left, fun h => ⟨h, fun h' => absurd h' hs⟩⟩

/-! ## Progress -/

/-- The earliest operation that is not over waits for none that is not. -/
theorem Ok.progress (h : c.Ok) (hopen : ∃ o ∈ c.operations, o.phase ≠ .completed) :
    ∃ n, (c.start n).isSome ∨ (∀ valid, (c.revalidated n valid).isSome)
      ∨ (c.bodySettled n).isSome ∨ (c.release n).isSome ∨ (c.complete n).isSome := by
  have hopen : ∃ (n : Nat) (o : Operation), c.operations[n]? = some o ∧ o.phase ≠ .completed := by
    obtain ⟨o, ho, hphase⟩ := hopen
    obtain ⟨n, hn⟩ := List.mem_iff_getElem?.mp ho
    exact ⟨n, o, hn, hphase⟩
  classical
  obtain ⟨o, hn, hphase⟩ := Nat.find_spec hopen
  have hleast : ∀ k < Nat.find hopen, ∀ x, c.operations[k]? = some x → x.phase = .completed := by
    intro k hk x hx
    by_contra hx'
    exact Nat.find_min hopen hk ⟨x, hx, hx'⟩
  have his : ∀ {p}, o.phase = p → c.phaseIs (Nat.find hopen) p = true :=
    fun hp => phaseIs_iff.mpr ⟨o, hn, hp⟩
  refine ⟨Nat.find hopen, ?_⟩
  cases hp : o.phase with
  | waiting =>
      left
      have hdone : o.awaits.all (c.phaseIs · .completed) = true := by
        refine List.all_eq_true.mpr fun k hk => ?_
        have hlt := h.ordered.earlier _ o hn k hk
        have hlen := (List.getElem?_eq_some_iff.mp hn).1
        have hget := List.getElem?_eq_getElem (Nat.lt_trans hlt hlen)
        exact phaseIs_iff.mpr ⟨_, hget, hleast k hlt _ hget⟩
      simp [Coordinator.start, hn, hp, hdone]
  | revalidating => exact .inr (.inl fun valid => by simp [Coordinator.revalidated, his hp])
  | running => exact .inr (.inr (.inl (by simp [Coordinator.bodySettled, his hp])))
  | settled => exact .inr (.inr (.inr (.inl (by simp [Coordinator.release, hn, hp]))))
  | released => exact .inr (.inr (.inr (.inr (by simp [Coordinator.complete, his hp]))))
  | completed => exact absurd hp hphase

/-! ## The property -/

theorem Ok.fifoGate (h : c.Ok) : c.FifoGate where
  alone n m o o' hne hn hm hs hrun hrun' := by
    rcases Nat.lt_or_gt_of_ne hne with hlt | hlt
    · exact h.alone hlt hn hm hs hrun hrun'
    · exact (h.alone hlt hm hn hs.symm hrun' hrun).symm
  ordered n m o o' hlt hn hm hs hex hstarted := h.ordered.before hlt hn hm hs hex hstarted
  parallel_bound s := (h.bounds s).2
  operations_bound s := (h.bounds s).1
  sessions_bound := h.sessions
  reserved s hs := by
    refine ⟨h.vacant (h.reserved s hs), fun trusted session hsession => ⟨?_, ?_⟩⟩
    · refine toOption_eq_none fun ⟨n, c'⟩ hrun => ?_
      obtain ⟨q, c₁, hadmit, -⟩ := run_ok hrun
      exact admit_reserved (hsession ▸ hs) _ hadmit
    · refine toOption_eq_none fun ⟨n, c'⟩ hrun => ?_
      obtain ⟨q, c₁, hadmit, -⟩ := runParallel_ok hrun
      exact admit_reserved (hsession ▸ hs) _ hadmit
  occupied s hs := by
    have hqueue := h.entry.mpr hs
    refine ⟨toOption_eq_none (reserveCleanup_occupied hqueue), fun trusted session hsession => ?_⟩
    refine toOption_eq_none fun ⟨n, c'⟩ hreset => ?_
    exact reserveCleanup_occupied (hsession ▸ hqueue) _ (tryBeginReset_ok hreset)
  frees n o ho hphase := frees_of_settled ho hphase
  acyclic n o ho k hk := h.ordered.earlier n o ho k hk
  progress hopen := h.progress hopen
  entry s := h.entry

theorem Ok.runs (h : c.Ok) {events : List GateEvent} (hruns : runs events c = some c') : c'.Ok := by
  induction events generalizing c with
  | nil =>
      cases hruns
      exact h
  | cons event events ih =>
      obtain ⟨c₁, hstep, hrest⟩ := Option.bind_eq_some_iff.mp hruns
      exact ih (h.step hstep) hrest

/-- The gate keeps its order and its bounds through every sequence of calls, whichever
operations fail, and none of them is blocked for good. -/
theorem session_gate {maxOperations maxSessions : Nat} {events : List GateEvent}
    (h₀ : new maxOperations maxSessions = .ok c₀) (hruns : runs events c₀ = some c) :
    c.FifoGate :=
  ((new_ok h₀).runs hruns).fifoGate

/-! ## A sample -/

/-- An exclusive operation waits behind two parallel ones, of which one fails its
revalidation; a fourth operation waits for it, and another session is reset. -/
def sampleEvents : List GateEvent :=
  [.runParallel true ⟨"a", "A"⟩, .runParallel true ⟨"a", "A"⟩, .run true ⟨"a", "A"⟩,
    .runParallel true ⟨"a", "A"⟩, .reserveCleanup "b", .start 0, .start 1, .revalidated 0 true,
    .revalidated 1 false, .release 1, .complete 1, .bodySettled 0, .release 0, .complete 0,
    .start 2, .revalidated 2 true]

theorem session_gate_queued : ∃ c₀ c, new 32 1024 = .ok c₀ ∧ runs sampleEvents c₀ = some c
    ∧ c.admittedTo "a" = 2 ∧ c.phaseIs 2 .running = true ∧ c.phaseIs 3 .waiting = true
    ∧ c.FifoGate := by
  obtain ⟨c₀, h₀⟩ : ∃ c₀, new 32 1024 = .ok c₀ := ⟨_, rfl⟩
  have hany : ((new 32 1024).toOption.bind (runs sampleEvents)).any (fun c => c.admittedTo "a" = 2
      ∧ c.phaseIs 2 .running = true ∧ c.phaseIs 3 .waiting = true) = true := by decide +kernel
  have hopened : (new 32 1024).toOption = some c₀ := congrArg Except.toOption h₀
  rw [hopened, Option.bind_some] at hany
  obtain ⟨c, hc, hp⟩ := (Option.any_eq_true _ _).mp hany
  rw [decide_eq_true_eq] at hp
  exact ⟨c₀, c, h₀, hc, hp.1, hp.2.1, hp.2.2, session_gate h₀ hc⟩

end Coordinator

end CostEngine
