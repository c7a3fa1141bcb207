import CostEngine.Demo.Gate

/-! # The gate keeps its order and its bounds -/

namespace CostEngine

open Relational (Table)

namespace Coordinator

variable {c c' : Coordinator} {s : String} {n m q : Nat} {o o' : Operation} {x : Slot}

/-! ## The invariant -/

/-- What holds of the gate between any two of its steps. -/
structure Sound (c : Coordinator) : Prop where
  positive : 0 < c.maxOperations
  ordered : Ordered c.operations
  fits : ∀ s e, c.queues.get? s = some e →
    e.ref < c.queueObjects.length ∧ (c.queueObject e.ref).Fits c.slots s
  distinct : ∀ s s' e e', c.queues.get? s = some e → c.queues.get? s' = some e' →
    e.ref = e'.ref → s = s'
  slot : ∀ (n : Nat) (x : Slot), c.slots[n]? = some x → x.held = true →
    ∃ e, c.queues.get? x.sessionId = some e ∧ e.ref = x.queue
  bounds : ∀ s, c.admittedTo s ≤ c.maxOperations ∧ c.parallelIn s ≤ 4
  sessions : c.queues.rows.length + c.resets.rows.length ≤ c.maxSessions
  reserved : ∀ s, c.resets.get? s ≠ none → c.queues.get? s = none
  reservation : ∀ s e, c.resets.get? s = some e → ∃ r, c.reservations[e.ref]? = some r
    ∧ r.sessionId = s

/-- A queue is there only while there is an operation in it. -/
structure Ok (c : Coordinator) : Prop extends c.Sound where
  occupied : ∀ s e, c.queues.get? s = some e → c.admittedTo s ≠ 0

/-! ### Between steps -/

theorem Sound.vacant (h : c.Sound) (hs : c.queues.get? s = none) : c.admittedTo s = 0 := by
  refine List.countP_eq_zero.mpr fun x hx hheld => ?_
  obtain ⟨n, hn⟩ := List.mem_iff_getElem?.mp hx
  simp only [Slot.heldIn, Bool.decide_and, Bool.decide_eq_true, Bool.and_eq_true,
    -- A held slot would have its queue in the map.
    decide_eq_true_eq] at hheld
  obtain ⟨e, he, -⟩ := h.slot n x hn hheld.1
  rw [hheld.2, hs] at he
  cases he

theorem new_ok {maxOperations maxSessions : Nat} {c : Coordinator}
    (h : new maxOperations maxSessions = .ok c) : c.Ok := by
  unfold new at h
  split at h
  · rename_i hpos
    cases h
    refine ⟨⟨hpos.1, ⟨?_, ?_, ?_⟩, ?_, ?_, ?_, ?_, ?_, ?_, ?_⟩, ?_⟩
    all_goals simp [slots, admittedTo, parallelIn]
  · cases h

theorem slot_getElem? (ho : c.operations[n]? = some o) : c.slots[n]? = some o.slot := by
  rw [slots, List.getElem?_map, ho]
  rfl

/-! ## Phases -/

theorem operations_setPhase (ho : c.operations[n]? = some o) (p : OperationPhase) :
    (c.setPhase n p).operations = c.operations.set n { o with phase := p } := by
  obtain ⟨hn, hget⟩ := List.getElem?_eq_some_iff.mp ho
  show c.operations.modify n _ = _
  rw [List.modify_eq_set_getElem?, ho]
  rfl

theorem slots_setPhase (ho : c.operations[n]? = some o) (p : OperationPhase) :
    (c.setPhase n p).slots = c.slots.set n ({ o with phase := p } : Operation).slot := by
  unfold slots
  rw [operations_setPhase ho, List.map_set]

/-! ### The order under a new phase -/

/-- An operation advances, by a step it may make. -/
theorem Ordered.setPhase (h : Ordered c.operations) (ho : c.operations[n]? = some o)
    {p : OperationPhase} (hwaiting : p ≠ .waiting)
    (hadmitted : ({ o with phase := p } : Operation).admitted = true → o.admitted = true)
    (hcompleted : o.phase ≠ .completed)
    (hawaits : o.phase = .waiting → ∀ k ∈ o.awaits, c.phaseIs k .completed = true) :
    Ordered (c.setPhase n p).operations := by
  rw [operations_setPhase ho]
  obtain ⟨hn, -⟩ := List.getElem?_eq_some_iff.mp ho
  have hget : ∀ k, (c.operations.set n { o with phase := p })[k]?
      = if n = k then some { o with phase := p } else c.operations[k]? := by
    intro k
    rw [List.getElem?_set]
    by_cases hk : n = k
    · subst hk
      simp [hn]
    · simp [hk]
  have hsucc : Succeeds o { o with phase := p } :=
    ⟨rfl, rfl, rfl, rfl, fun h => absurd h hwaiting, hadmitted, fun h => absurd h hcompleted⟩
  -- Only operation `n` differs from before.
  refine h.succeeds (fun k x hx => ?_) (fun k x hx => ?_) fun k x x' hx hx' hphase hphase' j hj => ?_
  · rw [hget]
    split
    · rename_i hk
      subst hk
      obtain rfl := Option.some.inj (ho.symm.trans hx)
      exact ⟨_, rfl, hsucc⟩
    · exact ⟨x, hx, .refl⟩
  · rw [hget] at hx
    split at hx
    · rename_i hk
      subst hk
      cases hx
      exact ⟨o, ho, hsucc⟩
    · -- It starts waiting no more once all it awaits is completed.
      exact ⟨x, hx, .refl⟩
  · rw [hget] at hx'
    split at hx'
    · rename_i hk
      subst hk
      obtain rfl := Option.some.inj (ho.symm.trans hx)
      have hdone := hawaits hphase j hj
      rw [phaseIs, decide_eq_true_eq, Option.map_eq_some_iff] at hdone
      exact hdone
    · obtain rfl := Option.some.inj (hx.symm.trans hx')
      exact absurd hphase hphase'

/-! ### The invariant under a new phase -/

/-- The slots and everything else are as they were. -/
theorem Ok.setPhase (h : c.Ok) (ho : c.operations[n]? = some o) {p : OperationPhase}
    (hwaiting : p ≠ .waiting)
    (hadmitted : ({ o with phase := p } : Operation).admitted = o.admitted)
    (hcompleted : o.phase ≠ .completed)
    (hawaits : o.phase = .waiting → ∀ k ∈ o.awaits, c.phaseIs k .completed = true) :
    (c.setPhase n p).Ok := by
  have hordered := h.ordered.setPhase ho hwaiting (fun h => hadmitted ▸ h) hcompleted hawaits
  have hslots : (c.setPhase n p).slots = c.slots := by
    rw [slots_setPhase ho]
    have hsame : ({ o with phase := p } : Operation).slot = o.slot := by
      unfold Operation.slot
      rw [hadmitted]
    rw [hsame]
    obtain ⟨hn, hget⟩ := List.getElem?_eq_some_iff.mp (slot_getElem? ho)
    rw [← hget, List.set_getElem_self]
  refine ⟨⟨h.positive, hordered, ?_, h.distinct, ?_, ?_, h.sessions, h.reserved, h.reservation⟩, ?_⟩
  · rw [hslots]
    exact h.fits
  · rw [hslots]
    exact h.slot
  · unfold admittedTo parallelIn
    rw [hslots]
    exact h.bounds
  · unfold admittedTo
    rw [hslots]
    exact h.occupied

/-! ## Release -/

/-! ### What `finally` does -/

/-- What `finally` does for operation `n`. -/
structure Releases (c : Coordinator) (n : Nat) (o : Operation) (c' : Coordinator) : Prop where
  operation : c.operations[n]? = some o
  settled : o.phase = .settled
  operations : c'.operations = (c.setPhase n .released).operations
  object : c'.queueObjects = c.queueObjects.set o.queue { c.queueObject o.queue with
    size := (c.queueObject o.queue).size - 1
    parallel := if o.parallel then (c.queueObject o.queue).parallel.erase n
      else (c.queueObject o.queue).parallel }
  queues : c'.queues = if (c.queueObject o.queue).size - 1 = 0
    then c.queues.erase o.session.sessionId else c.queues
  maxOperations : c'.maxOperations = c.maxOperations
  maxSessions : c'.maxSessions = c.maxSessions
  resets : c'.resets = c.resets
  reservations : c'.reservations = c.reservations

theorem release_spec (h : c.release n = some c') : ∃ o, Releases c n o c' := by
  unfold Coordinator.release at h
  split at h
  · cases h
  · rename_i o ho
    split at h
    · rename_i hphase
      refine ⟨o, ?_⟩
      cases h
      split
      · rename_i hzero
        exact ⟨ho, hphase, rfl, rfl, (if_pos hzero).symm, rfl, rfl, rfl, rfl⟩
      · rename_i hzero
        exact ⟨ho, hphase, rfl, rfl, (if_neg hzero).symm, rfl, rfl, rfl, rfl⟩
    · cases h

/-! ### The tables after a release -/

theorem getD_set {l : List Queue} (hq : q < l.length) (queue d : Queue) (k : Nat) :
    (l.set q queue).getD k d = if q = k then queue else l.getD k d := by
  rw [List.getD_eq_getElem?_getD, List.getD_eq_getElem?_getD, List.getElem?_set]
  by_cases hk : q = k
  · subst hk
    simp [hq]
  · simp [hk]

/-- `finally` gives back the slot of the operation, and of no other. -/
theorem Releases.slots (h : Releases c n o c') : c'.slots = c.slots.set n o.slot.free := by
  rw [Coordinator.slots, h.operations]
  exact slots_setPhase h.operation .released

theorem Releases.held (h : Releases c n o c') : o.slot.heldIn o.session.sessionId = true := by
  simp [Slot.heldIn, Operation.slot, Operation.admitted, h.settled]

/-- The entry of the session is erased with its last slot. -/
theorem Releases.get?_queues (h : Releases c n o c') {e : SessionEntry} :
    c'.queues.get? s = some e ↔ c.queues.get? s = some e
      ∧ (s = o.session.sessionId → (c.queueObject o.queue).size - 1 ≠ 0) := by
  rw [h.queues]
  split
  · rename_i hzero
    rw [Table.get?_erase]
    split
    · rename_i hs
      exact ⟨(by simp), fun h => absurd hzero (h.2 hs.symm)⟩
    · rename_i hs
      exact ⟨fun h => ⟨h, fun hs' => absurd hs'.symm hs⟩, And.left⟩
  · rename_i hsize
    exact ⟨fun h => ⟨h, fun _ => hsize⟩, And.left⟩

/-! ### The invariant after a release -/

theorem Ok.release (h : c.Ok) (hr : Releases c n o c') : c'.Ok := by
  have hx := slot_getElem? hr.operation
  have hheld := hr.held
  have hadmitted : o.admitted = true := by simp [Operation.admitted, hr.settled]
  -- The queue object of the operation is the one its session has, so the decrement is of that.
  obtain ⟨e, he, href⟩ : ∃ e, c.queues.get? o.session.sessionId = some e ∧ e.ref = o.queue :=
    h.slot n o.slot hx hadmitted
  obtain ⟨hlt, hfits⟩ := h.fits _ e he
  rw [href] at hlt hfits
  have hreleased := hfits.release hx hheld
  have hfree : ∀ s, o.slot.free.heldIn s = false := fun s => by simp [Slot.heldIn, Slot.free]
  have hcount : c'.admittedTo o.session.sessionId = (c.queueObject o.queue).size - 1 := by
    rw [admittedTo, hr.slots]
    exact hreleased.size.symm
  -- The counts of the other sessions are as they were.
  have hother : ∀ s, s ≠ o.session.sessionId → c'.admittedTo s = c.admittedTo s := by
    intro s hs
    have hnot : o.slot.heldIn s = false := by simp [Slot.heldIn, Operation.slot, hs.symm]
    rw [admittedTo, hr.slots, countP_set_free hx (hfree s), hnot]
    rfl
  refine ⟨⟨hr.maxOperations ▸ h.positive, ?_, fun s e' hs => ⟨?_, ?_⟩, fun s s' e₁ e₂ h₁ h₂ => ?_,
    fun k y hy hyheld => ?_, fun s => ?_, ?_, fun s hs => ?_, ?_⟩, fun s e' hs => ?_⟩
  · rw [hr.operations]
    exact h.ordered.setPhase hr.operation (by decide) (fun _ => hadmitted)
      (by rw [hr.settled]; decide) (fun hw => by rw [hr.settled] at hw; cases hw)
  · rw [hr.object, List.length_set]
    exact (h.fits s e' (hr.get?_queues.mp hs).1).1
  · have hs := (hr.get?_queues.mp hs).1
    -- Its own queue has one slot less. Another queue is another session's.
    rw [queueObject, hr.object, getD_set hlt, hr.slots]
    by_cases hq : o.queue = e'.ref
    · rw [if_pos hq]
      obtain rfl := h.distinct _ _ e e' he hs (href.trans hq)
      exact hreleased
    · rw [if_neg hq]
      refine (h.fits s e' hs).2.release_other hx fun hs' => hq ?_
      obtain rfl : o.session.sessionId = s := hs'
      rw [← href, Option.some.inj (he.symm.trans hs)]
  · exact h.distinct s s' e₁ e₂ (hr.get?_queues.mp h₁).1 (hr.get?_queues.mp h₂).1
  · -- A slot that is still held keeps the entry of its session.
    have hpos := countP_pos_of_getElem? (p := (·.heldIn y.sessionId)) hy (by simp [Slot.heldIn, hyheld])
    rw [hr.slots] at hy
    rcases (getElem?_set_free hx k y).mp hy with ⟨-, rfl⟩ | ⟨-, hy⟩
    · cases hyheld
    · obtain ⟨e', he', href'⟩ := h.slot k y hy hyheld
      refine ⟨e', hr.get?_queues.mpr ⟨he', fun hs => ?_⟩, href'⟩
      rw [← hcount, ← hs]
      exact Nat.ne_of_gt hpos
  · have hold := h.bounds s
    rw [admittedTo, parallelIn, hr.slots, countP_set_free hx (hfree s),
      countP_set_free hx (by simp [Slot.parallelIn, hfree s]), hr.maxOperations]
    unfold admittedTo parallelIn at hold
    exact ⟨by omega, by omega⟩
  · -- An erased entry frees a place among the sessions.
    rw [hr.queues, hr.resets, hr.maxSessions]
    have hold := h.sessions
    split
    · have hlen := Table.length_erase he
      omega
    · exact hold
  · have hnone := h.reserved s (hr.resets ▸ hs)
    refine Option.eq_none_iff_forall_ne_some.mpr fun e' he' => ?_
    exact Table.no_row hnone (hr.get?_queues.mp he').1
  · rw [hr.resets, hr.reservations]
    exact h.reservation
  · -- What is left in the map has an operation in it.
    obtain ⟨hold, hlast⟩ := hr.get?_queues.mp hs
    by_cases hne : s = o.session.sessionId
    · rw [hne, hcount]
      exact hlast hne
    · rw [hother s hne]
      exact h.occupied s e' hold

/-! ## Admission -/

/-! ### What an admission needs -/

/-- The gate can admit an operation of session `s` into queue `q`. -/
structure Admits (c : Coordinator) (s : String) (parallel : Bool) (q : Nat) : Prop extends
    c.Sound where
  entry : c.queues.get? s = some ⟨s, q⟩
  others : ∀ s' e, s' ≠ s → c.queues.get? s' = some e → c.admittedTo s' ≠ 0
  room : c.admittedTo s < c.maxOperations
  parallel_room : parallel = true → c.parallelIn s < 4

theorem assertNotResetting_ok (h : c.assertNotResetting s = .ok ()) : c.resets.get? s = none := by
  unfold assertNotResetting at h
  split at h
  · assumption
  · split at h <;> cases h

/-! ### The queue of a session -/

/-- A session that is neither full nor being reset has a queue, or gets one. -/
theorem Ok.withQueue (h : c.Ok) {parallel : Bool} (hreset : c.resets.get? s = none)
    (hfull : c.full s parallel = false) :
    Admits (c.withQueue s).2 s parallel (c.withQueue s).1
      ∧ (c.withQueue s).2.operations = c.operations := by
  unfold Coordinator.full at hfull
  unfold Coordinator.withQueue
  cases he : c.queues.get? s with
  -- The queue is there, and has room by its own counts.
  | some e =>
      rw [he] at hfull
      dsimp only at hfull ⊢
      obtain ⟨hroom, hparallel⟩ : (c.queueObject e.ref).size < c.maxOperations
          ∧ (parallel = true → (c.queueObject e.ref).parallel.length < 4) := by
        simpa using hfull
      have hfits := (h.fits s e he).2
      refine ⟨⟨h.toSound, ?_, fun s' e' _ => h.occupied s' e', ?_, fun hp => ?_⟩, rfl⟩
      · rw [he]
        obtain rfl := Table.get?_key he
        rfl
      · rw [admittedTo, ← hfits.size]
        exact hroom
      · rw [parallelIn, ← hfits.parallel_length]
        exact hparallel hp
  -- A new object, which nobody else refers to.
  | none =>
      rw [he] at hfull
      dsimp only at hfull ⊢
      have hroom : c.queues.rows.length + c.resets.rows.length < c.maxSessions := by
        simpa using hfull
      have hvacant := h.vacant he
      have hparallel : c.parallelIn s = 0 := by
        refine Nat.le_zero.mp (hvacant ▸ List.countP_mono_left fun x _ hp => ?_)
        simp only [Slot.parallelIn, Bool.decide_and, Bool.decide_eq_true, Bool.and_eq_true] at hp
        exact hp.1
      -- The objects that were there keep their places.
      have hlast : ∀ e : SessionEntry, e.ref < c.queueObjects.length →
          (c.queueObjects ++ [(⟨none, 0, []⟩ : Queue)]).getD e.ref ⟨none, 0, []⟩
            = c.queueObject e.ref := by
        intro e hlt
        rw [List.getD_eq_getElem?_getD, List.getElem?_append_left hlt, queueObject,
          List.getD_eq_getElem?_getD]
      have hnew : c.queues.get? (SessionEntry.sessionId ⟨s, c.queueObjects.length⟩) = none := he
      have hcases : ∀ {s' e'}, (c.queues.insert ⟨s, c.queueObjects.length⟩).get? s' = some e' →
          (s' = s ∧ e' = ⟨s, c.queueObjects.length⟩) ∨ (s' ≠ s ∧ c.queues.get? s' = some e') := by
        intro s' e' hs'
        rw [Table.get?_insert hnew] at hs'
        split at hs'
        · rename_i hs
          exact .inl ⟨hs.symm, (Option.some.inj hs').symm⟩
        · rename_i hs
          exact .inr ⟨Ne.symm hs, hs'⟩
      have hkept : ∀ {s' e'}, c.queues.get? s' = some e' →
          (c.queues.insert ⟨s, c.queueObjects.length⟩).get? s' = some e' :=
        fun hs' => Table.get?_insert_of_some hs'
      refine ⟨⟨⟨h.positive, h.ordered, fun s' e' hs' => ?_, fun s₁ s₂ e₁ e₂ h₁ h₂ href => ?_,
        fun n x hx hheld => ?_, h.bounds, ?_, fun s' hs' => ?_, h.reservation⟩, ?_,
        fun s' e' hne hs' => ?_, hvacant ▸ h.positive, fun _ => ?_⟩, rfl⟩
      · rcases hcases hs' with ⟨rfl, rfl⟩ | ⟨-, hs'⟩
        · -- The new queue is empty, and so are the slots of its session.
          refine ⟨by simp, ?_⟩
          show ((c.queueObjects ++ [(⟨none, 0, []⟩ : Queue)]).getD c.queueObjects.length _).Fits
            c.slots s'
          rw [List.getD_eq_getElem?_getD, List.getElem?_concat_length]
          exact .empty hvacant
        · obtain ⟨hlt, hfits⟩ := h.fits s' e' hs'
          refine ⟨?_, ?_⟩
          · show _ < (c.queueObjects ++ [(⟨none, 0, []⟩ : Queue)]).length
            rw [List.length_append]
            exact Nat.lt_add_right _ hlt
          · show ((c.queueObjects ++ [(⟨none, 0, []⟩ : Queue)]).getD e'.ref _).Fits c.slots s'
            rw [hlast e' hlt]
            exact hfits
      · -- The new reference is behind all that were given before.
        rcases hcases h₁ with ⟨rfl, rfl⟩ | ⟨-, hold₁⟩ <;>
          rcases hcases h₂ with ⟨rfl, rfl⟩ | ⟨-, hold₂⟩
        · rfl
        · exact absurd (h.fits s₂ e₂ hold₂).1 (href ▸ Nat.lt_irrefl _)
        · exact absurd (h.fits s₁ e₁ hold₁).1 (href ▸ Nat.lt_irrefl _)
        · exact h.distinct s₁ s₂ e₁ e₂ hold₁ hold₂ href
      · obtain ⟨e', he', href⟩ := h.slot n x hx hheld
        exact ⟨e', hkept he', href⟩
      · show (c.queues.insert _).rows.length + c.resets.rows.length ≤ c.maxSessions
        rw [Table.length_insert hnew]
        omega
      · show (c.queues.insert _).get? s' = none
        rw [Table.get?_insert hnew, if_neg]
        · exact h.reserved s' hs'
        · rintro rfl
          exact hs' hreset
      · show (c.queues.insert _).get? s = _
        rw [Table.get?_insert hnew, if_pos rfl]
      · rcases hcases hs' with ⟨rfl, -⟩ | ⟨-, hs'⟩
        · exact absurd rfl hne
        · exact h.occupied s' e' hs'
      · show c.parallelIn s < 4
        omega

theorem slots_getElem? : c.slots[n]? = some x ↔ ∃ o, c.operations[n]? = some o ∧ o.slot = x := by
  rw [slots, List.getElem?_map, Option.map_eq_some_iff]

theorem slots_length : c.slots.length = c.operations.length := List.length_map _

/-! ### Joining the queue -/

/-- A waiting operation joins the queue. -/
theorem Admits.join {parallel : Bool} (h : Admits c s parallel q) {queue : Queue}
    {session : AuthenticatedDemoSession} {awaits : List Nat} (hs : session.sessionId = s)
    (hfits : queue.Fits (c.slots ++ [(⟨session, parallel, q, awaits, .waiting⟩ : Operation).slot]) s)
    (hordered : Ordered (c.operations ++ [⟨session, parallel, q, awaits, .waiting⟩])) :
    (c.chain q session parallel awaits queue).2.Ok := by
  have hslots : (c.chain q session parallel awaits queue).2.slots
      = c.slots ++ [(⟨session, parallel, q, awaits, .waiting⟩ : Operation).slot] :=
    List.map_append
  have hlt := (h.fits s _ h.entry).1
  have hheld : ∀ s', (⟨session, parallel, q, awaits, .waiting⟩ : Operation).slot.heldIn s'
      = decide (s = s') := by
    intro s'
    simp [Slot.heldIn, Operation.slot, Operation.admitted, hs]
  have hcount : ∀ s', (c.chain q session parallel awaits queue).2.admittedTo s'
      = c.admittedTo s' + if s = s' then 1 else 0 := by
    intro s'
    rw [admittedTo, hslots, List.countP_append, List.countP_singleton, hheld s']
    simp [admittedTo]
  refine ⟨⟨h.positive, hordered, fun s' e he => ?_, h.distinct, fun n x hx hxheld => ?_,
    fun s' => ⟨?_, ?_⟩, h.sessions, h.reserved, h.reservation⟩, fun s' e he => ?_⟩
  · -- The object of the session is replaced, and the others do not see the new slot.
    have he : c.queues.get? s' = some e := he
    obtain ⟨hlt', hfits'⟩ := h.fits s' e he
    refine ⟨?_, ?_⟩
    · show e.ref < (c.queueObjects.set q queue).length
      rw [List.length_set]
      exact hlt'
    · rw [hslots]
      show ((c.queueObjects.set q queue).getD e.ref _).Fits _ s'
      rw [getD_set hlt]
      by_cases hq : q = e.ref
      · rw [if_pos hq]
        obtain rfl := h.distinct s s' _ e h.entry he hq
        exact hfits
      · rw [if_neg hq]
        refine hfits'.concat_other fun hs' => hq ?_
        have hs' : session.sessionId = s' := hs'
        rw [← hs', hs, h.entry] at he
        cases he
        rfl
  · rw [hslots] at hx
    rcases (getElem?_concat n x).mp hx with hx | ⟨-, rfl⟩
    · exact h.slot n x hx hxheld
    · exact ⟨⟨s, q⟩, hs ▸ h.entry, rfl⟩
  · -- The new slot counts for its own session, which has room for it.
    rw [hcount]
    have hold := (h.bounds s').1
    have hroom := h.room
    show c.admittedTo s' + _ ≤ c.maxOperations
    split
    · rename_i hs'
      subst hs'
      exact hroom
    · exact hold
  · have hold := (h.bounds s').2
    have hroom := h.parallel_room
    rw [parallelIn, hslots, List.countP_append, List.countP_singleton]
    show c.parallelIn s' + _ ≤ 4
    split
    · rename_i hin
      simp only [Slot.parallelIn, hheld s', Bool.decide_and, Bool.decide_eq_true, Bool.and_eq_true,
        decide_eq_true_eq] at hin
      obtain ⟨rfl, hpar⟩ := hin
      exact hroom hpar
    · exact hold
  · have he : c.queues.get? s' = some e := he
    rw [hcount]
    by_cases hs' : s = s'
    · rw [if_pos hs']
      exact Nat.succ_ne_zero _
    · rw [if_neg hs']
      exact h.others s' e (Ne.symm hs') he

/-! ### What a new operation awaits -/

theorem Admits.fits' {parallel : Bool} (h : Admits c s parallel q) :
    (c.queueObject q).Fits c.slots s := (h.fits s _ h.entry).2

/-- The tail and the parallel operations were admitted before. -/
theorem Admits.earlier {parallel : Bool} (h : Admits c s parallel q) {k : Nat}
    (hk : k ∈ (c.queueObject q).tail.toList ++ (c.queueObject q).parallel) :
    k < c.operations.length := by
  have hslot : ∃ x, c.slots[k]? = some x := by
    rcases List.mem_append.mp hk with htail | hparallel
    · obtain ⟨x, hx, -⟩ := h.fits'.tail_exclusive k (Option.mem_toList.mp htail)
      exact ⟨x, hx⟩
    · obtain ⟨x, hx, -⟩ := (h.fits'.parallel k).mp hparallel
      exact ⟨x, hx⟩
  obtain ⟨x, hx⟩ := hslot
  exact slots_length ▸ (List.getElem?_eq_some_iff.mp hx).1

/-- The tail covers the exclusive operations of the session. -/
theorem Admits.tail {parallel : Bool} (h : Admits c s parallel q)
    (hn : c.operations[n]? = some o) (hs : o.session.sessionId = s) (hex : o.parallel = false)
    (hadmitted : o.admitted = true) : n ∈ (c.queueObject q).tail.toList ∨
      ∃ k ∈ (c.queueObject q).tail.toList, n < k ∧ ∃ x : Operation, c.operations[k]? = some x
        ∧ x.parallel = false ∧ x.session.sessionId = o.session.sessionId := by
  have hheld : o.slot.heldIn s = true := by simp [Slot.heldIn, Operation.slot, hadmitted, hs]
  -- The tail is an exclusive operation of the session, and the latest one.
  obtain ⟨k, hk, hnk⟩ := h.fits'.tail n o.slot (slot_getElem? hn) hheld hex
  obtain ⟨x, hx, hxex, hxs⟩ := h.fits'.tail_exclusive k hk
  obtain ⟨y, hy, rfl⟩ := slots_getElem?.mp hx
  rcases Nat.eq_or_lt_of_le hnk with rfl | hlt
  · exact .inl (Option.mem_toList.mpr hk)
  · exact .inr ⟨k, Option.mem_toList.mpr hk, hlt, y, hy, hxex, hxs.trans hs.symm⟩

/-! ### `run` and `runParallel` -/

theorem Admits.run (h : Admits c s false q) {session : AuthenticatedDemoSession}
    (hs : session.sessionId = s) :
    (c.chain q session false ((c.queueObject q).tail.toList ++ (c.queueObject q).parallel)
      { c.queueObject q with
        size := (c.queueObject q).size + 1, tail := some c.operations.length }).2.Ok := by
  -- It awaits the tail and the parallel operations; what is before the tail, the tail awaits.
  refine h.join hs ?_ (h.ordered.concat rfl (fun k hk => h.earlier hk) fun n x hn hx _ hadmitted => ?_)
  · rw [← slots_length]
    exact h.fits'.concat_exclusive (by simp [Slot.heldIn, Operation.slot, Operation.admitted, hs]) rfl
  · have hx : x.session.sessionId = s := hx.trans hs
    cases hex : x.parallel with
    | true =>
        have hin : x.slot.parallelIn s = true := by
          simp [Slot.parallelIn, Slot.heldIn, Operation.slot, hadmitted, hx, hex]
        exact .inl (List.mem_append_right _ ((h.fits'.parallel n).mpr ⟨_, slot_getElem? hn, hin⟩))
    | false =>
        rcases h.tail hn hx hex hadmitted with htail | ⟨k, hk, hrest⟩
        · exact .inl (List.mem_append_left _ htail)
        · exact .inr ⟨k, List.mem_append_left _ hk, hrest⟩

theorem Admits.runParallel (h : Admits c s true q) {session : AuthenticatedDemoSession}
    (hs : session.sessionId = s) :
    (c.chain q session true (c.queueObject q).tail.toList
      { c.queueObject q with
        size := (c.queueObject q).size + 1
        parallel := (c.queueObject q).parallel ++ [c.operations.length] }).2.Ok := by
  -- It awaits the tail only, since parallel operations do not exclude each other.
  refine h.join hs ?_ (h.ordered.concat rfl (fun k hk => h.earlier (List.mem_append_left _ hk))
    fun n x hn hx hex hadmitted => h.tail hn (hx.trans hs) (hex.resolve_right (by simp)) hadmitted)
  rw [← slots_length]
  exact h.fits'.concat_parallel (by simp [Slot.heldIn, Operation.slot, Operation.admitted, hs]) rfl

/-! ## The steps -/

/-! ### Admission -/

theorem admit_ok {trusted parallel : Bool} {session : AuthenticatedDemoSession}
    (h : c.admitOperation trusted session parallel = .ok (q, c')) :
    c.resets.get? session.sessionId = none ∧ c.full session.sessionId parallel = false
      ∧ q = (c.withQueue session.sessionId).1
      ∧ c' = (c.withQueue session.sessionId).2.setQueue q
        { (c.withQueue session.sessionId).2.queueObject q with
          size := ((c.withQueue session.sessionId).2.queueObject q).size + 1 } := by
  unfold admitOperation at h
  cases trusted with
  | false => cases h
  | true =>
      cases hreset : c.assertNotResetting session.sessionId with
      | error e =>
          rw [hreset] at h
          cases h
      | ok u =>
          cases hfull : c.full session.sessionId parallel with
          | true =>
              rw [hreset, hfull] at h
              cases h
          | false =>
              rw [hreset, hfull] at h
              cases h
              exact ⟨assertNotResetting_ok hreset, rfl, rfl, rfl⟩

theorem chain_setQueue (a b : Queue) (session : AuthenticatedDemoSession) (parallel : Bool)
    (awaits : List Nat) :
    (c.setQueue q a).chain q session parallel awaits b = c.chain q session parallel awaits b := by
  unfold chain setQueue
  rw [List.set_set]

theorem Ok.admitOperation (h : c.Ok) {trusted parallel : Bool} {session : AuthenticatedDemoSession}
    (hgranted : c.admitOperation trusted session parallel = .ok (q, c')) :
    ∃ c₀ : Coordinator, Admits c₀ session.sessionId parallel q
      ∧ c'.operations = c₀.operations
      ∧ c'.queueObject q = { c₀.queueObject q with size := (c₀.queueObject q).size + 1 }
      ∧ ∀ awaits queue, c'.chain q session parallel awaits queue
        = c₀.chain q session parallel awaits queue := by
  obtain ⟨hreset, hfull, rfl, rfl⟩ := admit_ok hgranted
  have hadmits := (h.withQueue hreset hfull).1
  refine ⟨_, hadmits, rfl, ?_, fun awaits queue => chain_setQueue ..⟩
  rw [queueObject, setQueue, getD_set (hadmits.fits _ _ hadmits.entry).1, if_pos rfl]

/-! ### The two entry points -/

theorem run_ok {trusted : Bool} {session : AuthenticatedDemoSession}
    (h : c.run trusted session = .ok (n, c')) :
    ∃ q c₁, c.admitOperation trusted session false = .ok (q, c₁) ∧ (n, c') = c₁.chain q session false
      ((c₁.queueObject q).tail.toList ++ (c₁.queueObject q).parallel)
      { c₁.queueObject q with tail := some c₁.operations.length } := by
  unfold Coordinator.run at h
  cases hgranted : c.admitOperation trusted session false with
  | error e =>
      rw [hgranted] at h
      cases h
  | ok r =>
      rw [hgranted] at h
      exact ⟨r.1, r.2, rfl, (Except.ok.inj h).symm⟩

theorem runParallel_ok {trusted : Bool} {session : AuthenticatedDemoSession}
    (h : c.runParallel trusted session = .ok (n, c')) :
    ∃ q c₁, c.admitOperation trusted session true = .ok (q, c₁) ∧ (n, c') = c₁.chain q session true
      (c₁.queueObject q).tail.toList
      { c₁.queueObject q with
        parallel := (c₁.queueObject q).parallel ++ [c₁.operations.length] } := by
  unfold Coordinator.runParallel at h
  cases hgranted : c.admitOperation trusted session true with
  | error e =>
      rw [hgranted] at h
      cases h
  | ok r =>
      rw [hgranted] at h
      exact ⟨r.1, r.2, rfl, (Except.ok.inj h).symm⟩

/-! ### Operations -/

theorem Ok.run (h : c.Ok) {trusted : Bool} {session : AuthenticatedDemoSession}
    (hrun : c.run trusted session = .ok (n, c')) : c'.Ok := by
  obtain ⟨q, c₁, hgranted, heq⟩ := run_ok hrun
  obtain ⟨c₀, hadmits, hops, hobject, hchain⟩ := h.admitOperation hgranted
  rw [hchain, hobject, hops] at heq
  rw [show c' = _ from congrArg Prod.snd heq]
  exact hadmits.run rfl

theorem Ok.runParallel (h : c.Ok) {trusted : Bool} {session : AuthenticatedDemoSession}
    (hrun : c.runParallel trusted session = .ok (n, c')) : c'.Ok := by
  obtain ⟨q, c₁, hgranted, heq⟩ := runParallel_ok hrun
  obtain ⟨c₀, hadmits, hops, hobject, hchain⟩ := h.admitOperation hgranted
  rw [hchain, hobject, hops] at heq
  rw [show c' = _ from congrArg Prod.snd heq]
  exact hadmits.runParallel rfl

/-! ### Reservations -/

/-- A reservation is granted for a session without operations. -/
theorem reserveCleanup_ok (h : c.reserveCleanup s = .ok (n, c')) :
    c.resets.get? s = none ∧ c.queues.get? s = none
      ∧ c.queues.rows.length + c.resets.rows.length < c.maxSessions
      ∧ n = c.reservations.length
      ∧ c' = { c with
        resets := c.resets.insert ⟨s, c.reservations.length⟩
        reservations := c.reservations ++ [⟨s, false⟩] } := by
  unfold reserveCleanup at h
  cases hreset : c.assertNotResetting s with
  | error e =>
      rw [hreset] at h
      cases h
  | ok u =>
      rw [hreset] at h
      cases hq : c.queues.get? s with
      | some e =>
          rw [hq] at h
          cases h
      | none =>
          rw [hq] at h
          by_cases hfull : c.queues.rows.length + c.resets.rows.length ≥ c.maxSessions
          · simp [hfull, bind, Except.bind] at h
          · simp only [bind, Except.bind, Option.isSome_none, if_neg hfull] at h
            cases h
            exact ⟨assertNotResetting_ok hreset, rfl, Nat.not_le.mp hfull, rfl, rfl⟩

theorem tryBeginReset_ok {trusted : Bool} {session : AuthenticatedDemoSession}
    (h : c.tryBeginReset trusted session = .ok (n, c')) :
    c.reserveCleanup session.sessionId = .ok (n, c') := by
  unfold tryBeginReset at h
  split at h
  · exact h
  · cases h

theorem Ok.reserveCleanup (h : c.Ok) (hreserve : c.reserveCleanup s = .ok (n, c')) : c'.Ok := by
  obtain ⟨hreset, hqueue, hroom, rfl, rfl⟩ := reserveCleanup_ok hreserve
  have hnew : c.resets.get? (SessionEntry.sessionId ⟨s, c.reservations.length⟩) = none := hreset
  refine ⟨⟨h.positive, h.ordered, h.fits, h.distinct, h.slot, h.bounds, ?_, fun s' hs' => ?_,
    fun s' e he => ?_⟩, h.occupied⟩
  · -- A reservation takes a place that was free.
    show c.queues.rows.length + (c.resets.insert _).rows.length ≤ c.maxSessions
    rw [Table.length_insert hnew]
    omega
  · -- The session had no queue when it was reserved.
    have hs' : (c.resets.insert ⟨s, c.reservations.length⟩).get? s' ≠ none := hs'
    rw [Table.get?_insert hnew] at hs'
    split at hs'
    · rename_i hs
      exact hs ▸ hqueue
    · exact h.reserved s' hs'
  · have he : (c.resets.insert ⟨s, c.reservations.length⟩).get? s' = some e := he
    show ∃ r, (c.reservations ++ [(⟨s, false⟩ : ResetReservation)])[e.ref]? = some r ∧ _
    rw [Table.get?_insert hnew] at he
    split at he
    · rename_i hs
      cases he
      exact ⟨_, List.getElem?_concat_length, hs⟩
    · obtain ⟨r, hr, hrs⟩ := h.reservation s' e he
      refine ⟨r, ?_, hrs⟩
      rw [List.getElem?_append_left (List.getElem?_eq_some_iff.mp hr).1, hr]

/-! ### The end of a reservation -/

theorem finishReset_ok (h : c.finishReset n = .ok c') :
    c.resets.get? (c.reservedSession n) = some ⟨c.reservedSession n, n⟩
      ∧ c' = { c with resets := c.resets.erase (c.reservedSession n) } := by
  unfold finishReset at h
  split at h
  · rename_i hcurrent
    obtain ⟨e, he, rfl⟩ := Option.map_eq_some_iff.mp hcurrent
    have hkey := Table.get?_key he
    refine ⟨he.trans ?_, (Except.ok.inj h).symm⟩
    rw [← hkey]
  · cases h

theorem Ok.finishReset (h : c.Ok) (hfinish : c.finishReset n = .ok c') : c'.Ok := by
  obtain ⟨he, rfl⟩ := finishReset_ok hfinish
  -- Erasing leaves the other reservations as they are.
  have hold : ∀ {s' e'}, (c.resets.erase (c.reservedSession n)).get? s' = some e' →
      c.resets.get? s' = some e' := by
    intro s' e' hs'
    rw [Table.get?_erase] at hs'
    split at hs'
    · cases hs'
    · exact hs'
  refine ⟨⟨h.positive, h.ordered, h.fits, h.distinct, h.slot, h.bounds, ?_, fun s' hs' => ?_,
    fun s' e' he' => h.reservation s' e' (hold he')⟩, h.occupied⟩
  · have hlen := Table.length_erase he
    have hbound := h.sessions
    show c.queues.rows.length + (c.resets.erase _).rows.length ≤ c.maxSessions
    omega
  · obtain ⟨e', he'⟩ := Option.ne_none_iff_exists'.mp hs'
    exact h.reserved s' (Table.row_ne_none (hold he'))

theorem Ok.markUnknown (h : c.Ok) : (c.markUnknown n).Ok := by
  refine ⟨⟨h.positive, h.ordered, h.fits, h.distinct, h.slot, h.bounds, h.sessions, h.reserved,
    fun s' e he => ?_⟩, h.occupied⟩
  obtain ⟨r, hr, hrs⟩ := h.reservation s' e he
  show ∃ r, (c.reservations.modify n _)[e.ref]? = some r ∧ _
  rw [List.getElem?_modify, hr]
  by_cases hn : n = e.ref
  · exact ⟨{ r with unknown := true }, by simp [hn], hrs⟩
  · exact ⟨r, by simp [hn], hrs⟩

/-! ### All steps -/

theorem phaseIs_iff {p : OperationPhase} :
    c.phaseIs n p = true ↔ ∃ o, c.operations[n]? = some o ∧ o.phase = p := by
  rw [phaseIs, decide_eq_true_eq, Option.map_eq_some_iff]

/-- The coordinator's own state between two steps. -/
theorem Ok.step (h : c.Ok) {event : GateEvent} (hstep : c.step event = some c') : c'.Ok := by
  -- A call that throws is no step.
  have hsnd : ∀ {r : Except DemoError (Nat × Coordinator)}, r.toOption.map (·.2) = some c' →
      ∃ n, r = .ok (n, c') := by
    intro r hr
    cases r with
    | error e => cases hr
    | ok p => exact ⟨p.1, by rw [← Option.some.inj hr]⟩
  cases event with
  | run trusted session =>
      obtain ⟨n, hrun⟩ := hsnd hstep
      exact h.run hrun
  | runParallel trusted session =>
      obtain ⟨n, hrun⟩ := hsnd hstep
      exact h.runParallel hrun
  | tryBeginReset trusted session =>
      obtain ⟨n, hreserve⟩ := hsnd hstep
      exact h.reserveCleanup (tryBeginReset_ok hreserve)
  | reserveCleanup sessionId =>
      obtain ⟨n, hreserve⟩ := hsnd hstep
      exact h.reserveCleanup hreserve
  | finishReset r =>
      cases hfinish : c.finishReset r with
      | error e =>
          simp only [Coordinator.step, hfinish] at hstep
          cases hstep
      | ok c₁ =>
          simp only [Coordinator.step, hfinish] at hstep
          cases hstep
          exact h.finishReset hfinish
  | markUnknown r =>
      cases hstep
      exact h.markUnknown
  | start n =>
      simp only [Coordinator.step, Coordinator.start] at hstep
      split at hstep
      · cases hstep
      · rename_i o ho
        split at hstep
        · -- It starts when all that it awaits is completed.
          rename_i hready
          cases hstep
          refine h.setPhase ho (by decide) ?_ (by rw [hready.1]; decide)
            fun _ k hk => List.all_eq_true.mp hready.2 k hk
          simp [Operation.admitted, hready.1]
        · cases hstep
  | revalidated n valid =>
      simp only [Coordinator.step, Coordinator.revalidated] at hstep
      split at hstep
      · rename_i hphase
        obtain ⟨o, ho, hphase⟩ := phaseIs_iff.mp hphase
        cases hstep
        refine h.setPhase ho (by cases valid <;> decide) ?_ (by rw [hphase]; decide)
          fun hw => by rw [hphase] at hw; cases hw
        cases valid <;> simp [Operation.admitted, hphase]
      · cases hstep
  | bodySettled n =>
      simp only [Coordinator.step, Coordinator.bodySettled] at hstep
      split at hstep
      · rename_i hphase
        obtain ⟨o, ho, hphase⟩ := phaseIs_iff.mp hphase
        cases hstep
        refine h.setPhase ho (by decide) ?_ (by rw [hphase]; decide)
          fun hw => by rw [hphase] at hw; cases hw
        simp [Operation.admitted, hphase]
      · cases hstep
  | release n =>
      obtain ⟨o, hr⟩ := release_spec hstep
      exact h.release hr
  | complete n =>
      simp only [Coordinator.step, Coordinator.complete] at hstep
      split at hstep
      · rename_i hphase
        obtain ⟨o, ho, hphase⟩ := phaseIs_iff.mp hphase
        cases hstep
        refine h.setPhase ho (by decide) ?_ (by rw [hphase]; decide)
          fun hw => by rw [hphase] at hw; cases hw
        simp [Operation.admitted, hphase]
      · cases hstep

/-! ## What a step changes -/

/-! ### Admissions -/

theorem admit_trusted {trusted parallel : Bool} {session : AuthenticatedDemoSession}
    {r : Nat × Coordinator} (h : c.admitOperation trusted session parallel = .ok r) : trusted = true := by
  cases trusted with
  | true => rfl
  | false => cases h

/-- Only queues are changed by an admission. -/
theorem admit_same {trusted parallel : Bool} {session : AuthenticatedDemoSession}
    (h : c.admitOperation trusted session parallel = .ok (q, c')) :
    c'.operations = c.operations ∧ c'.resets = c.resets ∧ c'.reservations = c.reservations := by
  obtain ⟨-, -, -, rfl⟩ := admit_ok h
  have hqueue : ∀ s, (c.withQueue s).2.operations = c.operations
      ∧ (c.withQueue s).2.resets = c.resets ∧ (c.withQueue s).2.reservations = c.reservations := by
    intro s
    unfold withQueue
    split
    · exact ⟨rfl, rfl, rfl⟩
    · exact ⟨rfl, rfl, rfl⟩
  exact hqueue session.sessionId

/-- A trusted operation of `session` is admitted. -/
structure Joins (c : Coordinator) (session : AuthenticatedDemoSession) (c' : Coordinator) :
    Prop where
  operations : ∃ parallel q awaits,
    c'.operations = c.operations ++ [⟨session, parallel, q, awaits, .waiting⟩]
  resets : c'.resets = c.resets
  reservations : c'.reservations = c.reservations

/-- Operation `n` advances from `o` to phase `p`. -/
structure Moves (c : Coordinator) (n : Nat) (o : Operation) (p : OperationPhase)
    (c' : Coordinator) : Prop where
  operation : c.operations[n]? = some o
  operations : c'.operations = c.operations.set n { o with phase := p }
  admitted : ({ o with phase := p } : Operation).admitted = true → o.admitted = true
  resets : c'.resets = c.resets
  reservations : c'.reservations = c.reservations

/-! ### Operations that are added -/

theorem run_joins {trusted : Bool} {session : AuthenticatedDemoSession}
    (h : c.step (.run trusted session) = some c') : trusted = true ∧ c.Joins session c' := by
  cases hrun : c.run trusted session with
  | error e =>
      simp only [Coordinator.step, hrun] at h
      cases h
  | ok r =>
      simp only [Coordinator.step, hrun] at h
      cases h
      obtain ⟨q, c₁, hgranted, heq⟩ := run_ok hrun
      obtain ⟨hops, hresets, hreservations⟩ := admit_same hgranted
      refine ⟨admit_trusted hgranted, ?_⟩
      show c.Joins session r.2
      rw [show r.2 = _ from congrArg Prod.snd heq]
      exact ⟨⟨_, _, _, congrArg (· ++ _) hops⟩, hresets, hreservations⟩

theorem runParallel_joins {trusted : Bool} {session : AuthenticatedDemoSession}
    (h : c.step (.runParallel trusted session) = some c') : trusted = true ∧ c.Joins session c' := by
  cases hrun : c.runParallel trusted session with
  | error e =>
      simp only [Coordinator.step, hrun] at h
      cases h
  | ok r =>
      simp only [Coordinator.step, hrun] at h
      cases h
      obtain ⟨q, c₁, hgranted, heq⟩ := runParallel_ok hrun
      obtain ⟨hops, hresets, hreservations⟩ := admit_same hgranted
      refine ⟨admit_trusted hgranted, ?_⟩
      show c.Joins session r.2
      rw [show r.2 = _ from congrArg Prod.snd heq]
      exact ⟨⟨_, _, _, congrArg (· ++ _) hops⟩, hresets, hreservations⟩

/-! ### Operations that advance -/

theorem moves_setPhase (ho : c.operations[n]? = some o) {p : OperationPhase}
    (hadmitted : ({ o with phase := p } : Operation).admitted = true → o.admitted = true) :
    c.Moves n o p (c.setPhase n p) :=
  ⟨ho, operations_setPhase ho p, hadmitted, rfl, rfl⟩

theorem start_moves (h : c.step (.start n) = some c') :
    ∃ o, o.phase = .waiting ∧ c.Moves n o .revalidating c' := by
  simp only [Coordinator.step, Coordinator.start] at h
  split at h
  · cases h
  · rename_i o ho
    split at h
    · rename_i hready
      cases h
      exact ⟨o, hready.1, moves_setPhase ho fun _ => by simp [Operation.admitted, hready.1]⟩
    · cases h

theorem revalidated_moves {valid : Bool} (h : c.step (.revalidated n valid) = some c') :
    ∃ o, o.phase = .revalidating
      ∧ c.Moves n o (if valid then .running else .settled) c' := by
  simp only [Coordinator.step, Coordinator.revalidated] at h
  split at h
  · rename_i hphase
    obtain ⟨o, ho, hphase⟩ := phaseIs_iff.mp hphase
    cases h
    exact ⟨o, hphase, moves_setPhase ho fun _ => by simp [Operation.admitted, hphase]⟩
  · cases h

theorem bodySettled_moves (h : c.step (.bodySettled n) = some c') :
    ∃ o, o.phase = .running ∧ c.Moves n o .settled c' := by
  simp only [Coordinator.step, Coordinator.bodySettled] at h
  split at h
  · rename_i hphase
    obtain ⟨o, ho, hphase⟩ := phaseIs_iff.mp hphase
    cases h
    exact ⟨o, hphase, moves_setPhase ho fun _ => by simp [Operation.admitted, hphase]⟩
  · cases h

theorem release_moves (h : c.step (.release n) = some c') :
    ∃ o, o.phase = .settled ∧ c.Moves n o .released c' := by
  obtain ⟨o, hr⟩ := release_spec h
  exact ⟨o, hr.settled, hr.operation, hr.operations.trans (operations_setPhase hr.operation _),
    fun hadmitted => by simp [Operation.admitted] at hadmitted, hr.resets, hr.reservations⟩

theorem complete_moves (h : c.step (.complete n) = some c') :
    ∃ o, o.phase = .released ∧ c.Moves n o .completed c' := by
  simp only [Coordinator.step, Coordinator.complete] at h
  split at h
  · rename_i hphase
    obtain ⟨o, ho, hphase⟩ := phaseIs_iff.mp hphase
    cases h
    exact ⟨o, hphase, moves_setPhase ho fun hadmitted => by simp [Operation.admitted] at hadmitted⟩
  · cases h

end Coordinator

end CostEngine
