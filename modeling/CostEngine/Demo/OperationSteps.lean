import CostEngine.Demo.RuntimeInvariant

/-! # The steps of sessions and operations keep the invariant -/

namespace CostEngine

open Relational (Table)

namespace DemoRuntime

variable {S S' : DemoRuntime} {n i j : Nat} {o : Operation} {cl cl' : Clean} {id : String}
  {body : OperationBody} {coordinator : Coordinator}

/-! ## Operations and sessions -/

theorem revokedIn_of_durable (h : S.durable id) : S.revokedIn id :=
  h.imp fun _ hrow => ⟨hrow.1, hrow.2.1⟩

theorem admitted_of_entered (h : S.entered n o) : o.admitted = true := by
  rcases h with hphase | ⟨hphase, -⟩ | ⟨hadmitted, -⟩
  · simp [Operation.admitted, hphase]
  · simp [Operation.admitted, hphase]
  · exact hadmitted

theorem inBody_some (h : S.inBody n = some o) :
    S.coordinator.operations[n]? = some o ∧ o.phase = .running := by
  obtain ⟨ho, hphase⟩ := Option.filter_eq_some_iff.mp h
  exact ⟨ho, of_decide_eq_true hphase⟩

namespace Invariant

/-! ### What an admitted operation may rely on -/

/-- An operation in its body has a session that is not revoked. -/
theorem running (h : S.Invariant) (ho : S.inBody n = some o) :
    ¬ S.revokedIn o.session.sessionId :=
  h.live n o (inBody_some ho).1 (.inl (inBody_some ho).2)

/-- While a reservation is not finished, no operation of its session is admitted. -/
theorem idle (h : S.Invariant) (hcl : S.reset.cleans[i]? = some cl) (hi : ¬ S.isFinished i)
    (ho : S.coordinator.operations[n]? = some o) (hadmitted : o.admitted = true) :
    cl.sessionId ≠ o.session.sessionId := by
  intro hs
  -- The gate has no queue for a reserved session, but an admitted operation is in one.
  have hreset := (h.current i cl hcl).mp hi
  have hqueue := h.gate.reserved cl.sessionId (Table.row_ne_none hreset)
  obtain ⟨e, he, -⟩ := h.gate.slot n o.slot (Coordinator.slot_getElem? ho) hadmitted
  have he : S.coordinator.queues.get? o.session.sessionId = some e := he
  rw [← hs, hqueue] at he
  cases he

/-- A session is reserved once at a time. -/
theorem only (h : S.Invariant) (hcl : S.reset.cleans[i]? = some cl)
    (hcl' : S.reset.cleans[j]? = some cl') (hi : ¬ S.isFinished i) (hj : ¬ S.isFinished j)
    (hs : cl.sessionId = cl'.sessionId) : i = j := by
  have hreset := (h.current i cl hcl).mp hi
  have hreset' := (h.current j cl' hcl').mp hj
  rw [hs] at hreset
  cases Option.some.inj (hreset.symm.trans hreset')
  rfl

/-! ## Bodies -/

theorem lt_length (ho : S.coordinator.operations[n]? = some o) :
    n < S.coordinator.operations.length := (List.getElem?_eq_some_iff.mp ho).1

/-! ### The body of one operation -/

/-- An operation has been answered, or has got its executor. -/
theorem setBody (h : S.Invariant) (ho : S.coordinator.operations[n]? = some o)
    (hanswer : body.answer ≠ none → o.phase = .revalidating)
    (hlive : (o.phase = .revalidating ∧ body.answer = some true)
      ∨ (o.admitted = true ∧ body.executor ≠ none) → ¬ S.revokedIn o.session.sessionId)
    (hexecutor : ∀ x, body.executor = some x →
      S.registry.executor? o.session.sessionId = some x ∨ S.revokedIn o.session.sessionId) :
    (S.setBody n body).Invariant := by
  have hbody : ∀ m, (S.setBody n body).bodies m = if m = n then body else S.bodies m := by
    intro m
    show Function.update S.bodies n body m = _
    rw [Function.update_apply]
  -- Only the four clauses about bodies are touched.
  refine { h with
    fresh := fun m hm => ?_
    answered := fun m x hx hm => ?_
    live := fun m x hx hm => ?_
    executors := fun m x y hx hm => ?_ }
  · -- Operation `n` is there already, so no body to come changes.
    rw [hbody, if_neg (Nat.ne_of_gt (Nat.lt_of_lt_of_le (lt_length ho) hm))]
    exact h.fresh m hm
  · rw [hbody] at hm
    split at hm
    · rename_i hmn
      subst hmn
      obtain rfl := Option.some.inj (ho.symm.trans hx)
      exact hanswer hm
    · exact h.answered m x hx hm
  · unfold entered at hm
    rw [hbody] at hm
    split at hm
    · rename_i hmn
      subst hmn
      obtain rfl := Option.some.inj (ho.symm.trans hx)
      -- The phase is that of before.
      rcases hm with hphase | hm
      · exact h.live m o ho (.inl hphase)
      · exact hlive hm
    · exact h.live m x hx hm
  · rw [hbody] at hm
    split at hm
    · rename_i hmn
      subst hmn
      obtain rfl := Option.some.inj (ho.symm.trans hx)
      exact hexecutor y hm
    · exact h.executors m x y hx hm

/-! ### The answers of the database -/

theorem not_revoked_of_valid {session : AuthenticatedDemoSession} (h : S.valid session = true) :
    ¬ S.revokedIn session.sessionId := by
  rintro ⟨row, hrow, hrevoked⟩
  simp [valid, hrow, available, hrevoked] at h

theorem revalidate (h : S.Invariant) {lost : Bool} (hstep : S.revalidate n lost = some S') :
    S'.Invariant := by
  obtain ⟨o, ho, rfl⟩ := Option.map_eq_some_iff.mp hstep
  obtain ⟨ho, hphase⟩ := Option.filter_eq_some_iff.mp ho
  refine h.setBody ho (fun _ => of_decide_eq_true hphase) (fun hm => ?_)
    fun x hx => h.executors n o x ho hx
  rcases hm with ⟨-, hanswer⟩ | hexecutor
  · simp only [Option.some.injEq, Bool.and_eq_true] at hanswer
    exact not_revoked_of_valid hanswer.1
  · exact h.live n o ho (.inr (.inr hexecutor))

theorem lookup (h : S.Invariant) {lost : Bool} (hstep : S.lookup n lost = some S') :
    S'.Invariant := by
  obtain ⟨o, ho, rfl⟩ := Option.map_eq_some_iff.mp hstep
  have hlive := h.running ho
  obtain ⟨ho, hphase⟩ := inBody_some ho
  exact h.setBody ho (fun hm => h.answered n o ho hm) (fun _ => hlive)
    fun x hx => h.executors n o x ho hx

/-! ## The gate -/

/-! ### Operations that are added and moved -/

/-- A new operation of a trusted session. -/
theorem joins (h : S.Invariant) {session : AuthenticatedDemoSession} (hok : coordinator.Ok)
    (hjoins : S.coordinator.Joins session coordinator) (htrusted : session ∈ S.contexts) :
    { S with coordinator }.Invariant := by
  obtain ⟨⟨parallel, q, awaits, hops⟩, hresets, hreservations⟩ := hjoins
  -- All other operations are as before.
  have hcases : ∀ {m : Nat} {x : Operation}, coordinator.operations[m]? = some x →
      S.coordinator.operations[m]? = some x
        ∨ (m = S.coordinator.operations.length ∧ x = ⟨session, parallel, q, awaits, .waiting⟩) := by
    intro m x hx
    rw [hops, List.getElem?_append] at hx
    split at hx
    · exact .inl hx
    · rw [List.getElem?_singleton] at hx
      split at hx
      · exact .inr ⟨by omega, (Option.some.inj hx).symm⟩
      · cases hx
  -- The body of the new operation is empty: nothing is answered, nothing registered.
  have hempty : S.bodies S.coordinator.operations.length = {} := h.fresh _ (Nat.le_refl _)
  refine { h with
    gate := hok
    operations := fun m x hx => ?_
    fresh := fun m hm => ?_
    answered := fun m x hx hm => ?_
    live := fun m x hx hm => ?_
    executors := fun m x y hx hm => ?_
    registered := fun s hs hrevoked => hresets ▸ h.registered s hs hrevoked
    numbered := h.numbered.trans (congrArg List.length hreservations).symm
    reserved := fun i cl hcl => ?_
    current := fun i cl hcl => ?_ }
  · rcases hcases hx with hx | ⟨-, rfl⟩
    · exact h.operations m x hx
    · exact htrusted
  · refine h.fresh m (Nat.le_trans ?_ hm)
    show S.coordinator.operations.length ≤ coordinator.operations.length
    rw [hops, List.length_append]
    exact Nat.le_add_right _ _
  · rcases hcases hx with hx | ⟨rfl, rfl⟩
    · exact h.answered m x hx hm
    · exact absurd (congrArg OperationBody.answer hempty) hm
  · rcases hcases hx with hx | ⟨rfl, rfl⟩
    · exact h.live m x hx hm
    · rcases hm with hphase | ⟨hphase, -⟩ | ⟨-, hexecutor⟩
      · cases hphase
      · cases hphase
      · exact absurd (congrArg OperationBody.executor hempty) hexecutor
  · rcases hcases hx with hx | ⟨rfl, rfl⟩
    · exact h.executors m x y hx hm
    · exact absurd ((congrArg OperationBody.executor hempty).symm.trans hm) nofun
  · have hold := h.reserved i cl hcl
    unfold Coordinator.reservedSession at hold ⊢
    rw [hreservations]
    exact hold
  · rw [hresets]
    exact h.current i cl hcl

/-! ### Operations that advance -/

/-- An operation advances; into its body only with a positive answer. -/
theorem moves (h : S.Invariant) {p : OperationPhase} (hok : coordinator.Ok)
    (hmoves : S.coordinator.Moves n o p coordinator)
    (hanswer : (S.bodies n).answer ≠ none → p = .revalidating)
    (hlive : p = .running → ¬ S.revokedIn o.session.sessionId) :
    { S with coordinator }.Invariant := by
  obtain ⟨ho, hops, hadmitted, hresets, hreservations⟩ := hmoves
  -- Operation `n` has its new phase, and the others are as before.
  have hcases : ∀ {m : Nat} {x : Operation}, coordinator.operations[m]? = some x →
      (m = n ∧ x = { o with phase := p }) ∨ (m ≠ n ∧ S.coordinator.operations[m]? = some x) := by
    intro m x hx
    rw [hops, List.getElem?_set] at hx
    by_cases hmn : n = m
    · subst hmn
      rw [if_pos rfl, if_pos (lt_length ho)] at hx
      exact .inl ⟨rfl, (Option.some.inj hx).symm⟩
    · rw [if_neg hmn] at hx
      exact .inr ⟨Ne.symm hmn, hx⟩
  refine { h with
    gate := hok
    operations := fun m x hx => ?_
    fresh := fun m hm => ?_
    answered := fun m x hx hm => ?_
    live := fun m x hx hm => ?_
    executors := fun m x y hx hm => ?_
    registered := fun s hs hrevoked => hresets ▸ h.registered s hs hrevoked
    numbered := h.numbered.trans (congrArg List.length hreservations).symm
    reserved := fun i cl hcl => ?_
    current := fun i cl hcl => ?_ }
  · rcases hcases hx with ⟨rfl, rfl⟩ | ⟨-, hx⟩
    · exact h.operations m o ho
    · exact h.operations m x hx
  · refine h.fresh m (Nat.le_trans (Nat.le_of_eq ?_) hm)
    show S.coordinator.operations.length = coordinator.operations.length
    rw [hops, List.length_set]
  · rcases hcases hx with ⟨rfl, rfl⟩ | ⟨-, hx⟩
    · exact hanswer hm
    · exact h.answered m x hx hm
  · rcases hcases hx with ⟨rfl, rfl⟩ | ⟨-, hx⟩
    · -- It enters its body, or waits for the answer it waited for, or has its executor already.
      rcases hm with hphase | ⟨hphase, htrue⟩ | ⟨hm, hexecutor⟩
      · exact hlive hphase
      · have hold := h.answered m o ho (Table.row_ne_none htrue)
        exact h.live m o ho (.inr (.inl ⟨hold, htrue⟩))
      · exact h.live m o ho (.inr (.inr ⟨hadmitted hm, hexecutor⟩))
    · exact h.live m x hx hm
  · rcases hcases hx with ⟨rfl, rfl⟩ | ⟨-, hx⟩
    · exact h.executors m o y ho hm
    · exact h.executors m x y hx hm
  · have hold := h.reserved i cl hcl
    unfold Coordinator.reservedSession at hold ⊢
    rw [hreservations]
    exact hold
  · rw [hresets]
    exact h.current i cl hcl

theorem gate_some {event : GateEvent} (h : S.gate event = some S') :
    ∃ coordinator, S.coordinator.step event = some coordinator ∧ S' = { S with coordinator } := by
  obtain ⟨coordinator, hstep, rfl⟩ := Option.map_eq_some_iff.mp h
  exact ⟨coordinator, hstep, rfl⟩

/-! ### The steps of the gate -/

theorem run (h : S.Invariant) {session : AuthenticatedDemoSession}
    (hstep : S.gate (.run (session ∈ S.contexts) session) = some S') : S'.Invariant := by
  obtain ⟨coordinator, hgate, rfl⟩ := gate_some hstep
  obtain ⟨htrusted, hjoins⟩ := Coordinator.run_joins hgate
  exact h.joins (h.gate.step hgate) hjoins (of_decide_eq_true htrusted)

theorem runParallel (h : S.Invariant) {session : AuthenticatedDemoSession}
    (hstep : S.gate (.runParallel (session ∈ S.contexts) session) = some S') : S'.Invariant := by
  obtain ⟨coordinator, hgate, rfl⟩ := gate_some hstep
  obtain ⟨htrusted, hjoins⟩ := Coordinator.runParallel_joins hgate
  exact h.joins (h.gate.step hgate) hjoins (of_decide_eq_true htrusted)

/-- A phase in which no answer is on its way. -/
theorem answer_none (h : S.Invariant) (ho : S.coordinator.operations[n]? = some o)
    (hphase : o.phase ≠ .revalidating) : (S.bodies n).answer = none := by
  by_contra hanswer
  exact hphase (h.answered n o ho hanswer)

theorem startOperation (h : S.Invariant) (hstep : S.gate (.start n) = some S') :
    S'.Invariant := by
  obtain ⟨coordinator, hgate, rfl⟩ := gate_some hstep
  obtain ⟨o, -, hmoves⟩ := Coordinator.start_moves hgate
  exact h.moves (h.gate.step hgate) hmoves (fun _ => rfl) nofun

theorem bodySettled (h : S.Invariant) (hstep : S.gate (.bodySettled n) = some S') :
    S'.Invariant := by
  obtain ⟨coordinator, hgate, rfl⟩ := gate_some hstep
  obtain ⟨o, hphase, hmoves⟩ := Coordinator.bodySettled_moves hgate
  have hnone := h.answer_none hmoves.operation (by rw [hphase]; decide)
  exact h.moves (h.gate.step hgate) hmoves (fun hanswer => absurd hnone hanswer) nofun

theorem releaseSlot (h : S.Invariant) (hstep : S.gate (.release n) = some S') :
    S'.Invariant := by
  obtain ⟨coordinator, hgate, rfl⟩ := gate_some hstep
  obtain ⟨o, hphase, hmoves⟩ := Coordinator.release_moves hgate
  have hnone := h.answer_none hmoves.operation (by rw [hphase]; decide)
  exact h.moves (h.gate.step hgate) hmoves (fun hanswer => absurd hnone hanswer) nofun

theorem complete (h : S.Invariant) (hstep : S.gate (.complete n) = some S') : S'.Invariant := by
  obtain ⟨coordinator, hgate, rfl⟩ := gate_some hstep
  obtain ⟨o, hphase, hmoves⟩ := Coordinator.complete_moves hgate
  have hnone := h.answer_none hmoves.operation (by rw [hphase]; decide)
  exact h.moves (h.gate.step hgate) hmoves (fun hanswer => absurd hnone hanswer) nofun

/-- The body is entered with the answer that the session is not revoked. -/
theorem revalidated (h : S.Invariant) (hstep : S.revalidated n = some S') : S'.Invariant := by
  obtain ⟨answer, hanswer, hstep⟩ := Option.bind_eq_some_iff.mp hstep
  obtain ⟨S₁, hmap, rfl⟩ := Option.map_eq_some_iff.mp hstep
  obtain ⟨coordinator, hgate, rfl⟩ := gate_some hmap
  obtain ⟨o, hphase, hmoves⟩ := Coordinator.revalidated_moves hgate
  have ho := hmoves.operation
  have hcleared : (S.setBody n { S.bodies n with answer := none }).Invariant := by
    refine h.setBody ho nofun (fun hm => ?_) fun x hx => h.executors n o x ho hx
    rcases hm with ⟨-, hfalse⟩ | hexecutor
    · cases hfalse
    · exact h.live n o ho (.inr (.inr hexecutor))
  -- The answer is taken before the operation moves on.
  have hnone : ((S.setBody n { S.bodies n with answer := none }).bodies n).answer = none := by
    show (Function.update S.bodies n _ n).answer = none
    rw [Function.update_self]
  refine hcleared.moves (h.gate.step hgate) hmoves (fun hanswer => absurd hnone hanswer)
    fun hrunning => ?_
  cases answer with
  | true => exact h.live n o ho (.inr (.inl ⟨hphase, hanswer⟩))
  | false => cases hrunning

/-! ## Sessions -/

theorem expire (h : S.Invariant) (id : String) : (S.expire id).Invariant :=
  { h with gate := h.gate }

theorem authenticate (h : S.Invariant) (hstep : S.authenticate id = some S') : S'.Invariant := by
  obtain ⟨row, hrow, rfl⟩ := Option.map_eq_some_iff.mp hstep
  obtain ⟨hrow, -⟩ := Option.filter_eq_some_iff.mp hrow
  have hid := Table.get?_key hrow
  refine { h with
    contexts := fun x hx => ?_
    operations := fun n o ho => List.mem_cons_of_mem _ (h.operations n o ho) }
  rcases List.mem_cons.mp hx with rfl | hx
  · exact ⟨row, hid ▸ hrow, rfl⟩
  · exact h.contexts x hx

/-- A new session is not revoked, and nothing is known of it. -/
theorem create (h : S.Invariant) {company : String} (hstep : S.create id company = some S') :
    S'.Invariant := by
  unfold DemoRuntime.create at hstep
  split at hstep
  swap
  · cases hstep
  rename_i hnew
  obtain ⟨hnone, hcompany, -, hunnamed⟩ := hnew
  cases hstep
  have hnone : S.sessions.get? (DemoSessionRow.id ⟨id, company, false⟩) = none :=
    Option.isNone_iff_eq_none.mp hnone
  have hcases : ∀ {k row}, (S.sessions.insert ⟨id, company, false⟩).get? k = some row →
      (k = id ∧ row = ⟨id, company, false⟩) ∨ (k ≠ id ∧ S.sessions.get? k = some row) := by
    intro k row hrow
    rw [Table.get?_insert hnone] at hrow
    split at hrow
    · rename_i hk
      exact .inl ⟨hk.symm, (Option.some.inj hrow).symm⟩
    · rename_i hk
      exact .inr ⟨Ne.symm hk, hrow⟩
  have hother : ∀ {k}, k ≠ id →
      (S.sessions.insert ⟨id, company, false⟩).get? k = S.sessions.get? k := by
    intro k hk
    rw [Table.get?_insert hnone, if_neg (Ne.symm hk)]
  have hkept : ∀ {k row}, S.sessions.get? k = some row →
      (S.sessions.insert ⟨id, company, false⟩).get? k = some row :=
    fun hrow => Table.get?_insert_of_some hrow
  -- The new session is not revoked, so nobody is newly revoked.
  have hrevoked : ∀ {k}, (∃ row, (S.sessions.insert ⟨id, company, false⟩).get? k = some row
      ∧ row.revoked = true) → S.revokedIn k := by
    rintro k ⟨row, hrow, htrue⟩
    rcases hcases hrow with ⟨-, rfl⟩ | ⟨-, hrow⟩
    · cases htrue
    · exact ⟨row, hrow, htrue⟩
  have hfar : ∀ {row}, row ∈ S.sessions.rows → row.companyCode ≠ company := by
    intro row hrow
    simpa using List.all_eq_true.mp hcompany row hrow
  -- No call and no reader names the new session.
  have hcl : ∀ {i : Nat} {cl : Clean}, S.reset.cleans[i]? = some cl → cl.sessionId ≠ id := by
    intro i cl hcl
    simpa using List.all_eq_true.mp hunnamed cl (List.mem_of_getElem? hcl)
  have hreader : ∀ {r : Nat} {reader : OutcomeReader}, S.reset.readers[r]? = some reader → reader.sessionId ≠ id := by
    intro r reader hr
    obtain ⟨e, he, hs⟩ := h.readers r reader hr
    obtain ⟨cl, hcl', hs', -⟩ := h.entries _ e he
    exact hs ▸ hs' ▸ hcl hcl'
  have hdurable : ∀ {k}, S.durable k → DemoRuntime.durable { S with
      sessions := S.sessions.insert ⟨id, company, false⟩
      contexts := ⟨id, company⟩ :: S.contexts } k := by
    rintro k ⟨row, hrow, hrest⟩
    exact ⟨row, hkept hrow, hrest⟩
  refine { h with
    companies := fun k k' row row' hrow hrow' hsame => ?_
    contexts := fun x hx => ?_
    operations := fun n o ho => List.mem_cons_of_mem _ (h.operations n o ho)
    live := fun n o ho hentered hin => h.live n o ho hentered (hrevoked hin)
    registered := fun s hs hin => h.registered s hs (hrevoked hin)
    executors := fun n o x ho hx => ?_
    locked := fun i cl hi hneeds => ?_
    company := fun i cl hi hreads => ?_
    committed := fun i cl hi hcommitted => hdurable (h.committed i cl hi hcommitted)
    unchanged := fun i cl hi hf hcommitted => ?_
    counting := fun r reader revoked company' hr hphase => ?_
    committing := fun r reader revoked remaining hr hphase => ?_
    finishes := fun f hf => ?_ }
  · rcases hcases hrow with ⟨rfl, rfl⟩ | ⟨-, hold⟩ <;>
      rcases hcases hrow' with ⟨rfl, rfl⟩ | ⟨-, hold'⟩
    · rfl
    · exact absurd hsame.symm (hfar (Table.get?_mem hold'))
    · exact absurd hsame (hfar (Table.get?_mem hold))
    · exact h.companies k k' row row' hold hold' hsame
  · rcases List.mem_cons.mp hx with rfl | hx
    · exact ⟨_, (Table.get?_insert hnone).trans (if_pos rfl), rfl⟩
    · obtain ⟨row, hrow, hcode⟩ := h.contexts x hx
      exact ⟨row, hkept hrow, hcode⟩
  · refine (h.executors n o x ho hx).imp_right ?_
    rintro ⟨row, hrow, htrue⟩
    exact ⟨row, hkept hrow, htrue⟩
  · rw [hother (hcl hi)]
    exact h.locked i cl hi hneeds
  · rw [hother (hcl hi)]
    exact h.company i cl hi hreads
  · unfold snapshot
    rw [hother (hcl hi)]
    exact h.unchanged i cl hi hf hcommitted
  · have hold := h.counting r reader revoked company' hr hphase
    unfold saw revokedIn at hold ⊢
    rw [hother (hreader hr)]
    exact hold
  · have hold := h.committing r reader revoked remaining hr hphase
    unfold saw revokedIn durable at hold ⊢
    rw [hother (hreader hr)]
    exact hold
  · obtain ⟨cl, hi, hadmissible, hcommitted, hrolledBack⟩ := h.finishes f hf
    exact ⟨cl, hi, hadmissible, fun hc => (hcommitted hc).imp_left hdurable, hrolledBack⟩

/-! ## What a body does -/

/-- Only the session of the operation has its company. -/
theorem far (h : S.Invariant) (ho : S.coordinator.operations[n]? = some o) {row : DemoSessionRow}
    (hrow : S.sessions.get? id = some row) (hid : id ≠ o.session.sessionId) :
    row.companyCode ≠ o.session.companyCode := by
  intro hcode
  obtain ⟨row', hrow', hcode'⟩ := h.contexts _ (h.operations n o ho)
  exact hid (h.companies _ _ _ _ hrow hrow' (hcode.trans hcode'.symm))

/-! ### Writes -/

theorem write (h : S.Invariant) {w : Write} (hstep : S.write n w = some S') : S'.Invariant := by
  obtain ⟨o, hfilter, rfl⟩ := Option.map_eq_some_iff.mp hstep
  obtain ⟨hbody, hwithin⟩ := Option.filter_eq_some_iff.mp hfilter
  have hlive := h.running hbody
  obtain ⟨ho, hphase⟩ := inBody_some hbody
  have hadmitted : o.admitted = true := by simp [Operation.admitted, hphase]
  -- What another company owns is as before.
  have howned : ∀ {k row}, S.sessions.get? k = some row → k ≠ o.session.sessionId →
      (S.store.apply w).ownedBy row.companyCode = S.store.ownedBy row.companyCode :=
    fun hrow hk => (Store.sameOwned_apply hwithin (h.far ho hrow hk)).ownedBy
  have hdurable_iff : ∀ {k}, k ≠ o.session.sessionId →
      (durable { S with store := S.store.apply w } k ↔ S.durable k) := by
    intro k hk
    refine exists_congr fun row => and_congr_right fun hrow => and_congr_right fun _ => ?_
    rw [Store.seriesIds_eq, Store.seriesIds_eq, howned hrow hk]
  -- A session that is durably reset is revoked, so it is not the one of this operation.
  have hdurable : ∀ {k}, S.durable k → durable { S with store := S.store.apply w } k := by
    intro k hk
    refine (hdurable_iff ?_).mpr hk
    rintro rfl
    exact hlive (revokedIn_of_durable hk)
  refine { h with
    committed := fun i cl hi hcommitted => hdurable (h.committed i cl hi hcommitted)
    unchanged := fun i cl hi hf hcommitted => ?_
    committing := fun r reader revoked remaining hr hphase => ?_
    finishes := fun f hf => ?_ }
  · -- A session that is being reset has no admitted operation, so this is not its company.
    rw [← h.unchanged i cl hi hf hcommitted]
    unfold snapshot
    congr 1
    cases hrow : S.sessions.get? cl.sessionId with
    | none => rfl
    | some row => exact congrArg some (howned hrow (h.idle hi hf ho hadmitted))
  · -- Nor is it the company of the session that the reader looks at.
    obtain ⟨hsaw, hempty, hsome⟩ := h.committing r reader revoked remaining hr hphase
    refine ⟨hsaw, fun hb hrem => hdurable (hempty hb hrem), fun cl hcl hrem hd => hsome cl hcl hrem ?_⟩
    obtain ⟨e, he, hi, hf⟩ := hcl
    obtain ⟨e', he', hs⟩ := h.readers r reader hr
    obtain rfl := Option.some.inj (he.symm.trans he')
    obtain ⟨cl', hi', hs', -⟩ := h.entries _ e he
    obtain rfl := Option.some.inj (hi.symm.trans hi')
    exact (hdurable_iff (hs ▸ hs' ▸ h.idle hi hf ho hadmitted)).mp hd
  · obtain ⟨cl, hi, hadmissible, hcommitted, hrolledBack⟩ := h.finishes f hf
    exact ⟨cl, hi, hadmissible, fun hc => (hcommitted hc).imp_left hdurable, hrolledBack⟩

/-! ### The executors -/

/-- The executor of an operation in its body is the one of its session. -/
theorem owns (h : S.Invariant) (hbody : S.inBody n = some o) {x : Nat}
    (hx : (S.bodies n).executor = some x) :
    S.registry.executor? o.session.sessionId = some x :=
  (h.executors n o x (inBody_some hbody).1 hx).resolve_right (h.running hbody)

theorem useExecutor (h : S.Invariant) {call : FakeCall}
    (hstep : S.useExecutor n call = some S') : S'.Invariant := by
  obtain ⟨o, hbody, hstep⟩ := Option.bind_eq_some_iff.mp hstep
  obtain ⟨x, hx, rfl⟩ := Option.map_eq_some_iff.mp hstep
  have howns := h.owns hbody hx
  obtain ⟨ho, hphase⟩ := inBody_some hbody
  -- The executor is that of the operation's session, and a session being reset is another one.
  refine { h with unchanged := fun i cl hi hf hcommitted => ?_ }
  rw [← h.unchanged i cl hi hf hcommitted]
  unfold snapshot
  congr 1
  cases hy : S.registry.executor? cl.sessionId with
  | none => rfl
  | some y =>
      obtain ⟨e, he, rfl⟩ := Option.map_eq_some_iff.mp howns
      obtain ⟨e', he', rfl⟩ := Option.map_eq_some_iff.mp hy
      have hne : e'.executor ≠ e.executor := fun hsame =>
        h.idle hi hf ho (by simp [Operation.admitted, hphase]) (h.distinct _ _ _ _ he' he hsame)
      exact congrArg some (Function.update_of_ne hne _ _)

theorem executor?_insert {registry : DemoExecutorRegistry} {s : String} {x : Nat}
    (hnone : registry.instances.get? s = none) (assigned : List Nat) (k : String) :
    (DemoExecutorRegistry.mk (registry.instances.insert ⟨s, x⟩) assigned
      registry.capacity).executor? k = if s = k then some x else registry.executor? k := by
  have hnone : registry.instances.get? (RegistryEntry.sessionId ⟨s, x⟩) = none := hnone
  unfold DemoExecutorRegistry.executor?
  rw [Table.get?_insert hnone]
  split
  · rfl
  · rfl

/-! ### Registrations -/

/-- A new executor for a session that has none. -/
theorem register (h : S.Invariant) (ho : S.coordinator.operations[n]? = some o)
    (hadmitted : o.admitted = true) (hlive : ¬ S.revokedIn o.session.sessionId) {x : Nat}
    (hnone : S.registry.instances.get? o.session.sessionId = none)
    (hroom : S.registry.instances.rows.length < S.registry.capacity)
    (hx : x ∉ S.registry.assigned) :
    { S with registry := ⟨S.registry.instances.insert ⟨o.session.sessionId, x⟩,
      x :: S.registry.assigned, S.registry.capacity⟩ }.Invariant := by
  have hexecutor := executor?_insert (x := x) hnone (x :: S.registry.assigned)
  have hnone' : S.registry.instances.get? (RegistryEntry.sessionId ⟨o.session.sessionId, x⟩) = none :=
    hnone
  -- The entries are those of before and the new one.
  have hcases : ∀ {k e}, (S.registry.instances.insert ⟨o.session.sessionId, x⟩).get? k = some e →
      (k = o.session.sessionId ∧ e.executor = x)
        ∨ S.registry.instances.get? k = some e := by
    intro k e he
    rw [Table.get?_insert hnone'] at he
    split at he
    · rename_i hk
      cases he
      exact .inl ⟨hk.symm, rfl⟩
    · exact .inr he
  refine { h with
    assigned := fun s e he => ?_
    distinct := fun s s' e e' he he' hsame => ?_
    capacity := ?_
    registered := fun s hs hrevoked => ?_
    executors := fun m y z hy hz => ?_
    unchanged := fun i cl hi hf hcommitted => ?_
    finishes := fun f hf => ?_ }
  · rcases hcases he with ⟨-, hex⟩ | hold
    · exact hex ▸ List.mem_cons_self
    · exact List.mem_cons_of_mem _ (h.assigned s e hold)
  · -- A new executor is none that was assigned before.
    rcases hcases he with ⟨hs, hex⟩ | hold <;> rcases hcases he' with ⟨hs', hex'⟩ | hold'
    · exact hs.trans hs'.symm
    · exact absurd (h.assigned s' e' hold') (hsame ▸ hex ▸ hx)
    · exact absurd (h.assigned s e hold) (hsame ▸ hex' ▸ hx)
    · exact h.distinct s s' e e' hold hold' hsame
  · show (S.registry.instances.insert _).rows.length ≤ S.registry.capacity
    rw [Table.length_insert hnone']
    exact hroom
  · rw [hexecutor] at hs
    split at hs
    · -- The session of the operation is not revoked.
      rename_i hk
      exact absurd hrevoked (hk ▸ hlive)
    · exact h.registered s hs hrevoked
  · refine (h.executors m y z hy hz).imp_left fun hold => ?_
    rw [hexecutor, if_neg, hold]
    intro hk
    rw [← hk, DemoExecutorRegistry.executor?, hnone] at hold
    cases hold
  · -- A session that is being reset is not the one of the operation.
    rw [← h.unchanged i cl hi hf hcommitted]
    unfold snapshot
    rw [hexecutor, if_neg (Ne.symm (h.idle hi hf ho hadmitted))]
  · obtain ⟨cl, hi, hadmissible, hcommitted, hrolledBack⟩ := h.finishes f hf
    -- A session that was finished as committed is revoked, so it gets no executor here.
    refine ⟨cl, hi, hadmissible, fun hc => ?_, hrolledBack⟩
    obtain ⟨hdurable, hgone⟩ := hcommitted hc
    refine ⟨hdurable, ?_⟩
    rw [hexecutor, if_neg, hgone]
    rintro hk
    exact hlive (hk ▸ revokedIn_of_durable hdurable)

theorem forSession_ok {registry registry' : DemoExecutorRegistry} {s : String} {created x : Nat}
    (h : registry.forSession s created = .ok (x, registry')) :
    (registry' = registry ∧ registry.executor? s = some x)
      ∨ (x = created ∧ registry.instances.get? s = none
        ∧ registry.instances.rows.length < registry.capacity ∧ created ∉ registry.assigned
        ∧ registry' = ⟨registry.instances.insert ⟨s, created⟩, created :: registry.assigned,
          registry.capacity⟩) := by
  unfold DemoExecutorRegistry.forSession at h
  split at h
  · rename_i e he
    cases h
    exact .inl ⟨rfl, by rw [DemoExecutorRegistry.executor?, he]; rfl⟩
  · rename_i hnone
    split at h
    · cases h
    · rename_i hroom
      split at h
      · cases h
      · rename_i hnew
        cases h
        exact .inr ⟨rfl, hnone, Nat.not_le.mp hroom, hnew, rfl⟩

theorem forSession (h : S.Invariant) {created : Nat} (hstep : S.forSession n created = some S') :
    S'.Invariant := by
  obtain ⟨o, hbody, hstep⟩ := Option.bind_eq_some_iff.mp hstep
  obtain ⟨valid, -, rfl⟩ := Option.map_eq_some_iff.mp hstep
  have hlive := h.running hbody
  obtain ⟨ho, hphase⟩ := inBody_some hbody
  -- The answer is consumed in any case.
  have hcleared : (S.setBody n { S.bodies n with lookup := none }).Invariant :=
    h.setBody ho (fun hm => h.answered n o ho hm) (fun _ => hlive)
      fun x hx => h.executors n o x ho hx
  have hanswer : ∀ {registry : DemoExecutorRegistry}, (({ S.setBody n
      { S.bodies n with lookup := none } with registry }.bodies n).answer ≠ none →
        o.phase = .revalidating) := by
    intro registry hm
    exact hcleared.answered n o ho hm
  dsimp only
  cases valid with
  | false => exact hcleared
  | true =>
      rw [if_pos rfl]
      split
      · rename_i x registry hregistry
        -- The one of the session, or a new one.
        rcases forSession_ok hregistry with ⟨rfl, hx⟩ | ⟨rfl, hnone, hroom, hnew, rfl⟩
        · exact hcleared.setBody ho hanswer (fun _ => hlive)
            fun y hy => .inl (Option.some.inj hy ▸ hx)
        · have hadmitted : o.admitted = true := by simp [Operation.admitted, hphase]
          refine (hcleared.register ho hadmitted hlive hnone hroom hnew).setBody ho hanswer
            (fun _ => hlive) fun y hy => .inl ?_
          cases hy
          exact (executor?_insert hnone _ _).trans (if_pos rfl)
      · exact hcleared

end Invariant

end DemoRuntime

end CostEngine
