import CostEngine.Demo.RuntimeSteps

/-! # What a step of the runtime changes

Of the reservations, the pending map and the registry of the executors. -/

namespace CostEngine

open Relational (Table)

/-! ## What is watched -/

def PendingReset.about (e : PendingReset) : Nat × String := (e.reservation, e.sessionId)

def Clean.about (cl : Clean) : String × Bool := (cl.sessionId, cl.active)

namespace DemoRuntime

variable {S S' S'' : DemoRuntime} {i j k n r : Nat} {cl cl' : Clean} {id : String}
  {reader reader' : OutcomeReader} {committed : Bool} {event : DemoEvent}

/-! ## The kinds of change -/

/-- Nothing is reserved, parked or finished. -/
structure Quiet (S S' : DemoRuntime) : Prop where
  resets : S'.coordinator.resets = S.coordinator.resets
  finished : S'.finished = S.finished
  invalid : S'.invalidFinishes = S.invalidFinishes
  pending : S'.reset.pending = S.reset.pending
  entries : S'.reset.entries.map (·.about) = S.reset.entries.map (·.about)
  cleans : S'.reset.cleans.map (·.about) = S.reset.cleans.map (·.about)

/-- Reservation `i`, of `cl`, is given back. -/
structure Finishes (S S' : DemoRuntime) (i : Nat) (cl : Clean) (committed : Bool) : Prop where
  clean : S.reset.cleans[i]? = some cl
  current : ¬ S.isFinished i
  resets : S'.coordinator.resets = S.coordinator.resets.erase cl.sessionId
  finished : ∃ f, S'.finished = S.finished ++ [f] ∧ f.reservation = i ∧ f.committed = committed
  invalid : S'.invalidFinishes = S.invalidFinishes
  pending : S'.reset.pending = S.reset.pending.erase cl.sessionId
  entries : S'.reset.entries.map (·.about) = S.reset.entries.map (·.about)
  cleans : ∃ on, S'.reset.cleans.map (·.about)
    = (S.reset.cleans.map (·.about)).set i (cl.sessionId, on)
  registry : S'.registry = if committed then S.registry.releaseSession cl.sessionId else S.registry

/-- `finish` is called for reservation `i`, which was finished before. -/
structure Misses (S S' : DemoRuntime) (i : Nat) (cl : Clean) (committed : Bool) : Prop where
  clean : S.reset.cleans[i]? = some cl
  stale : S.isFinished i
  resets : S'.coordinator.resets = S.coordinator.resets
  finished : S'.finished = S.finished
  invalid : S'.invalidFinishes = S.invalidFinishes ++ [i]
  pending : S'.reset.pending = S.reset.pending.erase cl.sessionId
  entries : S'.reset.entries.map (·.about) = S.reset.entries.map (·.about)
  cleans : S'.reset.cleans.map (·.about) = S.reset.cleans.map (·.about)
  registry : S'.registry = if committed then S.registry.releaseSession cl.sessionId else S.registry
  durable : committed = true → S.durable cl.sessionId ∧ S'.durable cl.sessionId

/-- `id` is reserved for a new call of `clean`. -/
structure Reserves (S S' : DemoRuntime) (id : String) : Prop where
  free : S.coordinator.resets.get? id = none
  resets : S'.coordinator.resets = S.coordinator.resets.insert ⟨id, S.reset.cleans.length⟩
  finished : S'.finished = S.finished
  invalid : S'.invalidFinishes = S.invalidFinishes
  pending : S'.reset.pending = S.reset.pending
  entries : S'.reset.entries = S.reset.entries
  cleans : S'.reset.cleans.map (·.about) = S.reset.cleans.map (·.about) ++ [(id, true)]

/-- Call `i` hands its reservation over to the pending map. -/
structure Parks (S S' : DemoRuntime) (i : Nat) (cl : Clean) : Prop where
  clean : S.reset.cleans[i]? = some cl
  on : cl.active = true
  resets : S'.coordinator.resets = S.coordinator.resets
  finished : S'.finished = S.finished
  invalid : S'.invalidFinishes = S.invalidFinishes
  pending : S'.reset.pending = S.reset.pending.set ⟨cl.sessionId, S.reset.entries.length⟩
  entries : S'.reset.entries.map (·.about) = S.reset.entries.map (·.about) ++ [(i, cl.sessionId)]
  cleans : S'.reset.cleans.map (·.about)
    = (S.reset.cleans.map (·.about)).set i (cl.sessionId, false)

/-! ### Verdicts -/

/-- A verdict is reached for entry `k`, and `finish` is called for it. -/
def decides (S : DemoRuntime) (event : DemoEvent) (k : Nat) : Prop :=
  ∃ r reader revoked remaining, event = .read r ∧ S.reset.readers[r]? = some reader
    ∧ reader.phase = .committing (some revoked) remaining ∧ reader.entry = k
    ∧ ∀ e, S.reset.entries[k]? = some e → (revoked && remaining && !e.inactive) = false

/-! ### One step -/

inductive Change (S : DemoRuntime) (event : DemoEvent) (S' : DemoRuntime) : Prop
  | quiet (quiet : S.Quiet S') (registry : S'.registry = S.registry)
  | registers (n : Nat) (o : Operation) (created x : Nat) (quiet : S.Quiet S')
      (inBody : S.inBody n = some o)
      (ok : S.registry.forSession o.session.sessionId created = .ok (x, S'.registry))
  | reserves (id : String) (reserves : S.Reserves S' id) (registry : S'.registry = S.registry)
  | parks (i : Nat) (cl : Clean) (parks : S.Parks S' i cl) (registry : S'.registry = S.registry)
  | finishes (i : Nat) (cl : Clean) (committed : Bool) (finishes : S.Finishes S' i cl committed)
  | misses (i : Nat) (cl : Clean) (committed : Bool) (misses : S.Misses S' i cl committed)
      (k : Nat) (e : PendingReset) (entry : S.reset.entries[k]? = some e)
      (reservation : e.reservation = i) (decides : S.decides event k)

/-! ## Small steps -/

theorem Quiet.refl (S : DemoRuntime) : S.Quiet S := ⟨rfl, rfl, rfl, rfl, rfl, rfl⟩

/-! ### Quiet updates -/

theorem Quiet.trans (h : S.Quiet S') (h' : S'.Quiet S'') : S.Quiet S'' where
  resets := h'.resets.trans h.resets
  finished := h'.finished.trans h.finished
  invalid := h'.invalid.trans h.invalid
  pending := h'.pending.trans h.pending
  entries := h'.entries.trans h.entries
  cleans := h'.cleans.trans h.cleans

theorem about_setClean (i : Nat) (cl' : Clean) :
    (S.setClean i cl').reset.cleans.map (·.about)
      = (S.reset.cleans.map (·.about)).set i cl'.about := List.map_set

theorem about_self (hcl : S.reset.cleans[i]? = some cl) :
    (S.reset.cleans.map (·.about)).set i cl.about = S.reset.cleans.map (·.about) := by
  have hself := congrArg (fun S : DemoRuntime => S.reset.cleans.map (·.about)) (setClean_self hcl)
  exact (about_setClean i cl).symm.trans hself

theorem Quiet.setClean (hcl : S.reset.cleans[i]? = some cl) (habout : cl'.about = cl.about) :
    S.Quiet (S.setClean i cl') :=
  ⟨rfl, rfl, rfl, rfl, rfl, (about_setClean i cl').trans (habout ▸ about_self hcl)⟩

theorem Quiet.setReader (r : Nat) (reader : OutcomeReader) : S.Quiet (S.setReader r reader) :=
  ⟨rfl, rfl, rfl, rfl, rfl, rfl⟩

theorem Quiet.setLock (id : String) (lock : Option SessionLock) : S.Quiet (S.setLock id lock) :=
  ⟨rfl, rfl, rfl, rfl, rfl, rfl⟩

theorem map_set_same {α β : Type} {f : α → β} {l : List α} {a a' : α} (ha : l[k]? = some a)
    (hf : f a' = f a) : (l.set k a').map f = l.map f := by
  obtain ⟨hk, hget⟩ := List.getElem?_eq_some_iff.mp ha
  rw [List.map_set, hf, ← hget, ← List.map_set, List.set_getElem_self]

/-! ### Resolutions and rollbacks -/

theorem Quiet.resolve (S : DemoRuntime) (k : Nat) : S.Quiet (S.resolve k).2 := by
  unfold DemoRuntime.resolve
  split
  · exact .refl S
  · rename_i e he
    split
    · -- Only the field `resolving` of the entry is set.
      exact .refl S
    · exact ⟨rfl, rfl, rfl, rfl, map_set_same he rfl, rfl⟩

theorem resolve_registry (S : DemoRuntime) (k : Nat) : (S.resolve k).2.registry = S.registry := by
  unfold DemoRuntime.resolve
  split
  · rfl
  · split
    · rfl
    · rfl

theorem Quiet.abortTransaction (hcl : S.reset.cleans[i]? = some cl) :
    S.Quiet (S.abortTransaction i cl) ∧ (S.abortTransaction i cl).registry = S.registry
      ∧ (S.abortTransaction i cl).reset.cleans[i]? = some { cl with transaction := .aborted } := by
  unfold DemoRuntime.abortTransaction
  split
  · -- The row lock is given back first, if the call holds it.
    have hlocked : (S.setLock cl.sessionId none).reset.cleans[i]? = some cl := hcl
    exact ⟨(Quiet.setLock _ _).trans (.setClean hlocked rfl), rfl,
      (getElem?_setClean hlocked i).trans (if_pos rfl)⟩
  · exact ⟨Quiet.setClean hcl rfl, rfl, (getElem?_setClean hcl i).trans (if_pos rfl)⟩

theorem Quiet.isFinished (h : S.Quiet S') : S'.isFinished i ↔ S.isFinished i := by
  unfold DemoRuntime.isFinished
  rw [h.finished]

/-! ### Updates of a call -/

theorem Change.setClean (hcl : S.reset.cleans[i]? = some cl) (habout : cl'.about = cl.about) :
    S.Change event (S.setClean i cl') :=
  .quiet (.setClean hcl habout) rfl

/-! ## `finish` -/

/-- `finish` for the current reservation, after quiet steps, and the end of its call. -/
theorem Finishes.of_finish (h : S'.Invariant) (hquiet : S.Quiet S')
    (hregistry : S'.registry = S.registry) (hcl : S.reset.cleans[i]? = some cl)
    {cl₁ : Clean} (hcl₁ : S'.reset.cleans[i]? = some cl₁) (hsession : cl₁.sessionId = cl.sessionId)
    (hsession' : cl'.sessionId = cl.sessionId) (hi : ¬ S.isFinished i) (committed : Bool) :
    S.Finishes ((S'.finish i committed).2.setClean i cl') i cl committed := by
  have hi₁ : ¬ S'.isFinished i := hquiet.isFinished.not.mpr hi
  rw [h.finish_eq hcl₁ hi₁, hsession]
  -- Both tables lose the session of the call, and the registry only after a commit.
  refine ⟨hcl, hi, ?_, ⟨_, congrArg (· ++ _) hquiet.finished, rfl, rfl⟩, hquiet.invalid, ?_,
    hquiet.entries, ⟨cl'.active, ?_⟩, ?_⟩
  · exact congrArg (·.erase cl.sessionId) hquiet.resets
  · exact congrArg (·.erase cl.sessionId) hquiet.pending
  · refine (about_setClean (S := S') i cl').trans ?_
    rw [hquiet.cleans, Clean.about, hsession']
  · dsimp only [DemoRuntime.setClean]
    rw [hregistry]

/-- `finish` for a reservation that is not the current one. -/
theorem Misses.of_finish (h : S.Invariant) (hcl : S.reset.cleans[i]? = some cl)
    (hi : S.isFinished i) (committed : Bool) (hdurable : committed = true → S.durable cl.sessionId) :
    S.Misses (S.finish i committed).2 i cl committed := by
  rw [h.finish_stale hcl hi]
  exact ⟨hcl, hi, rfl, rfl, rfl, rfl, rfl, rfl, rfl, fun hc => ⟨hdurable hc, hdurable hc⟩⟩

namespace Invariant

/-! ## The steps of a call -/

theorem change_finishRolledBack (h : S'.Invariant) (hquiet : S.Quiet S')
    (hregistry : S'.registry = S.registry) (hcl : S.reset.cleans[i]? = some cl)
    (hcl' : S'.reset.cleans[i]? = some cl') (hsession : cl'.sessionId = cl.sessionId)
    (hi : ¬ S.isFinished i) (error : DemoError) :
    S.Change event (S'.finishRolledBack i cl' error) := by
  obtain ⟨hreservation, -⟩ := h.reserved i cl' hcl'
  unfold DemoRuntime.finishRolledBack
  rw [hreservation]
  dsimp only
  refine .finishes i cl false (.of_finish h hquiet hregistry hcl hcl' hsession ?_ hi false)
  exact hsession

theorem change_markPending (h : S.Invariant) (hcl : S.reset.cleans[i]? = some cl)
    (hon : cl.active = true) : S.Change event (S.markPending i cl) := by
  obtain ⟨hreservation, -⟩ := h.reserved i cl hcl
  rw [markPending_eq]
  refine .parks i cl ⟨hcl, hon, rfl, rfl, rfl, rfl, ?_, ?_⟩ rfl
  · dsimp only
    rw [List.map_append, hreservation]
    rfl
  · exact List.map_set

/-! ### What a call waits for arrives -/

theorem change_advance (h : S.Invariant) (hstep : S.advance i = some S') : S.Change event S' := by
  unfold DemoRuntime.advance at hstep
  split at hstep
  · cases hstep
  rename_i cl hcl
  -- Most phases go on to the next one, and the call stays active.
  have hquiet : ∀ {cl' : Clean}, cl'.about = cl.about → S.Change event (S.setClean i cl') :=
    fun habout => .setClean hcl habout
  obtain ⟨hreservation, -⟩ := h.reserved i cl hcl
  split at hstep
  · rename_i hphase
    cases hstep
    exact hquiet (by simp [Clean.about, Clean.active, hphase])
  · rename_i hphase
    cases hstep
    exact hquiet (by simp [Clean.about, Clean.active, hphase])
  · rename_i hphase
    split at hstep
    · cases hstep
      exact hquiet (by simp [Clean.about, Clean.active, hphase])
    · cases hstep
  · rename_i hphase
    split at hstep
    swap
    · cases hstep
    split at hstep
    · cases hstep
      exact hquiet (by simp [Clean.about, Clean.active, hphase])
    · cases hstep
      exact hquiet (by simp [Clean.about, Clean.active, hphase])
  · rename_i k hphase
    split at hstep
    swap
    · cases hstep
    cases hstep
    refine hquiet ?_
    -- Every statement leaves the call in its transaction.
    unfold DemoRuntime.deleteStatement
    split
    · split
      · simp [Clean.about, Clean.active, hphase]
      · simp [Clean.about, Clean.active, hphase]
    · simp [Clean.about, Clean.active, hphase]
    · simp [Clean.about, Clean.active, hphase]
    · simp [Clean.about, Clean.active, hphase]
    · split
      · simp [Clean.about, Clean.active, hphase]
      · simp [Clean.about, Clean.active, hphase]
  · rename_i hphase
    split at hstep
    · cases hstep
      exact hquiet (by simp [Clean.about, Clean.active, hphase])
    · cases hstep
  · rename_i hphase
    cases hstep
    exact hquiet (by simp [Clean.about, Clean.active, hphase])
  · rename_i hphase
    -- `COMMIT` is acknowledged: the reservation is given back as committed.
    have hon : cl.active = true := by simp [Clean.active, hphase]
    have hi := h.active i cl hcl hon
    split at hstep
    swap
    · cases hstep
    have htrue : (S.finish i true).1 = true := by rw [h.finish_eq hcl hi]
    rw [hreservation] at hstep
    dsimp only at hstep
    rw [htrue, if_pos rfl] at hstep
    cases hstep
    refine .finishes i cl true (.of_finish h (.refl S) rfl hcl hcl rfl ?_ hi true)
    rfl
  · rename_i error hphase
    -- `ROLLBACK` is acknowledged, and the reservation given back as rolled back.
    have hon : cl.active = true := by simp [Clean.active, hphase]
    have hi := h.active i cl hcl hon
    have hnot := h.not_committed hcl (h.not_sent hcl hon (by simp [hphase]))
    cases hstep
    obtain ⟨hquiet, hregistry, hcl'⟩ := Quiet.abortTransaction hcl
    exact (h.abortTransaction hcl hnot).change_finishRolledBack hquiet hregistry hcl hcl' rfl hi
      error
  · -- The call was parked before, and stays so.
    rename_i r hphase
    split at hstep
    · cases hstep
      exact hquiet (by simp [Clean.about, Clean.active, hphase])
    · cases hstep
      exact hquiet (by simp [Clean.about, Clean.active, hphase])
    · cases hstep
      exact hquiet (by simp [Clean.about, Clean.active, hphase])
    · cases hstep
  · cases hstep

/-! ### What a call waits for fails -/

theorem change_fail (h : S.Invariant) {message : String} (hstep : S.fail i message = some S') :
    S.Change event S' := by
  unfold DemoRuntime.fail at hstep
  split at hstep
  · cases hstep
  rename_i cl hcl
  split at hstep
  · -- Without a connection nothing is to roll back.
    rename_i hphase
    cases hstep
    exact h.change_finishRolledBack (.refl S) rfl hcl hcl rfl
      (h.active i cl hcl (by simp [Clean.active, hphase])) _
  -- `COMMIT` and `ROLLBACK` are lost, and every other phase rolls back.
  all_goals rename_i hphase
  case h_8 =>
    cases hstep
    exact h.change_markPending hcl (by simp [Clean.active, hphase])
  case h_9 =>
    cases hstep
    exact h.change_markPending hcl (by simp [Clean.active, hphase])
  all_goals cases hstep
  all_goals exact .setClean hcl (by simp [Clean.about, Clean.active, hphase])

/-! ## The steps of a reader -/

theorem change_read (h : S.Invariant) (hstep : S.read r = some S') :
    S.Change (.read r) S' := by
  unfold DemoRuntime.read at hstep
  split at hstep
  · cases hstep
  rename_i reader hr
  split at hstep
  · -- Connecting, locking and counting change the reader only.
    cases hstep
    exact .quiet (.setReader r _) rfl
  · split at hstep
    · cases hstep
      exact .quiet (.setReader r _) rfl
    · split at hstep
      · cases hstep
        exact .quiet ((Quiet.setLock _ _).trans (.setReader r _)) rfl
      · cases hstep
  · split at hstep
    · cases hstep
      exact .quiet (.setReader r _) rfl
    · cases hstep
  · -- The verdict.
    rename_i revoked remaining hphase
    split at hstep
    · cases hstep
    cases hstep
    unfold DemoRuntime.verdict
    split
    swap
    · exact .quiet (.setReader r _) rfl
    rename_i e revoked he
    split
    · exact .quiet (.setReader r _) rfl
    -- The reader knows the outcome, so `finish` is called.
    rename_i hknown
    obtain ⟨cl, hcl, hsession, -⟩ := h.entries _ e he
    have hdurable : (revoked && !remaining) = true → S.durable cl.sessionId := by
      intro hc
      rw [Bool.and_eq_true, Bool.not_eq_true'] at hc
      obtain ⟨e', he', hs⟩ := h.readers r reader hr
      obtain rfl := Option.some.inj (he.symm.trans he')
      exact hsession ▸ hs ▸ (h.committing r reader revoked remaining hr hphase).2.1 hc.1 hc.2
    dsimp only
    -- It is this call that goes wrong when somebody else has finished the reservation.
    by_cases hi : S.isFinished e.reservation
    · have hmisses := Misses.of_finish h hcl hi (revoked && !remaining) hdurable
      refine .misses e.reservation cl (revoked && !remaining) ?_ reader.entry e he rfl
        ⟨r, reader, revoked, remaining, rfl, hr, hphase, rfl, fun e' he' => ?_⟩
      · obtain ⟨hcl, hi, hresets, hfinished, hinvalid, hpending, hentries, hcleans, hregistry,
          hdone⟩ := hmisses
        exact ⟨hcl, hi, hresets, hfinished, hinvalid, hpending, hentries, hcleans, hregistry, hdone⟩
      · obtain rfl := Option.some.inj (he.symm.trans he')
        simpa using hknown
    · have hfinishes := Finishes.of_finish h (.refl S) rfl hcl hcl rfl rfl hi
        (revoked && !remaining)
      rw [setClean_self (by rw [(readers_finish _ _).2.2]; exact hcl)] at hfinishes
      refine .finishes e.reservation cl (revoked && !remaining) ?_
      obtain ⟨hcl, hi, hresets, hfinished, hinvalid, hpending, hentries, hcleans, hregistry⟩ :=
        hfinishes
      exact ⟨hcl, hi, hresets, hfinished, hinvalid, hpending, hentries, hcleans, hregistry⟩
  · -- The entry may be resolved again.
    split at hstep
    · cases hstep
    · rename_i e he
      cases hstep
      refine .quiet ⟨rfl, rfl, rfl, rfl, map_set_same he rfl, rfl⟩ rfl
  · cases hstep

/-! ## Every step -/

theorem change_beginClean {coordinator : Coordinator} (h : S.Invariant)
    {session : Option AuthenticatedDemoSession}
    (hreserve : S.coordinator.reserveCleanup id = .ok (n, coordinator))
    (hstep : S.beginClean (.ok (n, coordinator)) id session = some S') : S.Change event S' := by
  obtain ⟨hfree, -, -, rfl, rfl⟩ := Coordinator.reserveCleanup_ok hreserve
  cases hstep
  refine .reserves id ⟨hfree, ?_, rfl, rfl, rfl, rfl, List.map_append⟩ rfl
  rw [h.numbered]

/-- A step that leaves the gate's reservations and the reset service alone. -/
theorem change_gate {event' : GateEvent} (hstep : S.gate event' = some S')
    (hresets : ∀ coordinator, S.coordinator.step event' = some coordinator →
      coordinator.resets = S.coordinator.resets) : S.Change event S' := by
  obtain ⟨coordinator, hgate, rfl⟩ := gate_some hstep
  exact .quiet ⟨hresets _ hgate, rfl, rfl, rfl, rfl, rfl⟩ rfl

/-- Every step of the runtime. -/
theorem change (h : S.Invariant) (hstep : S.step event = some S') : S.Change event S' := by
  cases event with
  -- Sessions and their contexts are not watched.
  | create id company =>
      have hstep : S.create id company = some S' := hstep
      unfold DemoRuntime.create at hstep
      split at hstep
      · cases hstep
        exact .quiet ⟨rfl, rfl, rfl, rfl, rfl, rfl⟩ rfl
      · cases hstep
  | expire id =>
      cases hstep
      exact .quiet ⟨rfl, rfl, rfl, rfl, rfl, rfl⟩ rfl
  | authenticate id =>
      obtain ⟨row, -, rfl⟩ := Option.map_eq_some_iff.mp hstep
      exact .quiet ⟨rfl, rfl, rfl, rfl, rfl, rfl⟩ rfl
  -- A step of the gate.
  | run session =>
      exact change_gate hstep fun _ hgate => (Coordinator.run_joins hgate).2.resets
  | runParallel session =>
      exact change_gate hstep fun _ hgate => (Coordinator.runParallel_joins hgate).2.resets
  | startOperation n =>
      exact change_gate hstep fun _ hgate => (Coordinator.start_moves hgate).choose_spec.2.resets
  | revalidate n lost =>
      obtain ⟨o, -, rfl⟩ := Option.map_eq_some_iff.mp hstep
      exact .quiet ⟨rfl, rfl, rfl, rfl, rfl, rfl⟩ rfl
  | revalidated n =>
      obtain ⟨answer, -, hstep⟩ := Option.bind_eq_some_iff.mp hstep
      obtain ⟨S₁, hmap, rfl⟩ := Option.map_eq_some_iff.mp hstep
      obtain ⟨coordinator, hgate, rfl⟩ := gate_some hmap
      obtain ⟨o, -, hmoves⟩ := Coordinator.revalidated_moves hgate
      exact .quiet ⟨hmoves.resets, rfl, rfl, rfl, rfl, rfl⟩ rfl
  | lookup n lost =>
      obtain ⟨o, -, rfl⟩ := Option.map_eq_some_iff.mp hstep
      exact .quiet ⟨rfl, rfl, rfl, rfl, rfl, rfl⟩ rfl
  | forSession n created =>
      obtain ⟨o, ho, hstep⟩ := Option.bind_eq_some_iff.mp hstep
      obtain ⟨valid, -, rfl⟩ := Option.map_eq_some_iff.mp hstep
      dsimp only
      split
      · split
        · -- An executor is created, or the one of the session is used again.
          rename_i x registry hok
          exact .registers n o created x ⟨rfl, rfl, rfl, rfl, rfl, rfl⟩ ho hok
        · exact .quiet ⟨rfl, rfl, rfl, rfl, rfl, rfl⟩ rfl
      · exact .quiet ⟨rfl, rfl, rfl, rfl, rfl, rfl⟩ rfl
  | useExecutor n call =>
      obtain ⟨o, -, hstep⟩ := Option.bind_eq_some_iff.mp hstep
      obtain ⟨x, -, rfl⟩ := Option.map_eq_some_iff.mp hstep
      exact .quiet ⟨rfl, rfl, rfl, rfl, rfl, rfl⟩ rfl
  | write n w =>
      obtain ⟨o, -, rfl⟩ := Option.map_eq_some_iff.mp hstep
      exact .quiet ⟨rfl, rfl, rfl, rfl, rfl, rfl⟩ rfl
  | bodySettled n =>
      exact change_gate hstep fun _ hgate =>
        (Coordinator.bodySettled_moves hgate).choose_spec.2.resets
  | releaseSlot n =>
      exact change_gate hstep fun _ hgate => (Coordinator.release_moves hgate).choose_spec.2.resets
  | complete n =>
      exact change_gate hstep fun _ hgate => (Coordinator.complete_moves hgate).choose_spec.2.resets
  -- A reservation is made.
  | reset session =>
      have hstep : S.beginClean (S.coordinator.tryBeginReset (session ∈ S.contexts) session)
        session.sessionId (some session) = some S' := hstep
      cases hreserve : S.coordinator.tryBeginReset (session ∈ S.contexts) session with
      | error e =>
          rw [hreserve] at hstep
          cases hstep
      | ok reserved =>
          rw [hreserve] at hstep
          exact h.change_beginClean (Coordinator.tryBeginReset_ok hreserve) hstep
  | cleanup id =>
      have hstep : S.beginClean (S.coordinator.reserveCleanup id) id none = some S' := hstep
      cases hreserve : S.coordinator.reserveCleanup id with
      | error e =>
          rw [hreserve] at hstep
          cases hstep
      | ok reserved =>
          rw [hreserve] at hstep
          exact h.change_beginClean hreserve hstep
  | advance i => exact h.change_advance hstep
  | fail i message => exact h.change_fail hstep
  -- The transaction of a call, at the server.
  | lock i =>
      have hstep : S.lock i = some S' := hstep
      unfold DemoRuntime.lock at hstep
      split at hstep
      · cases hstep
      · split at hstep
        · cases hstep
          exact .quiet (.setLock _ _) rfl
        · cases hstep
  | commit i =>
      have hstep : S.commit i = some S' := hstep
      unfold DemoRuntime.commit at hstep
      split at hstep
      · cases hstep
      · rename_i cl hcl
        split at hstep
        · cases hstep
        · split at hstep
          · -- The commit itself gives nothing back: its answer is still on its way.
            cases hstep
            have hself := about_self hcl
            refine .quiet ⟨rfl, rfl, rfl, rfl, rfl, ?_⟩ rfl
            exact (about_setClean (S := S) i _).trans hself
          · cases hstep
  | abort i =>
      have hstep : S.abort i = some S' := hstep
      unfold DemoRuntime.abort at hstep
      split at hstep
      · cases hstep
      · rename_i cl hcl
        split at hstep
        · cases hstep
          obtain ⟨hquiet, hregistry, -⟩ := Quiet.abortTransaction hcl
          exact .quiet hquiet hregistry
        · cases hstep
  -- A recovery connection.
  | read r => exact h.change_read hstep
  | readFailed r =>
      have hstep : S.readFailed r = some S' := hstep
      unfold DemoRuntime.readFailed at hstep
      split at hstep
      · cases hstep
      · split at hstep
        all_goals cases hstep
        all_goals exact .quiet (.setReader r _) rfl
  | unlock r =>
      have hstep : S.unlock r = some S' := hstep
      unfold DemoRuntime.unlock at hstep
      split at hstep
      · cases hstep
      · split at hstep
        · cases hstep
          exact .quiet (.setLock _ _) rfl
        · cases hstep
  -- A pass.
  | recover limit =>
      have hstep : S.recover limit = some S' := hstep
      unfold DemoRuntime.recover at hstep
      split at hstep
      · cases hstep
        exact .quiet ⟨rfl, rfl, rfl, rfl, rfl, rfl⟩ rfl
      · cases hstep
  | next p =>
      have hstep : S.next p = some S' := hstep
      unfold DemoRuntime.next at hstep
      split at hstep
      · cases hstep
      · split at hstep
        · split at hstep
          · cases hstep
            exact .quiet ⟨rfl, rfl, rfl, rfl, rfl, rfl⟩ rfl
          · cases hstep
        · rename_i k entries _ _
          cases hstep
          obtain ⟨hresets, hfinished, hinvalid, hpending, hentries, hcleans⟩ := Quiet.resolve S k
          exact .quiet ⟨hresets, hfinished, hinvalid, hpending, hentries, hcleans⟩
            (resolve_registry S k)
        · cases hstep

/-! ## Executors -/

/-- While a session is reserved, no operation of it is admitted. -/
theorem reserved_idle (h : S.Invariant) (hs : S.coordinator.resets.get? id ≠ none) {o : Operation}
    (ho : S.coordinator.operations[n]? = some o) (hsession : o.session.sessionId = id) :
    o.admitted = false := by
  by_contra hadmitted
  obtain ⟨e, he, -⟩ := h.gate.slot n o.slot (Coordinator.slot_getElem? ho)
    (Bool.not_eq_false _ ▸ hadmitted)
  have he : S.coordinator.queues.get? o.session.sessionId = some e := he
  rw [hsession, h.gate.reserved id hs] at he
  cases he

/-! ### A release -/

/-- An executor is taken from the registry only when its session is durably reset, and then no
operation of the session is admitted. -/
theorem released (h : S.Invariant) (hstep : S.step event = some S') {x : Nat}
    (hx : S.registry.executor? id = some x) (hx' : S'.registry.executor? id ≠ some x) :
    S'.durable id ∧ S'.registry.executor? id = none
      ∧ ∀ (n : Nat) (o : Operation), S.coordinator.operations[n]? = some o →
        o.session.sessionId = id → o.admitted = false := by
  have h' := h.step hstep
  -- What is left of the registry, if a release of the session of `cl` is all that happened.
  have hrelease : ∀ {cl : Clean} {committed : Bool}, S'.registry
      = (if committed then S.registry.releaseSession cl.sessionId else S.registry) →
      committed = true ∧ id = cl.sessionId ∧ S'.registry.executor? id = none := by
    intro cl committed hregistry
    -- Only a verdict `committed` releases, and only the session of the call.
    rw [hregistry] at hx' ⊢
    cases committed with
    | false => exact absurd hx hx'
    | true =>
        rw [if_pos rfl, executor?_releaseSession] at hx' ⊢
        split at hx'
        · rename_i hs
          exact ⟨rfl, hs.symm, if_pos hs⟩
        · exact absurd hx hx'
  cases h.change hstep with
  | quiet _ hregistry => exact absurd (hregistry ▸ hx) hx'
  | registers n o created y _ hbody hok =>
      -- A new executor takes no place that is taken.
      rcases forSession_ok hok with ⟨hsame, -⟩ | ⟨-, hnone, -, -, hnew⟩
      · exact absurd (hsame ▸ hx) hx'
      · refine absurd ?_ hx'
        rw [hnew]
        obtain ⟨e, he, hex⟩ := Option.map_eq_some_iff.mp hx
        exact Option.map_eq_some_iff.mpr ⟨e, Table.get?_insert_of_some he, hex⟩
  | reserves _ _ hregistry => exact absurd (hregistry ▸ hx) hx'
  | parks _ _ _ hregistry => exact absurd (hregistry ▸ hx) hx'
  | finishes i cl committed hfinishes =>
      -- By the current reservation: its `finish` has recorded that the session is durably reset.
      obtain ⟨rfl, rfl, hgone⟩ := hrelease hfinishes.registry
      obtain ⟨f, hfinished, hi, hc⟩ := hfinishes.finished
      obtain ⟨cl', hcl', -, hdone, -⟩ := h'.finishes f
        (hfinished ▸ List.mem_append_right _ List.mem_cons_self)
      obtain ⟨on, habout⟩ := hfinishes.cleans
      have hsession : cl'.sessionId = cl.sessionId := by
        have hget := congrArg (fun l => l[i]?) habout
        rw [List.getElem?_map, ← hi, hcl', List.getElem?_set_self'] at hget
        rw [hi, List.getElem?_map, hfinishes.clean] at hget
        exact congrArg Prod.fst (Option.some.inj hget)
      refine ⟨hsession ▸ (hdone hc).1, hgone, fun n o ho hs => ?_⟩
      have hcurrent := (h.current i cl hfinishes.clean).mp hfinishes.current
      exact h.reserved_idle (Table.row_ne_none hcurrent) ho hs
  | misses i cl committed hmisses =>
      -- By a stale one. The session is reserved again, as it still has an executor.
      obtain ⟨hc, rfl, hgone⟩ := hrelease hmisses.registry
      obtain ⟨hd, hd'⟩ := hmisses.durable hc
      refine ⟨hd', hgone, fun n o ho hs => ?_⟩
      exact h.reserved_idle (h.registered _ (Table.row_ne_none hx) (revokedIn_of_durable hd)) ho hs

end Invariant

/-! ## The database and the executors -/

/-! ### What a step leaves alone -/

/-- The sessions, the rows of the companies and the executors are as before. -/
def SameWorld (S S' : DemoRuntime) : Prop :=
  S'.sessions = S.sessions ∧ S'.store = S.store ∧ S'.fakes = S.fakes

/-! ### The pieces of a step -/

theorem sameWorld_finish (i : Nat) (committed : Bool) :
    S.SameWorld (S.finish i committed).2 := by
  unfold DemoRuntime.finish
  dsimp only
  split
  · exact ⟨rfl, rfl, rfl⟩
  · exact ⟨rfl, rfl, rfl⟩

theorem sameWorld_resolve (k : Nat) : S.SameWorld (S.resolve k).2 := by
  unfold DemoRuntime.resolve
  split
  · exact ⟨rfl, rfl, rfl⟩
  · split
    · exact ⟨rfl, rfl, rfl⟩
    · exact ⟨rfl, rfl, rfl⟩

theorem sameWorld_markPending (i : Nat) (cl : Clean) : S.SameWorld (S.markPending i cl) := by
  rw [Invariant.markPending_eq]
  exact ⟨rfl, rfl, rfl⟩

theorem sameWorld_abortTransaction (i : Nat) (cl : Clean) :
    S.SameWorld (S.abortTransaction i cl) := by
  unfold DemoRuntime.abortTransaction
  split
  · exact ⟨rfl, rfl, rfl⟩
  · exact ⟨rfl, rfl, rfl⟩

theorem SameWorld.trans (h : S.SameWorld S') (h' : S'.SameWorld S'') :
    S.SameWorld S'' :=
  ⟨h'.1.trans h.1, h'.2.1.trans h.2.1, h'.2.2.trans h.2.2⟩

/-! ### The steps of calls and readers -/

theorem sameWorld_advance (hstep : S.advance i = some S') : S.SameWorld S' := by
  unfold DemoRuntime.advance at hstep
  split at hstep
  · cases hstep
  rename_i cl hcl
  split at hstep
  case h_8 =>
    have hfinish := sameWorld_finish (S := S) cl.reservation true
    split at hstep
    · dsimp only at hstep
      split at hstep
      · cases hstep
        exact hfinish
      · cases hstep
        exact hfinish.trans (sameWorld_markPending _ _)
    · cases hstep
  case h_9 =>
    cases hstep
    exact (sameWorld_abortTransaction _ _).trans (sameWorld_finish _ false)
  case h_4 =>
    split at hstep
    · split at hstep
      · cases hstep
        exact ⟨rfl, rfl, rfl⟩
      · cases hstep
        exact ⟨rfl, rfl, rfl⟩
    · cases hstep
  case h_10 =>
    split at hstep
    all_goals cases hstep
    all_goals exact ⟨rfl, rfl, rfl⟩
  case h_1 | h_2 | h_7 =>
    cases hstep
    exact ⟨rfl, rfl, rfl⟩
  case h_3 | h_5 | h_6 =>
    split at hstep
    · cases hstep
      exact ⟨rfl, rfl, rfl⟩
    · cases hstep
  case h_11 => cases hstep

theorem sameWorld_read (hstep : S.read r = some S') : S.SameWorld S' := by
  unfold DemoRuntime.read at hstep
  split at hstep
  · cases hstep
  split at hstep
  · cases hstep
    exact ⟨rfl, rfl, rfl⟩
  · split at hstep
    · cases hstep
      exact ⟨rfl, rfl, rfl⟩
    · split at hstep
      · cases hstep
        exact ⟨rfl, rfl, rfl⟩
      · cases hstep
  · split at hstep
    · cases hstep
      exact ⟨rfl, rfl, rfl⟩
    · cases hstep
  · split at hstep
    · cases hstep
    cases hstep
    unfold DemoRuntime.verdict
    split
    · split
      · exact ⟨rfl, rfl, rfl⟩
      · exact sameWorld_finish _ _
    · exact ⟨rfl, rfl, rfl⟩
  · split at hstep
    · cases hstep
    · cases hstep
      exact ⟨rfl, rfl, rfl⟩
  · cases hstep

/-! ### Every step -/

/-- Only a new session, an operation and the commit of a reset change them. -/
theorem sameWorld (hstep : S.step event = some S') : S.SameWorld S'
    ∨ (∃ id company, event = .create id company) ∨ (∃ n w, event = .write n w)
    ∨ (∃ n call, event = .useExecutor n call) ∨ ∃ i, event = .commit i := by
  -- The gate has none of them.
  have hgate : ∀ {event' S'}, S.gate event' = some S' → S.SameWorld S' := by
    intro event' S' hgate
    obtain ⟨coordinator, -, rfl⟩ := Invariant.gate_some hgate
    exact ⟨rfl, rfl, rfl⟩
  cases event with
  | create id company => exact .inr (.inl ⟨id, company, rfl⟩)
  | write n w => exact .inr (.inr (.inl ⟨n, w, rfl⟩))
  | useExecutor n call => exact .inr (.inr (.inr (.inl ⟨n, call, rfl⟩)))
  | commit i => exact .inr (.inr (.inr (.inr ⟨i, rfl⟩)))
  | expire id =>
      cases hstep
      exact .inl ⟨rfl, rfl, rfl⟩
  | authenticate id =>
      obtain ⟨row, -, rfl⟩ := Option.map_eq_some_iff.mp hstep
      exact .inl ⟨rfl, rfl, rfl⟩
  | revalidate n lost =>
      obtain ⟨o, -, rfl⟩ := Option.map_eq_some_iff.mp hstep
      exact .inl ⟨rfl, rfl, rfl⟩
  | revalidated n =>
      obtain ⟨answer, -, hstep⟩ := Option.bind_eq_some_iff.mp hstep
      obtain ⟨S₁, hmap, rfl⟩ := Option.map_eq_some_iff.mp hstep
      have hsame : S.SameWorld S₁ := hgate hmap
      exact .inl hsame
  | lookup n lost =>
      obtain ⟨o, -, rfl⟩ := Option.map_eq_some_iff.mp hstep
      exact .inl ⟨rfl, rfl, rfl⟩
  | forSession n created =>
      obtain ⟨o, -, hstep⟩ := Option.bind_eq_some_iff.mp hstep
      obtain ⟨valid, -, rfl⟩ := Option.map_eq_some_iff.mp hstep
      left
      dsimp only
      split
      · split
        · exact ⟨rfl, rfl, rfl⟩
        · exact ⟨rfl, rfl, rfl⟩
      · exact ⟨rfl, rfl, rfl⟩
  | reset session =>
      have hstep : S.beginClean (S.coordinator.tryBeginReset (session ∈ S.contexts) session)
        session.sessionId (some session) = some S' := hstep
      unfold DemoRuntime.beginClean at hstep
      split at hstep
      · cases hstep
      · cases hstep
        exact .inl ⟨rfl, rfl, rfl⟩
  | cleanup id =>
      have hstep : S.beginClean (S.coordinator.reserveCleanup id) id none = some S' := hstep
      unfold DemoRuntime.beginClean at hstep
      split at hstep
      · cases hstep
      · cases hstep
        exact .inl ⟨rfl, rfl, rfl⟩
  | advance i => exact .inl (sameWorld_advance hstep)
  | fail i message =>
      have hstep : S.fail i message = some S' := hstep
      unfold DemoRuntime.fail at hstep
      left
      split at hstep
      · cases hstep
      split at hstep
      case h_1 =>
        cases hstep
        exact sameWorld_finish _ false
      case h_8 | h_9 =>
        cases hstep
        exact sameWorld_markPending _ _
      all_goals cases hstep
      all_goals exact ⟨rfl, rfl, rfl⟩
  | lock i =>
      have hstep : S.lock i = some S' := hstep
      unfold DemoRuntime.lock at hstep
      split at hstep
      · cases hstep
      · split at hstep
        · cases hstep
          exact .inl ⟨rfl, rfl, rfl⟩
        · cases hstep
  | abort i =>
      have hstep : S.abort i = some S' := hstep
      unfold DemoRuntime.abort at hstep
      split at hstep
      · cases hstep
      · split at hstep
        · cases hstep
          exact .inl (sameWorld_abortTransaction _ _)
        · cases hstep
  | read r => exact .inl (sameWorld_read hstep)
  | readFailed r =>
      have hstep : S.readFailed r = some S' := hstep
      unfold DemoRuntime.readFailed at hstep
      left
      split at hstep
      · cases hstep
      · split at hstep
        all_goals cases hstep
        all_goals exact ⟨rfl, rfl, rfl⟩
  | unlock r =>
      have hstep : S.unlock r = some S' := hstep
      unfold DemoRuntime.unlock at hstep
      split at hstep
      · cases hstep
      · split at hstep
        · cases hstep
          exact .inl ⟨rfl, rfl, rfl⟩
        · cases hstep
  | recover limit =>
      have hstep : S.recover limit = some S' := hstep
      unfold DemoRuntime.recover at hstep
      split at hstep
      · cases hstep
        exact .inl ⟨rfl, rfl, rfl⟩
      · cases hstep
  | next p =>
      have hstep : S.next p = some S' := hstep
      unfold DemoRuntime.next at hstep
      left
      split at hstep
      · cases hstep
      · split at hstep
        · split at hstep
          · cases hstep
            exact ⟨rfl, rfl, rfl⟩
          · cases hstep
        · cases hstep
          exact sameWorld_resolve _
        · cases hstep
  | _ => exact .inl (hgate hstep)

namespace Invariant

/-! ### Durable resets -/

/-- A session that is durably reset stays so. -/
theorem durable_step (h : S.Invariant) (hstep : S.step event = some S') (hd : S.durable id) :
    S'.durable id := by
  obtain ⟨row, hrow, hrevoked, hseries⟩ := hd
  rcases sameWorld hstep with ⟨hsessions, hstore, -⟩ | ⟨id', company, rfl⟩ | ⟨n, w, rfl⟩
    | ⟨n, call, rfl⟩ | ⟨i, rfl⟩
  · exact ⟨row, hsessions ▸ hrow, hrevoked, hstore ▸ hseries⟩
  · -- A new session has a company of its own.
    have hstep : S.create id' company = some S' := hstep
    unfold DemoRuntime.create at hstep
    split at hstep
    · cases hstep
      exact ⟨row, Table.get?_insert_of_some hrow, hrevoked, hseries⟩
    · cases hstep
  · -- An operation works in its own session, which is not revoked.
    obtain ⟨o, hfilter, rfl⟩ := Option.map_eq_some_iff.mp hstep
    obtain ⟨hbody, hwithin⟩ := Option.filter_eq_some_iff.mp hfilter
    have hid : id ≠ o.session.sessionId := by
      rintro rfl
      exact h.running hbody ⟨row, hrow, hrevoked⟩
    have howned := (Store.sameOwned_apply hwithin (h.far (inBody_some hbody).1 hrow hid)).ownedBy
    refine ⟨row, hrow, hrevoked, ?_⟩
    rw [Store.seriesIds_eq] at hseries ⊢
    rw [← hseries]
    exact congrArg (fun rows => rows.series.map (·.id)) howned
  · -- Executors keep their own state.
    obtain ⟨o, -, hstep⟩ := Option.bind_eq_some_iff.mp hstep
    obtain ⟨x, -, rfl⟩ := Option.map_eq_some_iff.mp hstep
    exact ⟨row, hrow, hrevoked, hseries⟩
  · -- Another commit deletes more, and this one has nothing left to delete.
    have hstep : S.commit i = some S' := hstep
    unfold DemoRuntime.commit at hstep
    split at hstep
    · cases hstep
    rename_i cl hcl
    split at hstep
    · cases hstep
    rename_i row' hrow'
    split at hstep
    swap
    · cases hstep
    cases hstep
    have hempty : (S.store.deleteOwned cl.series cl.versions cl.jobs).seriesIds row.companyCode = [] := by
      refine List.eq_nil_iff_forall_not_mem.mpr fun k hk => ?_
      obtain ⟨series, hmem, -⟩ := List.mem_map.mp hk
      obtain ⟨hrows, hcompany⟩ := Table.mem_select.mp hmem
      have hold : series.id ∈ S.store.seriesIds row.companyCode :=
        List.mem_map_of_mem (Table.mem_select.mpr ⟨(Table.mem_delete.mp hrows).1, hcompany⟩)
      rw [hseries] at hold
      cases hold
    -- The session itself may be revoked once more.
    by_cases hid : row'.id = id
    · have hsame : row' = row := by
        rw [Table.get?_key hrow'] at hid
        exact Option.some.inj (hrow'.symm.trans (hid ▸ hrow))
      refine ⟨{ row' with revoked := true }, ?_, rfl, hsame ▸ hempty⟩
      refine Table.get?_put.trans ((if_pos hid).trans ?_)
      rw [hrow]
      rfl
    · refine ⟨row, ?_, hrevoked, hempty⟩
      exact Table.get?_put.trans ((if_neg hid).trans hrow)

theorem durable_runs (h : S.Invariant) {events : List DemoEvent} (hruns : DemoRuntime.runs events S = some S')
    (hd : S.durable id) : S'.durable id := by
  induction events generalizing S with
  | nil =>
      cases hruns
      exact hd
  | cons event events ih =>
      obtain ⟨S₁, hstep, hrest⟩ := Option.bind_eq_some_iff.mp hruns
      exact ih (h.step hstep) hrest (h.durable_step hstep hd)

end Invariant

/-! ## Runs -/

/-- The runtime when it is made. The sessions of its database have companies of their own. -/
def Starts (S : DemoRuntime) : Prop :=
  ∃ store sessions expired fakes coordinator registry,
    (∃ maxOperations maxSessions, Coordinator.new maxOperations maxSessions = .ok coordinator)
    ∧ (∃ maxExecutors, DemoExecutorRegistry.new maxExecutors = .ok registry)
    ∧ (∀ id id' row row', sessions.get? id = some row → sessions.get? id' = some row' →
      row.companyCode = row'.companyCode → id = id')
    ∧ S = start store sessions expired fakes coordinator registry

/-! ### The first state -/

theorem Starts.invariant (h : S.Starts) : S.Invariant := by
  obtain ⟨store, sessions, expired, fakes, coordinator, registry, ⟨a, b, hgate⟩, ⟨m, hregistry⟩,
    hcompanies, rfl⟩ := h
  have hgate' := Coordinator.new_ok hgate
  -- A new gate has no operations and no reservations.
  obtain ⟨hoperations, hreservations⟩ : coordinator.operations = []
      ∧ coordinator.reservations = [] := by
    unfold Coordinator.new at hgate
    split at hgate
    · cases hgate
      exact ⟨rfl, rfl⟩
    · cases hgate
  obtain rfl : registry = ⟨.empty, [], m⟩ := by
    unfold DemoExecutorRegistry.new at hregistry
    split at hregistry
    · cases hregistry
    · cases hregistry
      rfl
  constructor
  case gate => exact hgate'
  case companies => exact hcompanies
  case numbered => simp [start, hreservations]
  all_goals simp [start, hoperations, DemoExecutorRegistry.executor?]

theorem Starts.runs (h : S.Starts) {events : List DemoEvent} (hruns : runs events S = some S') :
    S'.Invariant := h.invariant.runs hruns

/-! ### An example -/

/-- Two sessions, with executors of their own to come. -/
def sampleStart : DemoRuntime :=
  start (.empty .empty .empty .empty)
    ((Table.empty.insert ⟨"a", "A", false⟩).insert ⟨"b", "B", false⟩) [] (fun _ => .new {})
    ⟨32, 1024, .empty, .empty, [], [], []⟩ ⟨.empty, [], 8⟩

theorem sampleStart_starts : sampleStart.Starts := by
  refine ⟨_, _, _, _, _, _, ⟨32, 1024, rfl⟩, ⟨8, rfl⟩, fun id id' row row' hrow hrow' hsame => ?_,
    rfl⟩
  have hcases : ∀ {id row}, ((Table.empty.insert ⟨"a", "A", false⟩).insert ⟨"b", "B", false⟩ :
      Table DemoSessionRow String (·.id)).get? id = some row →
      row = ⟨"a", "A", false⟩ ∨ row = ⟨"b", "B", false⟩ := by
    intro id row hrow
    have hmem := Table.get?_mem hrow
    simpa using (show row ∈ [_, _] from hmem)
  have hid := Table.get?_key hrow
  have hid' := Table.get?_key hrow'
  rcases hcases hrow with rfl | rfl <;> rcases hcases hrow' with rfl | rfl
  · exact hid.symm.trans hid'
  · exact absurd hsame (by decide)
  · exact absurd hsame (by decide)
  · exact hid.symm.trans hid'

end DemoRuntime

end CostEngine
