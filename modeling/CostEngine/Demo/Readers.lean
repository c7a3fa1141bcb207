import CostEngine.Demo.RuntimeChanges

/-! # One recovery connection at a time for an entry

So the reservation of a call that waits for its recovery connection cannot be finished by
another one. -/

namespace CostEngine

open Relational (Table)

/-- Its connection is not closed. -/
def ReaderPhase.atWork : ReaderPhase → Bool
  | .done _ => false
  | _ => true

/-- It has not come to a verdict, or to none. -/
def ReaderPhase.undecided : ReaderPhase → Bool
  | .ending outcome => outcome = .unknown
  | .done _ => false
  | _ => true

theorem ReaderPhase.atWork_of_undecided {phase : ReaderPhase} (h : phase.undecided = true) :
    phase.atWork = true := by
  cases phase with
  | done outcome => cases h
  | _ => rfl

namespace DemoRuntime

variable {S S' : DemoRuntime} {i j k n r : Nat} {cl cl' : Clean} {id : String}
  {reader reader' : OutcomeReader} {event : DemoEvent}

/-! ## What is attended to -/

structure Attended (S : DemoRuntime) : Prop where
  reader : ∀ (r : Nat) (reader : OutcomeReader), S.reset.readers[r]? = some reader →
    reader.phase.atWork = true →
    ∃ e, S.reset.entries[reader.entry]? = some e ∧ e.resolving = some r
  clean : ∀ (i : Nat) (cl : Clean) r (reader : OutcomeReader), S.reset.cleans[i]? = some cl →
    cl.phase = .resolving r → S.reset.readers[r]? = some reader →
    reader.phase.undecided = true → ¬ S.isFinished i
  once : (S.reset.entries.map (·.reservation)).Nodup

namespace Attended

/-! ### Steps that leave it alone -/

theorem of_same (h : S.Attended) (hreaders : S'.reset.readers = S.reset.readers)
    (hentries : S'.reset.entries = S.reset.entries)
    (hcleans : ∀ (i : Nat) (cl : Clean) r, S'.reset.cleans[i]? = some cl → cl.phase = .resolving r →
      (∃ cl, S.reset.cleans[i]? = some cl ∧ cl.phase = .resolving r)
        ∧ (S'.isFinished i → S.isFinished i)) : S'.Attended where
  reader r reader hr hwork := by
    rw [hentries]
    exact h.reader r reader (hreaders ▸ hr) hwork
  clean i cl r reader hcl hphase hr hundecided hi := by
    obtain ⟨⟨cl₀, hcl₀, hphase₀⟩, hfinished⟩ := hcleans i cl r hcl hphase
    exact h.clean i cl₀ r reader hcl₀ hphase₀ (hreaders ▸ hr) hundecided (hfinished hi)
  once := hentries ▸ h.once

/-- Nothing of the reset service and its reservations has changed. -/
theorem of_eq (h : S.Attended) (hreset : S'.reset = S.reset) (hfinished : S'.finished = S.finished) :
    S'.Attended := by
  refine h.of_same (hreset ▸ rfl) (hreset ▸ rfl) fun i cl r hcl hphase => ⟨⟨cl, hreset ▸ hcl, hphase⟩,
    fun hi => ?_⟩
  unfold isFinished at hi ⊢
  rwa [← hfinished]

/-- A call of `clean` goes on, and does not wait for a recovery connection. -/
theorem setClean (h : S.Attended) (hcl : S.reset.cleans[i]? = some cl)
    (hphase : ∀ r, cl'.phase = .resolving r → cl.phase = .resolving r) :
    (S.setClean i cl').Attended := by
  refine h.of_same rfl rfl fun j x r hx hp => ⟨?_, id⟩
  rw [getElem?_setClean hcl] at hx
  split at hx
  · rename_i hj
    cases hx
    exact ⟨cl, hj ▸ hcl, hphase r hp⟩
  · exact ⟨x, hx, hp⟩

/-! ### Readers -/

theorem setReader (h : S.Attended) (hr : S.reset.readers[r]? = some reader)
    (hentry : reader'.entry = reader.entry)
    (hwork : reader'.phase.atWork = true → reader.phase.atWork = true)
    (hundecided : reader'.phase.undecided = true → reader.phase.undecided = true) :
    (S.setReader r reader').Attended where
  reader q x hq hw := by
    rw [getElem?_setReader hr] at hq
    split at hq
    · -- The reader that changes has its entry as before.
      rename_i hqr
      cases hq
      rw [hentry, hqr]
      exact h.reader r reader hr (hwork hw)
    · exact h.reader q x hq hw
  clean i cl q x hcl hphase hq hu := by
    rw [getElem?_setReader hr] at hq
    split at hq
    · rename_i hqr
      cases hq
      exact h.clean i cl r reader hcl (hqr ▸ hphase) hr (hundecided hu)
    · exact h.clean i cl q x hcl hphase hq hu
  once := h.once

/-- The verdict of the reader at work is the only one that can finish the reservation of a call
that waits for it. -/
theorem verdict (h : S.Attended) (hinv : S.Invariant) (hr : S.reset.readers[r]? = some reader)
    {revoked : Option Bool} {remaining : Bool}
    (hphase : reader.phase = .committing revoked remaining) :
    (S.verdict r reader revoked remaining).Attended := by
  have hundecided : reader.phase.undecided = true := by rw [hphase]; rfl
  have hwork := ReaderPhase.atWork_of_undecided hundecided
  have hunknown : (S.setReader r { reader with phase := .ending .unknown }).Attended :=
    h.setReader hr rfl (fun _ => hwork) fun _ => hundecided
  unfold DemoRuntime.verdict
  split
  swap
  · exact hunknown
  rename_i e revoked he
  split
  · exact hunknown
  obtain ⟨cl, hcl, -, hoff⟩ := hinv.entries _ e he
  dsimp only
  -- The reservation may have been finished already: then the verdict is stale.
  by_cases hf : S.isFinished e.reservation
  · rw [hinv.finish_stale hcl hf]
    exact hunknown.of_same rfl rfl fun i cl r hcl hphase => ⟨⟨cl, hcl, hphase⟩, id⟩
  · rw [hinv.finish_eq hcl hf]
    generalize hout : (if true = true then if (revoked && !remaining) = true
      then ResetOutcome.committed else .rolledBack else .unknown) = out
    have hknown : (ReaderPhase.ending out).undecided = false := by
      -- A verdict leaves nothing undecided.
      subst hout
      cases (revoked && !remaining) <;> rfl
    have hset : (S.setReader r { reader with phase := .ending out }).Attended :=
      h.setReader hr rfl (fun _ => hwork) fun hu => by rw [hknown] at hu; cases hu
    -- Of the calls that wait, the one whose reservation is finished here loses its reader.
    refine ⟨hset.reader, fun i x q y hx hp hq hu hi => ?_, h.once⟩
    have hq' : (S.setReader r { reader with phase := .ending out }).reset.readers[q]? = some y := hq
    rw [getElem?_setReader hr] at hq'
    split at hq'
    · cases hq'
      rw [hknown] at hu
      cases hu
    · rename_i hqr
      obtain ⟨f, hf', rfl⟩ := hi
      rcases List.mem_append.mp hf' with hold | hnew
      · exact h.clean _ x q y hx hp hq' hu ⟨f, hold, rfl⟩
      · -- A second reader at work on the entry.
        cases List.mem_singleton.mp hnew
        obtain ⟨y', e', hy', he', hreservation⟩ := hinv.resolving _ x q hx hp
        obtain rfl := Option.some.inj (hq'.symm.trans hy')
        obtain ⟨e₁, he₁, hq₁⟩ := h.reader q y hq' (ReaderPhase.atWork_of_undecided hu)
        obtain ⟨e₂, he₂, hr₂⟩ := h.reader r reader hr hwork
        have hsame : y.entry = reader.entry := by
          have hlt : y.entry < (S.reset.entries.map (·.reservation)).length := by
            rw [List.length_map]
            exact (List.getElem?_eq_some_iff.mp he').1
          refine (List.getElem?_inj hlt h.once).mp ?_
          rw [List.getElem?_map, List.getElem?_map, he', he]
          exact congrArg some hreservation
        rw [hsame, he₂] at he₁
        obtain rfl := Option.some.inj he₁
        exact hqr (Option.some.inj (hq₁.symm.trans hr₂))

/-! ### The steps of a reader -/

theorem read (h : S.Attended) (hinv : S.Invariant) (hstep : S.read r = some S') : S'.Attended := by
  unfold DemoRuntime.read at hstep
  split at hstep
  · cases hstep
  rename_i reader hr
  -- A reader that goes on is as undecided as it was.
  have hgo : reader.phase.undecided = true → ∀ {phase}, (S.setReader r { reader with phase }).Attended :=
    fun hu => h.setReader hr rfl (fun _ => ReaderPhase.atWork_of_undecided hu) fun _ => hu
  split at hstep
  · -- It connects, asks for the lock, and reads: undecided all the way.
    rename_i hphase
    cases hstep
    exact hgo (by rw [hphase]; rfl)
  · rename_i hphase
    split at hstep
    · cases hstep
      exact hgo (by rw [hphase]; rfl)
    · split at hstep
      · cases hstep
        exact (hgo (by rw [hphase]; rfl)).of_same rfl rfl
          fun i cl r hcl hp => ⟨⟨cl, hcl, hp⟩, id⟩
      · cases hstep
  · rename_i hphase
    split at hstep
    · cases hstep
      exact hgo (by rw [hphase]; rfl)
    · cases hstep
  · -- The lock is given back, and the verdict with it.
    rename_i revoked remaining hphase
    split at hstep
    · cases hstep
    · cases hstep
      exact h.verdict hinv hr hphase
  · rename_i outcome hphase
    split at hstep
    · cases hstep
    rename_i e he
    cases hstep
    obtain ⟨e', he', hresolving⟩ := h.reader r reader hr (by rw [hphase]; rfl)
    obtain rfl := Option.some.inj (he.symm.trans he')
    -- The end of a reader clears the entry, which was its own.
    refine ⟨fun q x hq hw => ?_, fun i cl q x hcl hp hq hu => ?_, ?_⟩
    · have hq : (S.setReader r { reader with phase := .done outcome }).reset.readers[q]? = some x := hq
      rw [getElem?_setReader hr] at hq
      split at hq
      · cases hq
        cases hw
      · rename_i hqr
        obtain ⟨e₁, he₁, hq₁⟩ := h.reader q x hq hw
        refine ⟨e₁, ?_, hq₁⟩
        show (S.reset.entries.set reader.entry _)[x.entry]? = _
        rw [List.getElem?_set]
        split
        · -- Another reader at work on the entry would be the one that ends.
          rename_i hentry
          rw [← hentry, he] at he₁
          obtain rfl := Option.some.inj he₁
          exact absurd (Option.some.inj (hq₁.symm.trans hresolving)) hqr
        · exact he₁
    · have hq : (S.setReader r { reader with phase := .done outcome }).reset.readers[q]? = some x := hq
      rw [getElem?_setReader hr] at hq
      split at hq
      · cases hq
        cases hu
      · exact h.clean i cl q x hcl hp hq hu
    · show ((S.reset.entries.set reader.entry _).map _).Nodup
      refine (congrArg List.Nodup (map_set_same he ?_)).mpr h.once
      rfl
  · cases hstep

theorem readFailed (h : S.Attended) (hstep : S.readFailed r = some S') : S'.Attended := by
  unfold DemoRuntime.readFailed at hstep
  split at hstep
  · cases hstep
  rename_i reader hr
  split at hstep
  all_goals cases hstep
  all_goals
    rename_i hphase
    exact h.setReader hr rfl (fun _ => by rw [hphase]; rfl) fun _ => by rw [hphase]; rfl

/-- A new reader for an entry that has none at work. -/
theorem resolve (h : S.Attended) (hinv : S.Invariant) (k : Nat) : (S.resolve k).2.Attended := by
  unfold DemoRuntime.resolve
  split
  · exact h
  rename_i e he
  split
  · exact h
  rename_i hnone
  -- A new reader comes last, and the entry is its own.
  refine ⟨fun q x hq hw => ?_, fun i cl q x hcl hp hq hu => ?_, ?_⟩
  · show ∃ e', (S.reset.entries.set k _)[x.entry]? = some e' ∧ _
    have hq : (S.reset.readers ++ [_])[q]? = some x := hq
    rw [List.getElem?_append] at hq
    split at hq
    · obtain ⟨e₁, he₁, hq₁⟩ := h.reader q x hq hw
      refine ⟨e₁, ?_, hq₁⟩
      rw [List.getElem?_set]
      split
      · -- The entry had no reader at work.
        rename_i hk
        rw [← hk, he] at he₁
        obtain rfl := Option.some.inj he₁
        rw [hnone] at hq₁
        cases hq₁
      · exact he₁
    · rename_i hlen
      rw [List.getElem?_singleton] at hq
      split at hq
      · cases hq
        refine ⟨_, List.getElem?_set_self (List.getElem?_eq_some_iff.mp he).1, ?_⟩
        exact congrArg some (by omega)
      · cases hq
  · -- A call that waits has its reader, which is not the new one.
    obtain ⟨x', e', hx', -⟩ := hinv.resolving i cl q hcl hp
    have hq : (S.reset.readers ++ [_])[q]? = some x := hq
    rw [List.getElem?_append_left (List.getElem?_eq_some_iff.mp hx').1] at hq
    exact h.clean i cl q x hcl hp hq hu
  · show ((S.reset.entries.set k _).map _).Nodup
    refine (congrArg List.Nodup (map_set_same he ?_)).mpr h.once
    rfl

/-! ## Calls of `clean` -/

/-! ### The end of a call -/

/-- The end of a call that finishes its reservation by itself. -/
theorem finish (h : S.Attended) (hinv : S.Invariant) (hcl : S.reset.cleans[i]? = some cl)
    (hi : ¬ S.isFinished i) (committed : Bool) (hphase : ∀ r, cl'.phase ≠ .resolving r) :
    ((S.finish i committed).2.setClean i cl').Attended := by
  rw [hinv.finish_eq hcl hi]
  refine h.of_same rfl rfl fun j x r hx hp => ?_
  have hx : (S.setClean i cl').reset.cleans[j]? = some x := hx
  rw [getElem?_setClean hcl] at hx
  split at hx
  · cases hx
    exact absurd hp (hphase r)
  · rename_i hj
    refine ⟨⟨x, hx, hp⟩, fun ⟨f, hf, hfj⟩ => ?_⟩
    -- Finished are the earlier ones and this one, which waits for nothing.
    rcases List.mem_append.mp hf with hold | hnew
    · exact ⟨f, hold, hfj⟩
    · cases List.mem_singleton.mp hnew
      exact absurd hfj.symm hj

theorem finishRolledBack (h : S.Attended) (hinv : S.Invariant) (hcl : S.reset.cleans[i]? = some cl)
    (hi : ¬ S.isFinished i) (error : DemoError) : (S.finishRolledBack i cl error).Attended := by
  obtain ⟨hreservation, -⟩ := hinv.reserved i cl hcl
  unfold DemoRuntime.finishRolledBack
  rw [hreservation]
  exact h.finish hinv hcl hi false nofun

theorem abortTransaction (h : S.Attended) (hcl : S.reset.cleans[i]? = some cl) :
    (S.abortTransaction i cl).Attended := by
  have hset : (S.setClean i { cl with transaction := .aborted }).Attended :=
    h.setClean hcl fun _ hp => hp
  unfold DemoRuntime.abortTransaction
  split
  · exact hset.of_same rfl rfl fun j x r hx hp => ⟨⟨x, hx, hp⟩, id⟩
  · exact hset

/-! ### Handing over to a reader -/

/-- The entry of a call that hands over is the first one for its reservation. -/
theorem markPending (h : S.Attended) (hinv : S.Invariant) (hcl : S.reset.cleans[i]? = some cl)
    (hon : cl.active = true) : (S.markPending i cl).Attended := by
  obtain ⟨hreservation, -⟩ := hinv.reserved i cl hcl
  have hi := hinv.active i cl hcl hon
  rw [Invariant.markPending_eq]
  refine ⟨fun q x hq hw => ?_, fun j x q y hx hp hq hu => ?_, ?_⟩
  · have hq : (S.reset.readers ++ [_])[q]? = some x := hq
    show ∃ e, (S.reset.entries ++ [_])[x.entry]? = some e ∧ _
    -- The entries that were there keep their readers.
    rw [List.getElem?_append] at hq
    split at hq
    · obtain ⟨e, he, hresolving⟩ := h.reader q x hq hw
      refine ⟨e, ?_, hresolving⟩
      rw [List.getElem?_append_left (List.getElem?_eq_some_iff.mp he).1, he]
    · rename_i hlen
      rw [List.getElem?_singleton] at hq
      split at hq
      · cases hq
        refine ⟨_, List.getElem?_concat_length, ?_⟩
        exact congrArg some (by omega)
      · cases hq
  · -- The call that hands over is active, so nothing has finished it.
    have hx : (S.setClean i { cl with phase := .resolving S.reset.readers.length }).reset.cleans[j]?
      = some x := hx
    rw [getElem?_setClean hcl] at hx
    split at hx
    · rename_i hj
      exact hj ▸ hi
    · obtain ⟨y', e', hy', -⟩ := hinv.resolving j x q hx hp
      have hq : (S.reset.readers ++ [_])[q]? = some y := hq
      rw [List.getElem?_append_left (List.getElem?_eq_some_iff.mp hy').1] at hq
      exact h.clean j x q y hx hp hq hu
  · show ((S.reset.entries ++ [_]).map _).Nodup
    rw [List.map_append]
    -- An entry for the reservation would have ended the call.
    refine List.nodup_append.mpr ⟨h.once, List.nodup_singleton _, fun a ha b hb hab => ?_⟩
    obtain ⟨e, he, rfl⟩ := List.mem_map.mp ha
    obtain ⟨k, hk⟩ := List.mem_iff_getElem?.mp he
    obtain ⟨x, hx, -, hoff⟩ := hinv.entries k e hk
    have hb : b = cl.reservation := List.mem_singleton.mp hb
    rw [hab, hb, hreservation, hcl] at hx
    obtain rfl := Option.some.inj hx
    rw [hon] at hoff
    cases hoff

/-! ### The steps of a call -/

theorem advance (h : S.Attended) (hinv : S.Invariant) (hstep : S.advance i = some S') :
    S'.Attended := by
  unfold DemoRuntime.advance at hstep
  split at hstep
  · cases hstep
  rename_i cl hcl
  have hgo : ∀ {cl' : Clean}, (∀ r, cl'.phase ≠ .resolving r) → (S.setClean i cl').Attended :=
    fun hphase => h.setClean hcl fun r hr => absurd hr (hphase r)
  obtain ⟨hreservation, -⟩ := hinv.reserved i cl hcl
  split at hstep
  · cases hstep
    exact hgo (by simp)
  · cases hstep
    exact hgo (by simp)
  · split at hstep
    · cases hstep
      exact hgo (by simp)
    · cases hstep
  · split at hstep
    swap
    · cases hstep
    split at hstep
    · cases hstep
      exact hgo (by simp)
    · cases hstep
      exact hgo (by simp)
  · rename_i k hphase
    split at hstep
    swap
    · cases hstep
    cases hstep
    refine hgo ?_
    unfold DemoRuntime.deleteStatement
    split
    · split
      · simp
      · simp
    · simp
    · simp
    · simp
    · split
      · simp
      · simp
  · split at hstep
    · cases hstep
      exact hgo (by simp)
    · cases hstep
  · cases hstep
    exact hgo (by simp)
  · -- The commit was acknowledged: the call finishes its reservation itself.
    rename_i hphase
    have hi := hinv.active i cl hcl (by simp [Clean.active, hphase])
    split at hstep
    swap
    · cases hstep
    have htrue : (S.finish i true).1 = true := by rw [hinv.finish_eq hcl hi]
    rw [hreservation] at hstep
    dsimp only at hstep
    rw [htrue, if_pos rfl] at hstep
    cases hstep
    exact h.finish hinv hcl hi true (by simp)
  · -- The call undoes what it has done, and then finishes.
    rename_i error hphase
    have hon : cl.active = true := by simp [Clean.active, hphase]
    have hi := hinv.active i cl hcl hon
    have hnot := hinv.not_committed hcl (hinv.not_sent hcl hon (by simp [hphase]))
    cases hstep
    obtain ⟨hquiet, -, hcl'⟩ := Quiet.abortTransaction hcl
    exact (h.abortTransaction hcl).finishRolledBack (hinv.abortTransaction hcl hnot) hcl'
      (hquiet.isFinished.not.mpr hi) error
  · split at hstep
    · cases hstep
      exact hgo (by simp)
    · cases hstep
      exact hgo (by simp)
    · cases hstep
      exact hgo (by simp)
    · cases hstep
  · cases hstep

theorem fail (h : S.Attended) (hinv : S.Invariant) {message : String}
    (hstep : S.fail i message = some S') : S'.Attended := by
  unfold DemoRuntime.fail at hstep
  -- Before there is anything to undo, the call ends by itself.
  split at hstep
  · cases hstep
  rename_i cl hcl
  split at hstep
  · rename_i hphase
    cases hstep
    exact h.finishRolledBack hinv hcl (hinv.active i cl hcl (by simp [Clean.active, hphase])) _
  all_goals rename_i hphase
  -- The commit may have happened: a reader has to find out.
  case h_8 =>
    cases hstep
    exact h.markPending hinv hcl (by simp [Clean.active, hphase])
  case h_9 =>
    cases hstep
    exact h.markPending hinv hcl (by simp [Clean.active, hphase])
  all_goals cases hstep
  all_goals exact h.setClean hcl (by simp)

theorem beginClean (h : S.Attended) {coordinator : Coordinator}
    {session : Option AuthenticatedDemoSession}
    (hstep : S.beginClean (.ok (n, coordinator)) id session = some S') : S'.Attended := by
  cases hstep
  refine h.of_same rfl rfl fun j x r hx hp => ⟨⟨x, ?_, hp⟩, fun hf => hf⟩
  have hx : (S.reset.cleans ++ [_])[j]? = some x := hx
  rw [List.getElem?_append] at hx
  split at hx
  · exact hx
  · rw [List.getElem?_singleton] at hx
    split at hx
    · cases hx
      cases hp
    · cases hx

/-! ### Every step -/

theorem step (h : S.Attended) (hinv : S.Invariant) (hstep : S.step event = some S') :
    S'.Attended := by
  -- At the gate nothing changes but the coordinator.
  have hgate : ∀ {event' S'}, S.gate event' = some S' → S'.Attended := by
    intro event' S' hgate
    obtain ⟨coordinator, -, rfl⟩ := Invariant.gate_some hgate
    exact h.of_eq rfl rfl
  cases event with
  | create id company =>
      have hstep : S.create id company = some S' := hstep
      unfold DemoRuntime.create at hstep
      split at hstep
      · cases hstep
        exact h.of_eq rfl rfl
      · cases hstep
  | expire id =>
      cases hstep
      exact h.of_eq rfl rfl
  | authenticate id =>
      obtain ⟨row, -, rfl⟩ := Option.map_eq_some_iff.mp hstep
      exact h.of_eq rfl rfl
  | revalidate n lost =>
      obtain ⟨o, -, rfl⟩ := Option.map_eq_some_iff.mp hstep
      exact h.of_eq rfl rfl
  | revalidated n =>
      obtain ⟨answer, -, hstep⟩ := Option.bind_eq_some_iff.mp hstep
      obtain ⟨S₁, hmap, rfl⟩ := Option.map_eq_some_iff.mp hstep
      exact (hgate hmap).of_eq rfl rfl
  | lookup n lost =>
      obtain ⟨o, -, rfl⟩ := Option.map_eq_some_iff.mp hstep
      exact h.of_eq rfl rfl
  | forSession n created =>
      obtain ⟨o, ho, hstep⟩ := Option.bind_eq_some_iff.mp hstep
      obtain ⟨valid, -, rfl⟩ := Option.map_eq_some_iff.mp hstep
      dsimp only
      split
      · split
        · exact h.of_eq rfl rfl
        · exact h.of_eq rfl rfl
      · exact h.of_eq rfl rfl
  | useExecutor n call =>
      obtain ⟨o, -, hstep⟩ := Option.bind_eq_some_iff.mp hstep
      obtain ⟨x, -, rfl⟩ := Option.map_eq_some_iff.mp hstep
      exact h.of_eq rfl rfl
  | write n w =>
      obtain ⟨o, -, rfl⟩ := Option.map_eq_some_iff.mp hstep
      exact h.of_eq rfl rfl
  | reset session =>
      -- A new call waits for nothing.
      have hstep : S.beginClean (S.coordinator.tryBeginReset (session ∈ S.contexts) session)
        session.sessionId (some session) = some S' := hstep
      cases hreserve : S.coordinator.tryBeginReset (session ∈ S.contexts) session with
      | error e =>
          rw [hreserve] at hstep
          cases hstep
      | ok reserved =>
          rw [hreserve] at hstep
          exact h.beginClean hstep
  | cleanup id =>
      have hstep : S.beginClean (S.coordinator.reserveCleanup id) id none = some S' := hstep
      cases hreserve : S.coordinator.reserveCleanup id with
      | error e =>
          rw [hreserve] at hstep
          cases hstep
      | ok reserved =>
          rw [hreserve] at hstep
          exact h.beginClean hstep
  | advance i => exact h.advance hinv hstep
  | fail i message => exact h.fail hinv hstep
  | lock i =>
      have hstep : S.lock i = some S' := hstep
      unfold DemoRuntime.lock at hstep
      split at hstep
      · cases hstep
      · split at hstep
        · cases hstep
          exact h.of_eq rfl rfl
        · cases hstep
  | commit i =>
      have hstep : S.commit i = some S' := hstep
      unfold DemoRuntime.commit at hstep
      split at hstep
      · cases hstep
      · rename_i cl hcl
        split at hstep
        · cases hstep
        · split at hstep
          · cases hstep
            have hset : (S.setClean i { cl with transaction := .committed }).Attended :=
              h.setClean hcl fun _ hp => hp
            exact hset.of_same rfl rfl fun j x r hx hp => ⟨⟨x, hx, hp⟩, id⟩
          · cases hstep
  | abort i =>
      have hstep : S.abort i = some S' := hstep
      unfold DemoRuntime.abort at hstep
      split at hstep
      · cases hstep
      · rename_i cl hcl
        split at hstep
        · cases hstep
          exact h.abortTransaction hcl
        · cases hstep
  | read r => exact h.read hinv hstep
  | readFailed r => exact h.readFailed hstep
  | unlock r =>
      have hstep : S.unlock r = some S' := hstep
      unfold DemoRuntime.unlock at hstep
      split at hstep
      · cases hstep
      · split at hstep
        · cases hstep
          exact h.of_eq rfl rfl
        · cases hstep
  | recover limit =>
      have hstep : S.recover limit = some S' := hstep
      unfold DemoRuntime.recover at hstep
      split at hstep
      · cases hstep
        exact h.of_same rfl rfl fun j x r hx hp => ⟨⟨x, hx, hp⟩, id⟩
      · cases hstep
  | next p =>
      have hstep : S.next p = some S' := hstep
      unfold DemoRuntime.next at hstep
      split at hstep
      · cases hstep
      · split at hstep
        · split at hstep
          · cases hstep
            exact h.of_same rfl rfl fun j x r hx hp => ⟨⟨x, hx, hp⟩, id⟩
          · cases hstep
        · rename_i k entries _ _
          cases hstep
          -- The pass resolves the next entry of its snapshot.
          exact (h.resolve hinv k).of_same rfl rfl fun j x r hx hp => ⟨⟨x, hx, hp⟩, id⟩
        · cases hstep
  | _ => exact hgate hstep

theorem runs (h : S.Attended) (hinv : S.Invariant) {events : List DemoEvent}
    (hruns : runs events S = some S') : S'.Attended := by
  induction events generalizing S with
  | nil =>
      cases hruns
      exact h
  | cons event events ih =>
      obtain ⟨S₁, hstep, hrest⟩ := Option.bind_eq_some_iff.mp hruns
      exact ih (h.step hinv hstep) (hinv.step hstep) hrest

end Attended

theorem Starts.attended (h : S.Starts) : S.Attended := by
  obtain ⟨store, sessions, expired, fakes, coordinator, registry, -, -, -, rfl⟩ := h
  constructor
  all_goals simp [start]

end DemoRuntime

end CostEngine
