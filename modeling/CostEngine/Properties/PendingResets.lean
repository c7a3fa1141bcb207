import CostEngine.Demo.Readers

/-! # Which reservations a recovery pass can still find -/

namespace CostEngine

open Relational (Table)

namespace DemoRuntime

variable {S S₀ S' : DemoRuntime} {i j k r : Nat} {cl : Clean} {id s : String} {event : DemoEvent}
  {events : List DemoEvent} {e : PendingReset}

structure NoLeak (S : DemoRuntime) : Prop where
  /-- A reservation belongs to a call that is still running, or waits in the pending map. -/
  held : ∀ s e, S.coordinator.resets.get? s = some e →
    (∃ cl, S.reset.cleans[e.ref]? = some cl ∧ cl.sessionId = s ∧ ∀ out, cl.phase ≠ .done out)
      ∨ ∃ k entry, S.reset.pending.get? s = some ⟨s, k⟩ ∧ S.reset.entries[k]? = some entry
        ∧ entry.reservation = e.ref
  /-- What waits there is the current reservation of its session. -/
  pending : ∀ s p, S.reset.pending.get? s = some p → ∃ entry, S.reset.entries[p.ref]? = some entry
    ∧ entry.sessionId = s ∧ S.coordinator.resets.get? s = some ⟨s, entry.reservation⟩
  /-- `finishReset` has never thrown. -/
  valid : S.invalidFinishes = []

/-! ## Verdicts about stale entries -/

/-- If the step is a verdict of a recovery connection, then about the entry that is pending for
its session. -/
def timely (S : DemoRuntime) : DemoEvent → Bool
  | .read r =>
      match S.reset.readers[r]? with
      | some ⟨k, _, .committing (some revoked) remaining⟩ =>
          match S.reset.entries[k]? with
          | some e => (revoked && remaining && !e.inactive)
              || S.reset.pending.get? e.sessionId = some ⟨e.sessionId, k⟩
          | none => true
      | _ => true
  | _ => true

def timelyRun : List DemoEvent → DemoRuntime → Bool
  | [], _ => true
  | event :: events, S => S.timely event && (S.step event).all (timelyRun events)

theorem pending_of_timely (h : S.timely event = true) (hdecides : S.decides event k)
    (he : S.reset.entries[k]? = some e) :
    S.reset.pending.get? e.sessionId = some ⟨e.sessionId, k⟩ := by
  obtain ⟨r, ⟨_, session, _⟩, revoked, remaining, rfl, hr, rfl, rfl, hknown⟩ := hdecides
  simp only [timely, hr, he, hknown e he, Bool.false_or, decide_eq_true_eq] at h
  exact h

/-- What is lost when a verdict comes too late is the entry of a later reset. -/
theorem decides_of_not_timely (h : S.timely event = false) : ∃ k e, S.decides event k
    ∧ S.reset.entries[k]? = some e
    ∧ S.reset.pending.get? e.sessionId ≠ some ⟨e.sessionId, k⟩ := by
  unfold timely at h
  split at h
  swap
  · cases h
  rename_i r
  split at h
  swap
  · cases h
  rename_i k session revoked remaining hr
  split at h
  swap
  · cases h
  rename_i e he
  rw [Bool.or_eq_false_iff, decide_eq_false_iff_not] at h
  refine ⟨k, e, ⟨r, _, revoked, remaining, rfl, hr, rfl, rfl, fun e' he' => ?_⟩, he, h.2⟩
  obtain rfl := Option.some.inj (he.symm.trans he')
  exact h.1

/-! ## As long as all verdicts are in time -/

structure Tidy (S : DemoRuntime) : Prop where
  held : ∀ i s on, (S.reset.cleans.map (·.about))[i]? = some (s, on) → ¬ S.isFinished i →
    on = true ∨ ∃ k, S.reset.pending.get? s = some ⟨s, k⟩
      ∧ (S.reset.entries.map (·.about))[k]? = some (i, s)
  pending : ∀ s p, S.reset.pending.get? s = some p → ∃ i,
    (S.reset.entries.map (·.about))[p.ref]? = some (i, s) ∧ ¬ S.isFinished i
  valid : S.invalidFinishes = []

theorem about_clean (h : (S.reset.cleans.map (·.about))[i]? = some (s, on)) :
    ∃ cl, S.reset.cleans[i]? = some cl ∧ cl.sessionId = s ∧ cl.active = on := by
  rw [List.getElem?_map] at h
  obtain ⟨cl, hcl, habout⟩ := Option.map_eq_some_iff.mp h
  exact ⟨cl, hcl, congrArg Prod.fst habout, congrArg Prod.snd habout⟩

theorem about_pending (h : (S.reset.entries.map (·.about))[k]? = some (i, s)) :
    ∃ e, S.reset.entries[k]? = some e ∧ e.reservation = i ∧ e.sessionId = s := by
  rw [List.getElem?_map] at h
  obtain ⟨e, he, habout⟩ := Option.map_eq_some_iff.mp h
  exact ⟨e, he, congrArg Prod.fst habout, congrArg Prod.snd habout⟩

/-- The call of an entry is one of the session of the entry. -/
theorem Invariant.clean_of_about (h : S.Invariant)
    (he : (S.reset.entries.map (·.about))[k]? = some (i, s)) :
    ∃ cl, S.reset.cleans[i]? = some cl ∧ cl.sessionId = s := by
  obtain ⟨e, hk, rfl, rfl⟩ := about_pending he
  obtain ⟨cl, hcl, hs, -⟩ := h.entries k e hk
  exact ⟨cl, hcl, hs⟩

/-! ### What each event does to it -/

namespace Tidy

theorem of_quiet (h : S.Tidy) (hquiet : S.Quiet S') : S'.Tidy where
  held i s on hi hunfinished := by
    rw [hquiet.cleans] at hi
    rw [hquiet.pending, hquiet.entries]
    exact h.held i s on hi (hquiet.isFinished.not.mp hunfinished)
  pending s p hp := by
    rw [hquiet.pending] at hp
    rw [hquiet.entries]
    obtain ⟨i, hi, hunfinished⟩ := h.pending s p hp
    exact ⟨i, hi, hquiet.isFinished.not.mpr hunfinished⟩
  valid := hquiet.invalid.trans h.valid

theorem of_reserves (h : S.Tidy) (hr : S.Reserves S' id) : S'.Tidy where
  held i s on hi hunfinished := by
    have hunfinished : ¬ S.isFinished i := by
      unfold isFinished at hunfinished ⊢
      rwa [← hr.finished]
    rw [hr.cleans, List.getElem?_append] at hi
    rw [hr.pending, hr.entries]
    split at hi
    · exact h.held i s on hi hunfinished
    · rw [List.getElem?_singleton] at hi
      split at hi
      · cases hi
        exact .inl rfl
      · cases hi
  pending s p hp := by
    rw [hr.pending] at hp
    rw [hr.entries]
    obtain ⟨i, hi, hunfinished⟩ := h.pending s p hp
    refine ⟨i, hi, ?_⟩
    unfold isFinished at hunfinished ⊢
    rwa [hr.finished]
  valid := hr.invalid.trans h.valid

/-- The entry of the call takes the place of none: there was no other reset of the session. -/
theorem of_parks (h : S.Tidy) (hinv : S.Invariant) (hp : S.Parks S' i cl) : S'.Tidy := by
  have hi := hinv.active i cl hp.clean hp.on
  have hsame : ∀ j, S'.isFinished j ↔ S.isFinished j := by
    intro j
    unfold isFinished
    rw [hp.finished]
  have hpending : ∀ s, S'.reset.pending.get? s
      = if cl.sessionId = s then some ⟨cl.sessionId, S.reset.entries.length⟩
        else S.reset.pending.get? s := by
    intro s
    rw [hp.pending]
    exact Table.get?_set
  have hentry : ∀ {k : Nat} {x : Nat × String}, (S.reset.entries.map (·.about))[k]? = some x →
      (S'.reset.entries.map (·.about))[k]? = some x := by
    intro k x hx
    rw [hp.entries, List.getElem?_append_left (List.getElem?_eq_some_iff.mp hx).1, hx]
  have hnew : (S'.reset.entries.map (·.about))[S.reset.entries.length]? = some (i, cl.sessionId) := by
    rw [hp.entries, List.getElem?_append_right (by simp)]
    simp
  refine ⟨fun j s on hj hunfinished => ?_, fun s p hs => ?_, hp.invalid.trans h.valid⟩
  · rw [hp.cleans, List.getElem?_set] at hj
    split at hj
    · rename_i hij
      split at hj
      · cases hj
        exact .inr ⟨_, (hpending _).trans (if_pos rfl), hij ▸ hnew⟩
      · cases hj
    · rename_i hij
      have hunfinished := (hsame j).not.mp hunfinished
      refine (h.held j s on hj hunfinished).imp_right fun ⟨k, hk, he⟩ => ⟨k, ?_, hentry he⟩
      obtain ⟨cl', hcl', rfl, -⟩ := about_clean hj
      rw [hpending, if_neg fun hs => hij (hinv.only hp.clean hcl' hi hunfinished hs)]
      exact hk
  · rw [hpending] at hs
    split at hs
    · rename_i hs'
      cases hs
      exact ⟨i, hs' ▸ hnew, (hsame i).not.mpr hi⟩
    · obtain ⟨j, hj, hunfinished⟩ := h.pending s p hs
      exact ⟨j, hentry hj, (hsame j).not.mpr hunfinished⟩

theorem of_finishes {committed : Bool} (h : S.Tidy) (hinv : S.Invariant)
    (hf : S.Finishes S' i cl committed) : S'.Tidy := by
  obtain ⟨f, hfinished, hfi, -⟩ := hf.finished
  have hsame : ∀ j, S'.isFinished j ↔ S.isFinished j ∨ j = i := by
    intro j
    unfold isFinished
    rw [hfinished]
    simp [or_and_right, exists_or, hfi, eq_comm]
  have hpending : ∀ s, S'.reset.pending.get? s
      = if cl.sessionId = s then none else S.reset.pending.get? s := by
    intro s
    rw [hf.pending]
    exact Table.get?_erase
  obtain ⟨on, habout⟩ := hf.cleans
  refine ⟨fun j s on' hj hunfinished => ?_, fun s p hs => ?_, hf.invalid.trans h.valid⟩
  · obtain ⟨hunfinished, hji⟩ := not_or.mp ((hsame j).not.mp hunfinished)
    rw [habout, List.getElem?_set, if_neg (Ne.symm hji)] at hj
    refine (h.held j s on' hj hunfinished).imp_right fun ⟨k, hk, he⟩ => ⟨k, ?_, hf.entries ▸ he⟩
    obtain ⟨cl', hcl', rfl, -⟩ := about_clean hj
    rw [hpending, if_neg fun hs => hji (hinv.only hcl' hf.clean hunfinished hf.current hs.symm)]
    exact hk
  · rw [hpending] at hs
    split at hs
    · cases hs
    · rename_i hne
      obtain ⟨j, hj, hunfinished⟩ := h.pending s p hs
      refine ⟨j, hf.entries ▸ hj, (hsame j).not.mpr (not_or.mpr ⟨hunfinished, ?_⟩)⟩
      rintro rfl
      obtain ⟨cl', hcl', rfl⟩ := hinv.clean_of_about hj
      obtain rfl := Option.some.inj (hf.clean.symm.trans hcl')
      exact hne rfl

theorem step (h : S.Tidy) (hinv : S.Invariant) (htimely : S.timely event = true)
    (hstep : S.step event = some S') : S'.Tidy := by
  cases hinv.change hstep with
  | quiet hquiet _ => exact h.of_quiet hquiet
  | registers _ _ _ _ hquiet _ _ => exact h.of_quiet hquiet
  | reserves id hreserves _ => exact h.of_reserves hreserves
  | parks i cl hparks _ => exact h.of_parks hinv hparks
  | finishes i cl committed hfinishes => exact h.of_finishes hinv hfinishes
  | misses i cl committed hmisses k e he hreservation hdecides =>
      obtain ⟨j, hj, hunfinished⟩ := h.pending _ _ (pending_of_timely htimely hdecides he)
      obtain ⟨e', he', rfl, -⟩ := about_pending hj
      obtain rfl := Option.some.inj (he.symm.trans he')
      exact absurd (hreservation ▸ hmisses.stale) hunfinished

/-! ### A verdict out of time -/

/-- A verdict for another entry than the pending one calls `finishReset` for a reservation that
is not the current one. -/
theorem invalid_of_not_timely (h : S.Tidy) (hinv : S.Invariant) (hattended : S.Attended)
    (htimely : S.timely event = false) (hstep : S.step event = some S') :
    S'.invalidFinishes ≠ [] := by
  obtain ⟨k, e, ⟨r, reader, revoked, remaining, rfl, hr, hphase, rfl, hknown⟩, he, hstale⟩ :=
    decides_of_not_timely htimely
  obtain ⟨cl, hcl, hs, hoff⟩ := hinv.entries _ e he
  have hfinished : S.isFinished e.reservation := by
    by_contra hunfinished
    have habout : (S.reset.cleans.map (·.about))[e.reservation]? = some (cl.sessionId, false) := by
      rw [List.getElem?_map, hcl, ← hoff]
      rfl
    rcases h.held _ _ _ habout hunfinished with hon | ⟨k, hk, hek⟩
    · cases hon
    · obtain ⟨e', he', hreservation, -⟩ := about_pending hek
      have hlt : k < (S.reset.entries.map (·.reservation)).length := by
        rw [List.length_map]
        exact (List.getElem?_eq_some_iff.mp he').1
      have hsame : k = reader.entry := by
        refine (List.getElem?_inj hlt hattended.once).mp ?_
        rw [List.getElem?_map, List.getElem?_map, he', he]
        exact congrArg some hreservation
      rw [hs, hsame] at hk
      exact hstale hk
  have hstep : S.read r = some S' := hstep
  unfold DemoRuntime.read at hstep
  rw [hr] at hstep
  dsimp only at hstep
  rw [hphase] at hstep
  dsimp only at hstep
  split at hstep
  · cases hstep
  cases hstep
  unfold DemoRuntime.verdict
  rw [he]
  dsimp only
  rw [hknown e he, if_neg Bool.false_ne_true, hinv.finish_stale hcl hfinished]
  simp [setReader]

end Tidy

theorem Starts.tidy (h : S.Starts) : S.Tidy := by
  obtain ⟨store, sessions, expired, fakes, coordinator, registry, -, -, -, rfl⟩ := h
  constructor
  all_goals simp [start]

/-! ### The property -/

theorem Tidy.noLeak (h : S.Tidy) (hinv : S.Invariant) : S.NoLeak where
  held s e he := by
    obtain ⟨reservation, hreservation, hsession⟩ := hinv.gate.reservation s e he
    have hlt : e.ref < S.reset.cleans.length :=
      hinv.numbered ▸ (List.getElem?_eq_some_iff.mp hreservation).1
    have hcl := List.getElem?_eq_getElem hlt
    obtain ⟨-, hs⟩ := hinv.reserved _ _ hcl
    have hs : (S.reset.cleans[e.ref]).sessionId = s := by
      rw [← hs, Coordinator.reservedSession, hreservation]
      exact hsession
    have hkey := Table.get?_key he
    have hunfinished : ¬ S.isFinished e.ref := by
      refine (hinv.current _ _ hcl).mpr ?_
      rw [hs, he, ← hkey]
    have habout : (S.reset.cleans.map (·.about))[e.ref]?
        = some (s, (S.reset.cleans[e.ref]).active) := by
      rw [List.getElem?_map, hcl, ← hs]
      rfl
    rcases h.held _ _ _ habout hunfinished with hon | ⟨k, hk, hek⟩
    · refine .inl ⟨_, hcl, hs, fun out hphase => ?_⟩
      simp [Clean.active, hphase] at hon
    · obtain ⟨entry, hentry, hreservation, -⟩ := about_pending hek
      exact .inr ⟨k, entry, hk, hentry, hreservation⟩
  pending s p hp := by
    obtain ⟨i, hi, hunfinished⟩ := h.pending s p hp
    obtain ⟨entry, hentry, rfl, rfl⟩ := about_pending hi
    obtain ⟨cl, hcl, hs, -⟩ := hinv.entries _ _ hentry
    exact ⟨entry, hentry, rfl, hs ▸ (hinv.current _ cl hcl).mp hunfinished⟩
  valid := h.valid

theorem Tidy.noLeak_iff (h : S.Tidy) (hinv : S.Invariant) (hattended : S.Attended)
    (hruns : runs events S = some S') :
    timelyRun events S = true ↔ ∀ events₁ events₂ S₁, events = events₁ ++ events₂ →
      runs events₁ S = some S₁ → S₁.NoLeak := by
  induction events generalizing S with
  | nil =>
      refine ⟨fun _ events₁ events₂ S₁ happend hruns₁ => ?_, fun _ => rfl⟩
      obtain ⟨rfl, -⟩ := List.append_eq_nil_iff.mp happend.symm
      cases hruns₁
      exact h.noLeak hinv
  | cons event events ih =>
      obtain ⟨S₁, hstep, hrest⟩ := Option.bind_eq_some_iff.mp hruns
      have hinv₁ := hinv.step hstep
      have hrun : timelyRun (event :: events) S = (S.timely event && timelyRun events S₁) := by
        rw [timelyRun, hstep]
        rfl
      rw [hrun, Bool.and_eq_true]
      constructor
      · rintro ⟨htimely, hrun₁⟩ events₁ events₂ S₂ happend hruns₂
        have h₁ := h.step hinv htimely hstep
        cases events₁ with
        | nil =>
            cases hruns₂
            exact h.noLeak hinv
        | cons event' events₁ =>
            obtain ⟨rfl, hevents⟩ := List.cons.inj happend
            obtain ⟨S₁', hstep', hruns₂⟩ := Option.bind_eq_some_iff.mp hruns₂
            obtain rfl := Option.some.inj (hstep.symm.trans hstep')
            exact (ih h₁ hinv₁ (hattended.step hinv hstep) hrest).mp hrun₁ events₁ events₂ S₂
              hevents hruns₂
      · intro hall
        have htimely : S.timely event = true := by
          by_contra hnot
          refine h.invalid_of_not_timely hinv hattended (Bool.not_eq_true _ ▸ hnot) hstep ?_
          exact (hall [event] events S₁ rfl (by rw [runs, hstep]; rfl)).valid
        refine ⟨htimely, (ih (h.step hinv htimely hstep) hinv₁ (hattended.step hinv hstep)
          hrest).mpr fun events₁ events₂ S₂ happend hruns₂ => ?_⟩
        refine hall (event :: events₁) events₂ S₂ (congrArg (event :: ·) happend) ?_
        rw [runs, hstep]
        exact hruns₂

/-- No reservation is lost, and no session stays blocked for ever, exactly as long as no recovery
connection pronounces a verdict about an entry that is not the pending one any more. -/
theorem no_reservation_leaks (h₀ : S₀.Starts) (hruns : runs events S₀ = some S) :
    timelyRun events S₀ = true ↔ ∀ events₁ events₂ S₁, events = events₁ ++ events₂ →
      runs events₁ S₀ = some S₁ → S₁.NoLeak :=
  h₀.tidy.noLeak_iff h₀.invariant h₀.attended hruns

/-! ### Two runs -/

/-- One reset whose outcome is found by a recovery pass. -/
def recoveredReset : List DemoEvent :=
  [.authenticate "a", .reset ⟨"a", "A"⟩, .advance 0, .fail 0 "", .fail 0 "", .readFailed 0, .read 0,
    .advance 0, .recover 50, .next 0, .read 1, .read 1, .read 1, .unlock 1, .read 1, .read 1, .next 0]

theorem no_reservation_leaks_recovered : ∃ S, runs recoveredReset sampleStart = some S
    ∧ S.finished.map (·.reservation) = [0] ∧ S.NoLeak := by
  have hany : (runs recoveredReset sampleStart).any (fun S =>
      S.finished.map (·.reservation) = [0]) = true := by decide +kernel
  obtain ⟨S, hS, hp⟩ := (Option.any_eq_true _ _).mp hany
  rw [decide_eq_true_eq] at hp
  have htimely : timelyRun recoveredReset sampleStart = true := by decide +kernel
  exact ⟨S, hS, hp, (no_reservation_leaks sampleStart_starts hS).mp htimely _ [] S
    (List.append_nil _).symm hS⟩

/-- A recovery pass takes the pending resets of `b` and `a`. While it waits for `b`, the call for
`a` finds out that its reset is rolled back, and `a` is reset again, with an unknown outcome. The
pass then reads `a` for the entry of the first reset. -/
def overtakenPass : List DemoEvent :=
  [.authenticate "a", .authenticate "b",
    .reset ⟨"b", "B"⟩, .advance 0, .fail 0 "", .fail 0 "", .readFailed 0, .read 0, .advance 0,
    .reset ⟨"a", "A"⟩, .advance 1, .fail 1 "", .fail 1 "",
    .recover 50, .next 0,
    .read 1, .read 1, .read 1, .unlock 1, .read 1, .read 1, .advance 1,
    .reset ⟨"a", "A"⟩, .advance 2, .fail 2 "", .fail 2 "", .readFailed 3, .read 3, .advance 2,
    .readFailed 2, .read 2, .next 0, .next 0,
    .read 4, .read 4, .read 4, .unlock 4, .read 4, .read 4]

theorem reservation_leaks : ∃ S, sampleStart.Starts ∧ runs overtakenPass sampleStart = some S
    ∧ ¬ S.NoLeak := by
  have hany : (runs overtakenPass sampleStart).any (fun S =>
      S.coordinator.resets.get? "a" = some ⟨"a", 2⟩ ∧ S.reset.pending.get? "a" = none
        ∧ (S.reset.cleans[2]?).map (·.phase) = some (.done (.error .resetOutcomeUnknown))) = true := by
    decide +kernel
  obtain ⟨S, hS, hp⟩ := (Option.any_eq_true _ _).mp hany
  rw [decide_eq_true_eq] at hp
  obtain ⟨hreset, hpending, hphase⟩ := hp
  refine ⟨S, sampleStart_starts, hS, fun hleak => ?_⟩
  rcases hleak.held "a" _ hreset with ⟨cl, hcl, -, hrunning⟩ | ⟨k, entry, hk, -⟩
  · rw [hcl] at hphase
    exact hrunning _ (Option.some.inj hphase)
  · exact Table.no_row hpending hk

end DemoRuntime

end CostEngine
