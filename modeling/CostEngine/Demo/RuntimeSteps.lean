import CostEngine.Demo.ResetVerdicts

/-! # The runtime keeps its invariant -/

namespace CostEngine

open Relational (Table)

namespace DemoRuntime

variable {S S' : DemoRuntime} {i j k n r : Nat} {cl cl' : Clean} {id : String}
  {reader reader' : OutcomeReader} {committed : Bool}

namespace Invariant

/-! ## Recovery connections -/

/-! ### The place of a reader -/

theorem setReader (h : S.Invariant) (hr : S.reset.readers[r]? = some reader)
    (hentry : reader'.entry = reader.entry) (hsession : reader'.sessionId = reader.sessionId)
    (hcounting : ∀ revoked company, reader'.phase = .counting revoked company →
      S.saw reader revoked
        ∧ ∃ row, S.sessions.get? reader.sessionId = some row ∧ row.companyCode = company)
    (hcommitting : ∀ revoked remaining, reader'.phase = .committing (some revoked) remaining →
      S.saw reader revoked ∧ (revoked = true → remaining = false → S.durable reader.sessionId)
        ∧ ∀ cl, S.unfinishedEntry reader cl → remaining = true → ¬ S.durable reader.sessionId)
    (hverdict : ∀ e out, S.reset.entries[reader.entry]? = some e →
      reader'.phase = .ending out ∨ reader'.phase = .done out → S.resolvedAs e.reservation out) :
    (S.setReader r reader').Invariant := by
  have hset : ∀ q, (S.reset.readers.set r reader')[q]?
      = if q = r then some reader' else S.reset.readers[q]? := getElem?_setReader hr
  have hget : ∀ {q : Nat} {x : OutcomeReader}, (S.reset.readers.set r reader')[q]? = some x →
      (q = r ∧ x = reader') ∨ (q ≠ r ∧ S.reset.readers[q]? = some x) := by
    intro q x hx
    rw [hset] at hx
    split at hx
    · exact .inl ⟨‹_›, (Option.some.inj hx).symm⟩
    · exact .inr ⟨‹_›, hx⟩
  have hforth : ∀ {q : Nat} {x : OutcomeReader}, S.reset.readers[q]? = some x →
      ∃ y, (S.reset.readers.set r reader')[q]? = some y ∧ y.entry = x.entry := by
    intro q x hx
    by_cases hq : q = r
    · rw [hq, hr] at hx
      cases hx
      exact ⟨reader', (hset q).trans (if_pos hq), hentry⟩
    · exact ⟨x, (hset q).trans ((if_neg hq).trans hx), rfl⟩
  have hunfinished : ∀ {cl}, S.unfinishedEntry reader' cl ↔ S.unfinishedEntry reader cl := by
    intro cl
    unfold unfinishedEntry
    rw [hentry]
  have hsaw : ∀ {revoked}, S.saw reader revoked → S.saw reader' revoked := by
    intro revoked ⟨hb, hold⟩
    refine ⟨fun hrevoked => hsession ▸ hb hrevoked, fun cl hcl => ?_⟩
    rw [hsession]
    exact hold cl (hunfinished.mp hcl)
  -- Only the six clauses about readers and their entries are touched.
  refine { h with
    resolving := fun j x q hx hphase => ?_
    readers := fun q x hx => ?_
    readerOf := fun l e q he hres => ?_
    counting := fun q x revoked company hx hphase => ?_
    committing := fun q x revoked remaining hx hphase => ?_
    verdicts := fun q x e out hx he hphase => ?_ }
  · -- The entry of the reader that a call waits for is the same.
    obtain ⟨y, e, hy, he, hj⟩ := h.resolving j x q hx hphase
    obtain ⟨z, hz, hzy⟩ := hforth hy
    exact ⟨z, e, hz, hzy ▸ he, hj⟩
  · rcases hget hx with ⟨-, rfl⟩ | ⟨-, hx⟩
    · rw [hentry, hsession]
      exact h.readers r reader hr
    · exact h.readers q x hx
  · -- So is the reader that an entry is resolved by.
    obtain ⟨y, hy, hl⟩ := h.readerOf l e q he hres
    obtain ⟨z, hz, hzy⟩ := hforth hy
    exact ⟨z, hz, hzy.trans hl⟩
  · -- The last three are what the hypotheses say of the new phase.
    rcases hget hx with ⟨-, rfl⟩ | ⟨-, hx⟩
    · rw [hsession]
      exact (hcounting revoked company hphase).imp_left hsaw
    · exact h.counting q x revoked company hx hphase
  · rcases hget hx with ⟨-, rfl⟩ | ⟨-, hx⟩
    · rw [hsession]
      obtain ⟨hold, hnone, hsome⟩ := hcommitting revoked remaining hphase
      exact ⟨hsaw hold, hnone, fun cl hcl => hsome cl (hunfinished.mp hcl)⟩
    · exact h.committing q x revoked remaining hx hphase
  · rcases hget hx with ⟨-, rfl⟩ | ⟨-, hx⟩
    · exact hverdict e out (hentry ▸ he) hphase
    · exact h.verdicts q x e out hx he hphase

/-! ### Phases that claim nothing -/

/-- A reader without a reading, or with an unknown outcome. -/
theorem setReader_unread (h : S.Invariant) (hr : S.reset.readers[r]? = some reader)
    {phase : ReaderPhase} (hcounting : ∀ revoked company, phase ≠ .counting revoked company)
    (hcommitting : ∀ revoked remaining, phase ≠ .committing (some revoked) remaining)
    (hverdict : ∀ out, phase = .ending out ∨ phase = .done out → out = .unknown) :
    (S.setReader r { reader with phase }).Invariant := by
  refine h.setReader hr rfl rfl (fun b c hb => absurd hb (hcounting b c))
    (fun b m hb => absurd hb (hcommitting b m)) fun e out _ hout => ?_
  rw [hverdict out hout]
  trivial

theorem setReader_unknown (h : S.Invariant) (hr : S.reset.readers[r]? = some reader) :
    (S.setReader r { reader with phase := .ending .unknown }).Invariant :=
  h.setReader_unread hr nofun nofun fun out hout => by
    rcases hout with hout | hout
    · cases hout
      rfl
    · cases hout

/-! ### The verdict -/

theorem readers_finish (i : Nat) (committed : Bool) :
    (S.finish i committed).2.reset.readers = S.reset.readers
      ∧ (S.finish i committed).2.reset.entries = S.reset.entries
      ∧ (S.finish i committed).2.reset.cleans = S.reset.cleans := by
  unfold DemoRuntime.finish
  dsimp only
  split
  · exact ⟨rfl, rfl, rfl⟩
  · exact ⟨rfl, rfl, rfl⟩

/-- The verdict of a recovery connection: what it has read is what there is, as long as the
reservation is not finished. -/
theorem verdict (h : S.Invariant) (hr : S.reset.readers[r]? = some reader) {revoked : Option Bool}
    {remaining : Bool} (hphase : reader.phase = .committing revoked remaining) :
    (S.verdict r reader revoked remaining).Invariant := by
  unfold DemoRuntime.verdict
  split
  swap
  · -- No row, or no entry: unknown.
    exact h.setReader_unknown hr
  rename_i e revoked he
  split
  · -- A revoked session of a caller that still owns rows: unknown, and nothing is finished.
    exact h.setReader_unknown hr
  obtain ⟨⟨hb, hsaw⟩, hempty, hleft⟩ := h.committing r reader revoked remaining hr hphase
  obtain ⟨e', he', hs⟩ := h.readers r reader hr
  obtain rfl := Option.some.inj (he.symm.trans he')
  obtain ⟨cl, hcl, hs', hoff⟩ := h.entries _ e he
  have hsession : reader.sessionId = cl.sessionId := hs.symm.trans hs'.symm
  have hdurable : (revoked && !remaining) = true → S.durable cl.sessionId := by
    intro hc
    rw [Bool.and_eq_true, Bool.not_eq_true'] at hc
    exact hsession ▸ hempty hc.1 hc.2
  obtain ⟨hreaders, hentries, hcleans⟩ := readers_finish (S := S) e.reservation (revoked && !remaining)
  have hr' : (S.finish e.reservation (revoked && !remaining)).2.reset.readers[r]? = some reader := by
    rw [hreaders, hr]
  dsimp only
  -- Another reader or the call itself may have finished the reservation.
  by_cases hf : S.isFinished e.reservation
  · have hstale := h.finishStale hcl hf hdurable
    have hfalse : (S.finish e.reservation (revoked && !remaining)).1 = false := by
      rw [h.finish_stale hcl hf]
    rw [hfalse]
    exact hstale.setReader_unknown hr'
  · -- Nobody has, so the reading is of the session as it is now.
    have hentry : S.unfinishedEntry reader cl := ⟨e, he, hcl, hf⟩
    obtain ⟨hm, hseen⟩ := hsaw cl hentry
    have hback : (revoked && !remaining) = false → cl.transaction ≠ .committed := by
      intro hc hdone
      -- A committed transaction has revoked the session and left no rows.
      have hd := hsession ▸ h.committed _ cl hcl hdone
      obtain ⟨row, hrow, htrue, -⟩ := hd
      rw [hrow] at hseen
      have hrevoked : revoked = true := (Option.some.inj hseen).symm.trans htrue
      have hremaining : remaining = true := by simpa [hrevoked] using hc
      exact hleft cl hentry hremaining (hsession ▸ h.committed _ cl hcl hdone)
    have htrue : (S.finish e.reservation (revoked && !remaining)).1 = true := by
      rw [h.finish_eq hcl hf]
    have hdone : (S.finish e.reservation (revoked && !remaining)).2.Invariant := by
      have hset := h.finish hcl hf hm hdurable hback ⟨rfl, rfl, rfl⟩ hoff (h.fits _ cl hcl) rfl rfl
        rfl (fun _ hp => hp) fun out hout => .inl (h.outcome _ cl out hcl hout)
      rwa [setClean_self (by rw [hcleans]; exact hcl)] at hset
    rw [htrue]
    -- The reader ends with the verdict that the reservation is finished with.
    refine hdone.setReader hr' rfl rfl nofun nofun fun e₁ out he₁ hout => ?_
    rw [hentries, he] at he₁
    cases he₁
    have has := finishedAs_finish h hcl hf (revoked && !remaining)
    cases hc : (revoked && !remaining) with
    | true =>
        rw [hc] at hout has
        rcases hout with hout | hout
        · cases hout
          exact has
        · cases hout
    | false =>
        rw [hc] at hout has
        rcases hout with hout | hout
        · cases hout
          exact has
        · cases hout

/-! ### The statements of a reader -/

/-- A reader that gets the row lock: no transaction of the session can commit any more, but
of one that is finished. -/
theorem lockRow (h : S.Invariant) (hr : S.reset.readers[r]? = some reader)
    (hfree : S.rowLocks reader.sessionId = none) {row : DemoSessionRow}
    (hrow : S.sessions.get? reader.sessionId = some row) :
    ((S.setLock reader.sessionId (some (.reader r))).setReader r
      { reader with phase := .counting row.revoked row.companyCode }).Invariant := by
  have hset : (S.setReader r
      { reader with phase := .counting row.revoked row.companyCode }).Invariant := by
    refine h.setReader hr rfl rfl (fun revoked company hphase => ?_) nofun nofun
    cases hphase
    refine ⟨⟨fun htrue => ⟨row, hrow, htrue⟩, fun cl hcl => ⟨fun hm => ?_, ?_⟩⟩, row, hrow, rfl⟩
    · -- A transaction that may commit holds the row lock, but that was free.
      have hs := h.session_of_entry hr hcl
      obtain ⟨e, -, hcl, -⟩ := hcl
      have hheld := h.holds hcl hm
      rw [← hs, hfree] at hheld
      cases hheld
    · rw [hrow]
      rfl
  -- No call of `clean` loses a lock that it needs.
  refine hset.setLock fun j x hx hneeds hs => ?_
  rcases hset.locked j x hx hneeds with hheld | hnone
  · have hheld : S.rowLocks x.sessionId = some (.clean j) := hheld
    rw [hs, hfree] at hheld
    cases hheld
  · exact .inr (hs ▸ hnone)

/-! ### The steps of a reader -/

theorem read (h : S.Invariant) (hstep : S.read r = some S') : S'.Invariant := by
  unfold DemoRuntime.read at hstep
  split at hstep
  · cases hstep
  rename_i reader hr
  split at hstep
  · -- The connection.
    cases hstep
    exact h.setReader_unread hr nofun nofun nofun
  · -- The row lock, unless there is no row.
    split at hstep
    · cases hstep
      exact h.setReader_unread hr nofun nofun nofun
    · rename_i row hrow
      split at hstep
      · rename_i hfree
        cases hstep
        exact h.lockRow hr hfree hrow
      · cases hstep
  · rename_i revoked company hphase
    split at hstep
    swap
    · cases hstep
    cases hstep
    -- The count of what the company owns, under the row lock.
    obtain ⟨hsaw, row, hrow, rfl⟩ := h.counting r reader revoked company hr hphase
    refine h.setReader hr rfl rfl nofun (fun b m hp => ?_) nofun
    cases hp
    refine ⟨hsaw, fun hb hm => ?_, fun cl hcl hm hd => ?_⟩
    · -- Revoked, and nothing left: the session is durably reset.
      obtain ⟨row', hrow', htrue⟩ := hsaw.1 hb
      obtain rfl := Option.some.inj (hrow.symm.trans hrow')
      exact ⟨row, hrow, htrue, by simpa using hm⟩
    · obtain ⟨row', hrow', -, hnil⟩ := hd
      obtain rfl := Option.some.inj (hrow.symm.trans hrow')
      exact of_decide_eq_true hm hnil
  · -- The `COMMIT`, which frees the row, and the verdict.
    rename_i revoked remaining hphase
    split at hstep
    · cases hstep
    cases hstep
    exact h.verdict hr hphase
  · -- The end of the connection: the entry can be resolved again.
    rename_i outcome hphase
    split at hstep
    · cases hstep
    rename_i e he
    cases hstep
    have hset : (S.setReader r { reader with phase := .done outcome }).Invariant := by
      refine h.setReader hr rfl rfl nofun nofun fun e' out he' hout => ?_
      rcases hout with hout | hout
      · cases hout
      · cases hout
        exact h.verdicts r reader e' outcome hr he' (.inl hphase)
    exact hset.setResolving he none nofun
  · cases hstep

theorem readFailed (h : S.Invariant) (hstep : S.readFailed r = some S') : S'.Invariant := by
  unfold DemoRuntime.readFailed at hstep
  split at hstep
  · cases hstep
  rename_i reader hr
  split at hstep
  · cases hstep
    exact h.setReader_unknown hr
  · cases hstep
    exact h.setReader_unknown hr
  · cases hstep
    exact h.setReader_unknown hr
  · cases hstep
    exact h.setReader_unknown hr
  · cases hstep
  · cases hstep

/-! ### Passes -/

theorem recover (h : S.Invariant) {limit : Nat} (hstep : S.recover limit = some S') :
    S'.Invariant := by
  unfold DemoRuntime.recover at hstep
  split at hstep
  · cases hstep
    exact { h with gate := h.gate }
  · cases hstep

theorem next (h : S.Invariant) {p : Nat} (hstep : S.next p = some S') : S'.Invariant := by
  unfold DemoRuntime.next at hstep
  split at hstep
  · cases hstep
  split at hstep
  · -- The pass waits for a resolution.
    split at hstep
    · cases hstep
      exact { h with gate := h.gate }
    · cases hstep
  · -- The pass goes on to its next entry.
    rename_i k entries _ _
    cases hstep
    have hresolve := h.resolve k
    exact { hresolve with gate := hresolve.gate }
  · cases hstep

/-! ## Calls of `clean` -/

/-! ### A call that goes on -/

/-- A call whose `COMMIT` has not been sent goes on to a statement that reads nothing. -/
theorem proceed (h : S.Invariant) (hcl : S.reset.cleans[i]? = some cl) (hon : cl.active = true)
    (hsame : cl.Continues cl') (hsent : cl'.commitSent = false) (hon' : cl'.active = true)
    (hreads : cl'.reads = false) (hprogress : cl'.progress = 0)
    (hnot : cl.transaction ≠ .committed) (hnot' : cl'.transaction ≠ .committed)
    (hlocked : cl'.transaction = .open → cl'.phase = .reading →
      S.rowLocks cl.sessionId = some (.clean i) ∨ S.sessions.get? cl.sessionId = none) :
    (S.setClean i cl').Invariant := by
  refine h.setClean hcl hsame (fun _ => hon) (fun hoff => ?_)
    ⟨fun hs => ?_, fun hc => absurd hc hnot', ?_, fun _ _ hp => ?_, fun _ _ hp => ?_, fun _ _ hp => ?_⟩
    (fun _ => .inr hon) (fun hneeds => ?_) (fun hr => ?_)
    ⟨fun hc => absurd hc hnot', fun hc => absurd hc hnot⟩ (fun r hp => ?_) fun out hp => ?_
  · rw [hon] at hoff
    cases hoff
  · rw [hsent] at hs
    cases hs
  · rw [hsame.before]
    exact (h.fits i cl hcl).before
  · omega
  · omega
  · omega
  · -- It reads nothing yet, so the only lock it needs is the one of its reading phase.
    rcases hneeds.2 with hphase | hr
    · exact hlocked hneeds.1 hphase
    · rw [hreads] at hr
      cases hr
  · rw [hreads] at hr
    cases hr
  · simp [Clean.active, hp] at hon'
  · simp [Clean.active, hp] at hon'

/-! ### What is known before `COMMIT` -/

theorem not_sent (h : S.Invariant) (hcl : S.reset.cleans[i]? = some cl) (hon : cl.active = true)
    (hphase : cl.phase ≠ .committing) : cl.commitSent = false := by
  by_contra hsent
  rcases (h.fits i cl hcl).sent (by simpa using hsent) with hc | hoff
  · exact hphase hc
  · rw [hon] at hoff
    cases hoff

theorem not_committed (h : S.Invariant) (hcl : S.reset.cleans[i]? = some cl)
    (hsent : cl.commitSent = false) : cl.transaction ≠ .committed := by
  intro hc
  rw [(h.fits i cl hcl).committed hc] at hsent
  cases hsent

/-! ### A call that waits -/

/-- A call that waits for a recovery connection, or is over. -/
theorem parked (h : S.Invariant) (hcl : S.reset.cleans[i]? = some cl)
    (hprogress : cl.commitSent = true → cl.progress = 13) (phase : CleanPhase)
    (hoff : ({ cl with phase } : Clean).active = false) :
    ({ cl with phase } : Clean).Fits
      ∧ (({ cl with phase } : Clean).needsLock → cl.needsLock)
      ∧ (({ cl with phase } : Clean).reads = true → cl.reads = true) := by
  have hfits := h.fits i cl hcl
  have hreads : ({ cl with phase } : Clean).reads = true → cl.commitSent = true :=
    commitSent_of_reads hoff
  have hle : ∀ {m}, 2 ≤ m → m ≤ ({ cl with phase } : Clean).progress → m ≤ cl.progress := by
    intro m hm hp
    -- A parked call counts as far as its `COMMIT` says.
    have hprog : ({ cl with phase } : Clean).progress = if cl.commitSent then 13 else 0 := by
      unfold Clean.active at hoff
      cases phase with
      | resolving r => rfl
      | done out => rfl
      | _ => cases hoff
    rw [hprog] at hp
    split at hp
    · rename_i hsent
      rw [hprogress hsent]
      exact hp
    · omega
  refine ⟨⟨fun _ => .inr hoff, hfits.committed, hfits.before, ?_, ?_, ?_⟩, fun hneeds => ?_,
    fun hr => reads_of_commitSent (hreads hr)⟩
  · exact fun rows hrows hp => hfits.series rows hrows (hle (Nat.le_refl _) hp)
  · exact fun rows hrows hp => hfits.versions rows hrows (hle (by decide) hp)
  · exact fun rows hrows hp => hfits.jobs rows hrows (hle (by decide) hp)
  · refine ⟨hneeds.1, .inr (reads_of_commitSent ?_)⟩
    rcases hneeds.2 with hp | hr
    · have hp : phase = .reading := hp
      simp [Clean.active, hp] at hoff
    · exact hreads hr

/-- The call is left waiting, and its outcome is not known. -/
theorem park (h : S.Invariant) (hcl : S.reset.cleans[i]? = some cl)
    (hprogress : cl.commitSent = true → cl.progress = 13) :
    (S.setClean i { cl with phase := .done (.error .resetOutcomeUnknown) }).Invariant := by
  obtain ⟨hfits, hneeds, hreads⟩ :=
    h.parked hcl hprogress (.done (.error .resetOutcomeUnknown)) rfl
  exact h.setClean hcl ⟨rfl, rfl, rfl⟩ nofun (fun _ => rfl) hfits (fun hm => .inl hm)
    (fun hn => h.locked i cl hcl (hneeds hn)) (fun hr => h.company i cl hcl (hreads hr)) .rfl nofun
    fun out hp => by
      cases hp
      exact .inl rfl

/-! ### `markPending` -/

/-- What `markPending` makes of the state. -/
theorem markPending_eq (S : DemoRuntime) (i : Nat) (cl : Clean) :
    S.markPending i cl = { S with
      coordinator := S.coordinator.markUnknown cl.reservation
      reset := { S.reset with
        pending := S.reset.pending.set ⟨cl.sessionId, S.reset.entries.length⟩
        entries := S.reset.entries ++ [⟨cl.reservation, cl.sessionId, cl.session.isNone,
          some S.reset.readers.length⟩]
        readers := S.reset.readers ++ [⟨S.reset.entries.length, cl.sessionId, .connecting⟩]
        cleans := S.reset.cleans.set i { cl with phase := .resolving S.reset.readers.length } } } := by
  have hset : ∀ e e' : PendingReset,
      (S.reset.entries ++ [e]).set S.reset.entries.length e' = S.reset.entries ++ [e'] := by
    intro e e'
    rw [List.set_append_right _ _ (Nat.le_refl _), Nat.sub_self]
    rfl
  unfold DemoRuntime.markPending DemoRuntime.resolve DemoRuntime.setClean
  simp only [List.getElem?_concat_length, hset]

/-- The outcome is not known: an entry of the pending map, and a recovery connection for it. -/
theorem markPending (h : S.Invariant) (hcl : S.reset.cleans[i]? = some cl)
    (hprogress : cl.commitSent = true → cl.progress = 13) :
    (S.markPending i cl).Invariant := by
  obtain ⟨rfl, -⟩ := h.reserved i cl hcl
  -- The call is parked before its entry and its reader are made, and waits for them then.
  have h₁ := h.park hcl hprogress
  have hcl₁ : (S.setClean cl.reservation
      { cl with phase := .done (.error .resetOutcomeUnknown) }).reset.cleans[cl.reservation]?
      = some { cl with phase := .done (.error .resetOutcomeUnknown) } :=
    (getElem?_setClean hcl _).trans (if_pos rfl)
  have h₂ := h₁.addEntry hcl₁ rfl cl.session.isNone
    (S.reset.pending.set ⟨cl.sessionId, S.reset.entries.length⟩)
  have h₃ := h₂.addReader (k := S.reset.entries.length) List.getElem?_concat_length
  have h₄ := h₃.setResolving (k := S.reset.entries.length) List.getElem?_concat_length
    (some S.reset.readers.length) fun r hr => by
      cases hr
      exact ⟨_, List.getElem?_concat_length, rfl⟩
  have hlast : ∀ e e' : PendingReset,
      -- A reader that was just created is the one of the entry that was just created.
      (S.reset.entries ++ [e]).set S.reset.entries.length e' = S.reset.entries ++ [e'] := by
    intro e e'
    rw [List.set_append_right _ _ (Nat.le_refl _), Nat.sub_self]
    rfl
  obtain ⟨hfits, hneeds, hreads⟩ :=
    h.parked hcl hprogress (.resolving S.reset.readers.length) rfl
  have h₅ : (DemoRuntime.setClean _ cl.reservation
      { cl with phase := .resolving S.reset.readers.length }).Invariant := h₄.setClean hcl₁
    ⟨rfl, rfl, rfl⟩ nofun (fun _ => rfl) hfits (fun hm => .inl hm)
    (fun hn => h.locked _ cl hcl (hneeds hn)) (fun hr => h.company _ cl hcl (hreads hr)) .rfl
    (fun r hr => by
      cases hr
      refine ⟨_, ⟨cl.reservation, cl.sessionId, cl.session.isNone, some S.reset.readers.length⟩,
        List.getElem?_concat_length, ?_, rfl⟩
      show ((S.reset.entries ++ [_]).set S.reset.entries.length _)[S.reset.entries.length]? = _
      rw [hlast]
      exact List.getElem?_concat_length)
    nofun
  rw [markPending_eq]
  unfold DemoRuntime.setClean at h₅
  dsimp only at h₅
  rw [hlast, List.set_set] at h₅
  exact h₅

/-! ### `finishRolledBack` -/

/-- The transaction is known to be rolled back. -/
theorem finishRolledBack (h : S.Invariant) (hcl : S.reset.cleans[i]? = some cl)
    (hon : cl.active = true) (hsent : cl.commitSent = false) (error : DemoError) :
    (S.finishRolledBack i cl error).Invariant := by
  obtain ⟨hreservation, -⟩ := h.reserved i cl hcl
  have hi := h.active i cl hcl hon
  have hnot := h.not_committed hcl hsent
  have hfits := h.fits i cl hcl
  have htrue : (S.finish i false).1 = true := by rw [h.finish_eq hcl hi]
  unfold DemoRuntime.finishRolledBack
  rw [hreservation]
  dsimp only
  rw [htrue, if_pos rfl]
  refine h.finish hcl hi (fun hm => ?_) nofun (fun _ => hnot) ⟨hreservation.symm, rfl, rfl⟩ rfl
    ⟨fun _ => .inr rfl, hfits.committed, hfits.before, ?_, ?_, ?_⟩ rfl rfl rfl nofun fun out hout => ?_
  · -- Without a `COMMIT` the transaction cannot commit, and has read nothing to remember.
    rw [hm.2] at hsent
    cases hsent
  · intro rows hrows hp
    simp [Clean.progress, hsent] at hp
  · intro rows hrows hp
    simp [Clean.progress, hsent] at hp
  · intro rows hrows hp
    simp [Clean.progress, hsent] at hp
  · cases hout
    -- `SESSION_UNAVAILABLE` is passed on; every other error becomes `RESET_FAILED`.
    refine .inr (.inr ⟨?_, rfl⟩)
    split
    · rename_i herror
      exact .inr (congrArg _ herror)
    · exact .inl rfl

/-! ### `deleteOwnedDemoData` -/

/-- The statements of `deleteOwnedDemoData`, before a change and after it. -/
theorem deleteStatement (h : S.Invariant) (hcl : S.reset.cleans[i]? = some cl) {k : Nat}
    (hphase : cl.phase = .deleting k) (hopen : cl.transaction = .open) :
    (S.setClean i (S.deleteStatement cl k)).Invariant := by
  have hon : cl.active = true := by simp [Clean.active, hphase]
  have hsent := h.not_sent hcl hon (by simp [hphase])
  have hnot := not_committed_of_open hopen
  have hreads : cl.reads = true := by simp [Clean.reads, hphase]
  have hprogress : cl.progress = k := by simp [Clean.progress, hphase]
  have hfits := h.fits i cl hcl
  obtain ⟨row, hrow, hcompany⟩ := h.company i cl hcl hreads
  -- The row lock keeps the rows of the company as they were when the call was made.
  have hrows : cl.before.rows = some (S.store.ownedBy cl.company) := by
    rw [← h.unchanged i cl hcl (h.active i cl hcl hon) hnot, snapshot, hrow, ← hcompany]
    rfl
  -- A call that is still deleting, with what it has read.
  have hgo : ∀ {cl'}, cl.Continues cl' → cl'.commitSent = false → cl'.company = cl.company →
      cl'.transaction = cl.transaction → (∃ k, cl'.phase = .deleting k) ∨ cl'.phase = .revoking →
      (2 ≤ cl'.progress → cl'.series = S.store.seriesIds cl.company) →
      (3 ≤ cl'.progress → cl'.versions = S.store.versionIds (S.store.seriesIds cl.company)) →
      (4 ≤ cl'.progress → cl'.jobs
        = S.store.jobIds (S.store.versionIds (S.store.seriesIds cl.company))) →
      (S.setClean i cl').Invariant := by
    intro cl' hsame hsent' hcompany' htransaction hphase' hseries hversions hjobs
    have hon' : cl'.active = true := by
      rcases hphase' with ⟨k, hp⟩ | hp <;> simp [Clean.active, hp]
    -- What has been selected is what the snapshot of the session holds.
    refine h.setClean hcl hsame (fun _ => hon) (fun hoff => ?_)
      ⟨fun hs => ?_, fun hc => ?_, hsame.before ▸ hfits.before, fun rows hr hp => ?_,
        fun rows hr hp => ?_, fun rows hr hp => ?_⟩
      (fun _ => .inr hon) (fun _ => h.locked i cl hcl ⟨hopen, .inr hreads⟩)
      (fun _ => ⟨row, hrow, hcompany.trans hcompany'.symm⟩) (by rw [htransaction])
      (fun r hp => ?_) fun out hp => ?_
    · rw [hon] at hoff
      cases hoff
    · rw [hsent'] at hs
      cases hs
    · rw [htransaction] at hc
      exact absurd hc hnot
    · rw [hsame.before, hrows] at hr
      cases hr
      exact (hseries hp).trans Store.seriesIds_eq
    · rw [hsame.before, hrows] at hr
      cases hr
      exact (hversions hp).trans Store.versionIds_eq
    · rw [hsame.before, hrows] at hr
      cases hr
      exact (hjobs hp).trans Store.jobIds_eq
    · simp [Clean.active, hp] at hon'
    · simp [Clean.active, hp] at hon'
  -- So far as the call has come, its selections are those of the store.
  have hseries : 2 ≤ k → cl.series = S.store.seriesIds cl.company :=
    fun hk => (hfits.series _ hrows (hprogress ▸ hk)).trans Store.seriesIds_eq.symm
  have hversions : 3 ≤ k → cl.versions = S.store.versionIds (S.store.seriesIds cl.company) :=
    fun hk => (hfits.versions _ hrows (hprogress ▸ hk)).trans Store.versionIds_eq.symm
  have hjobs : 4 ≤ k → cl.jobs
      = S.store.jobIds (S.store.versionIds (S.store.seriesIds cl.company)) :=
    fun hk => (hfits.jobs _ hrows (hprogress ▸ hk)).trans Store.jobIds_eq.symm
  unfold DemoRuntime.deleteStatement
  split
  · -- A foreign snapshot refers to the graph: the call rolls back.
    split
    · exact h.proceed hcl hon ⟨rfl, rfl, rfl⟩ hsent rfl hsent
        (by simp [Clean.progress, hsent]) hnot hnot (by simp)
    · refine hgo ⟨rfl, rfl, rfl⟩ hsent rfl rfl (.inl ⟨1, rfl⟩) (fun hp => ?_) (fun hp => ?_)
        fun hp => ?_
      all_goals exact absurd hp (by simp [Clean.progress])
  · -- The series.
    refine hgo ⟨rfl, rfl, rfl⟩ hsent rfl rfl (.inl ⟨2, rfl⟩) (fun _ => rfl) (fun hp => ?_)
      fun hp => ?_
    all_goals exact absurd hp (by simp [Clean.progress])
  · -- Their versions.
    refine hgo ⟨rfl, rfl, rfl⟩ hsent rfl rfl (.inl ⟨3, rfl⟩) (fun _ => hseries (by decide))
      (fun _ => congrArg S.store.versionIds (hseries (by decide))) fun hp => ?_
    exact absurd hp (by simp [Clean.progress])
  · -- The jobs of these.
    exact hgo ⟨rfl, rfl, rfl⟩ hsent rfl rfl (.inl ⟨4, rfl⟩) (fun _ => hseries (by decide))
      (fun _ => hversions (by decide)) fun _ => congrArg S.store.jobIds (hversions (by decide))
  · rename_i h₀ h₁ h₂ h₃
    -- One of the nine deletions. They take effect with the commit.
    have hk : 4 ≤ k := by
      have h₀ : k ≠ 0 := h₀
      have h₁ : k ≠ 1 := h₁
      have h₂ : k ≠ 2 := h₂
      have h₃ : k ≠ 3 := h₃
      omega
    refine hgo ⟨rfl, rfl, rfl⟩ hsent rfl rfl ?_ (fun _ => hseries (by omega))
      (fun _ => hversions (by omega)) fun _ => hjobs hk
    dsimp only
    split
    · exact .inl ⟨_, rfl⟩
    · exact .inr rfl

/-! ### The outcome of a recovery connection -/

/-- The outcome that the recovery connection of a call has found. -/
theorem resolved (h : S.Invariant) (hcl : S.reset.cleans[i]? = some cl)
    (hphase : cl.phase = .resolving r) {outcome : ResetOutcome}
    (hr : (S.reset.readers[r]?).map OutcomeReader.phase = some (.done outcome))
    {out : Except DemoError Unit} (hout : S.resolvedAs i outcome → S.explained i out) :
    (S.setClean i { cl with phase := .done out }).Invariant := by
  have hoff : cl.active = false := by simp [Clean.active, hphase]
  obtain ⟨reader, e, hreader, he, rfl⟩ := h.resolving i cl r hcl hphase
  rw [hreader] at hr
  have hverdict := h.verdicts r reader e outcome hreader he (.inr (Option.some.inj hr))
  have hprogress : cl.commitSent = true → cl.progress = 13 := by
    intro hs
    simp [Clean.progress, hphase, hs]
  obtain ⟨hfits, hneeds, hreads⟩ := h.parked hcl hprogress (.done out) rfl
  refine h.setClean hcl ⟨rfl, rfl, rfl⟩ (fun ha => by cases ha) (fun _ => rfl) hfits
    (fun hm => .inl hm) (fun hn => h.locked _ cl hcl (hneeds hn))
    (fun hr => h.company _ cl hcl (hreads hr)) .rfl (fun _ hp => by cases hp) fun out' hp => ?_
  cases hp
  exact hout hverdict

/-! ### What a call waits for arrives -/

theorem advance (h : S.Invariant) (hstep : S.advance i = some S') : S'.Invariant := by
  unfold DemoRuntime.advance at hstep
  split at hstep
  · cases hstep
  rename_i cl hcl
  -- In the phases before `COMMIT` the call is active and has sent none.
  have hearly : ∀ {p}, cl.phase = p → (p ≠ .committing) →
      ({ cl with phase := p } : Clean).active = true →
      cl.active = true ∧ cl.commitSent = false := by
    rintro p rfl hp hon
    exact ⟨hon, h.not_sent hcl hon hp⟩
  split at hstep
  · -- A connection, and `BEGIN` is sent.
    rename_i hphase
    obtain ⟨hon, hsent⟩ := hearly hphase (by simp) rfl
    have hnot := h.not_committed hcl hsent
    cases hstep
    exact h.proceed hcl hon ⟨rfl, rfl, rfl⟩ hsent rfl hsent
      (by simp [Clean.progress, hsent]) hnot hnot (by simp)
  · -- `BEGIN`, and the locking read is sent.
    rename_i hphase
    obtain ⟨hon, hsent⟩ := hearly hphase (by simp) rfl
    cases hstep
    exact h.proceed hcl hon ⟨rfl, rfl, rfl⟩ hsent rfl hsent
      (by simp [Clean.progress, hsent]) (h.not_committed hcl hsent) (by simp) (by simp)
  · -- The row lock, or there is no row.
    rename_i hphase
    obtain ⟨hon, hsent⟩ := hearly hphase (by simp) rfl
    have hnot := h.not_committed hcl hsent
    split at hstep
    swap
    · cases hstep
    rename_i hlock
    cases hstep
    exact h.proceed hcl hon ⟨rfl, rfl, rfl⟩ hsent rfl hsent
      (by simp [Clean.progress, hsent]) hnot hnot fun _ _ => hlock.2
  · -- The row. It may be gone, or be none that this caller cleans.
    rename_i hphase
    obtain ⟨hon, hsent⟩ := hearly hphase (by simp) rfl
    have hnot := h.not_committed hcl hsent
    split at hstep
    swap
    · cases hstep
    rename_i hopen
    split at hstep
    · cases hstep
      exact h.proceed hcl hon ⟨rfl, rfl, rfl⟩ hsent rfl hsent
        (by simp [Clean.progress, hsent]) hnot hnot (by simp)
    · rename_i row hrow
      obtain ⟨hrow, -⟩ := Option.filter_eq_some_iff.mp hrow
      cases hstep
      refine h.setClean hcl ⟨rfl, rfl, rfl⟩ (fun _ => hon) (fun hoff => ?_)
        ⟨fun hs => ?_, fun hc => absurd hc hnot, (h.fits i cl hcl).before, fun _ _ hp => ?_,
          fun _ _ hp => ?_, fun _ _ hp => ?_⟩
        (fun _ => .inr hon) (fun _ => h.locked i cl hcl ⟨hopen, .inl hphase⟩)
        (fun _ => ⟨row, hrow, rfl⟩) .rfl (by simp) (by simp)
      · rw [hon] at hoff
        cases hoff
      · rw [hsent] at hs
        cases hs
      all_goals exact absurd hp (by simp [Clean.progress])
  · -- A statement of `deleteOwnedDemoData`.
    rename_i k hphase
    split at hstep
    · cases hstep
      exact h.deleteStatement hcl hphase ‹_›
    · cases hstep
  · -- The revocation.
    rename_i hphase
    obtain ⟨hon, hsent⟩ := hearly hphase (by simp) rfl
    have hnot := h.not_committed hcl hsent
    have hfits := h.fits i cl hcl
    have hprogress : cl.progress = 13 := by simp [Clean.progress, hphase]
    split at hstep
    swap
    · cases hstep
    rename_i hopen
    cases hstep
    have hreads : cl.reads = true := by simp [Clean.reads, hphase]
    refine h.setClean hcl ⟨rfl, rfl, rfl⟩ (fun _ => hon) (fun hoff => ?_)
      ⟨fun hs => ?_, fun hc => absurd hc hnot, hfits.before,
        fun rows hr hp => hfits.series rows hr (hprogress ▸ hp),
        fun rows hr hp => hfits.versions rows hr (hprogress ▸ hp),
        fun rows hr hp => hfits.jobs rows hr (hprogress ▸ hp)⟩
      (fun _ => .inr hon) (fun _ => h.locked i cl hcl ⟨hopen, .inr hreads⟩)
      (fun _ => h.company i cl hcl hreads) .rfl (by simp) (by simp)
    · rw [hon] at hoff
      cases hoff
    · rw [hsent] at hs
      cases hs
  · -- `COMMIT` is sent. From here on the server may commit at any moment.
    rename_i hphase
    obtain ⟨hon, hsent⟩ := hearly hphase (by simp) rfl
    have hnot := h.not_committed hcl hsent
    have hfits := h.fits i cl hcl
    have hprogress : cl.progress = 13 := by simp [Clean.progress, hphase]
    have hreads : cl.reads = true := by simp [Clean.reads, hphase]
    cases hstep
    refine h.setClean hcl ⟨rfl, rfl, rfl⟩ (fun _ => hon) (fun hoff => ?_)
      ⟨fun _ => .inl rfl, fun _ => rfl, hfits.before,
        fun rows hr hp => hfits.series rows hr (hprogress ▸ hp),
        fun rows hr hp => hfits.versions rows hr (hprogress ▸ hp),
        fun rows hr hp => hfits.jobs rows hr (hprogress ▸ hp)⟩
      (fun _ => .inr hon) (fun hneeds => h.locked i cl hcl ⟨hneeds.1, .inr hreads⟩)
      (fun _ => h.company i cl hcl hreads) .rfl (by simp) (by simp)
    rw [hon] at hoff
    cases hoff
  · -- `COMMIT` is acknowledged.
    rename_i hphase
    split at hstep
    swap
    · cases hstep
    rename_i hdone
    obtain ⟨hreservation, -⟩ := h.reserved i cl hcl
    have hon : cl.active = true := by simp [Clean.active, hphase]
    have hi := h.active i cl hcl hon
    have hfits := h.fits i cl hcl
    have hprogress : cl.progress = 13 := by simp [Clean.progress, hphase]
    have hsent := hfits.committed hdone
    -- The reservation is still the current one, so `finishReset` does not throw.
    have htrue : (S.finish i true).1 = true := by rw [h.finish_eq hcl hi]
    rw [hreservation] at hstep
    dsimp only at hstep
    rw [htrue, if_pos rfl] at hstep
    cases hstep
    refine h.finish hcl hi (fun hm => ?_) (fun _ => h.committed i cl hcl hdone) (by simp)
      ⟨hreservation.symm, rfl, rfl⟩ rfl ⟨fun _ => .inr rfl, hfits.committed, hfits.before, ?_, ?_, ?_⟩ rfl rfl rfl
      (by simp) fun out hout => ?_
    · rw [hm.1] at hdone
      cases hdone
    · exact fun rows hr hp => hfits.series rows hr (by omega)
    · exact fun rows hr hp => hfits.versions rows hr (by omega)
    · exact fun rows hr hp => hfits.jobs rows hr (by omega)
    · cases hout
      exact .inr (.inl ⟨rfl, rfl⟩)
  · -- `ROLLBACK` is acknowledged.
    rename_i error hphase
    obtain ⟨hon, hsent⟩ := hearly hphase (by simp) rfl
    have hnot := h.not_committed hcl hsent
    cases hstep
    have haborted := h.abortTransaction hcl hnot
    have hcl' : (S.abortTransaction i cl).reset.cleans[i]?
        = some { cl with transaction := .aborted } := ?_
    · exact haborted.finishRolledBack hcl' hon hsent error
    unfold DemoRuntime.abortTransaction
    split
    · exact (getElem?_setClean (S := S.setLock _ _) hcl i).trans (if_pos rfl)
    · exact (getElem?_setClean hcl i).trans (if_pos rfl)
  · -- The recovery connection has ended, with one of three outcomes.
    rename_i r hphase
    split at hstep
    · rename_i hr
      cases hstep
      exact h.resolved hcl hphase hr fun hfinished => hfinished
    · rename_i hr
      cases hstep
      exact h.resolved hcl hphase hr fun hfinished => .inr ⟨.inl rfl, hfinished⟩
    · rename_i hr
      cases hstep
      exact h.resolved hcl hphase hr fun _ => .inl rfl
    · cases hstep
  · cases hstep

/-! ### What a call waits for fails -/

theorem fail (h : S.Invariant) {message : String} (hstep : S.fail i message = some S') :
    S'.Invariant := by
  unfold DemoRuntime.fail at hstep
  split at hstep
  · cases hstep
  rename_i cl hcl
  have hearly : ∀ {p}, cl.phase = p → (p ≠ .committing) →
      ({ cl with phase := p } : Clean).active = true →
      cl.active = true ∧ cl.commitSent = false := by
    rintro p rfl hp hon
    exact ⟨hon, h.not_sent hcl hon hp⟩
  -- Before `COMMIT` an error leads to `ROLLBACK`.
  have hrollBack : cl.active = true ∧ cl.commitSent = false →
      (S.setClean i { cl with phase := .rollingBack (.other message) }).Invariant := by
    rintro ⟨hon, hsent⟩
    have hnot := h.not_committed hcl hsent
    exact h.proceed hcl hon ⟨rfl, rfl, rfl⟩ hsent rfl hsent
      (by simp [Clean.progress, hsent]) hnot hnot (by simp)
  split at hstep
  · -- Without a connection there is no transaction to roll back.
    rename_i hphase
    obtain ⟨hon, hsent⟩ := hearly hphase (by simp) rfl
    cases hstep
    exact h.finishRolledBack hcl hon hsent _
  · rename_i hphase
    cases hstep
    exact hrollBack (hearly hphase (by simp) rfl)
  · rename_i hphase
    cases hstep
    exact hrollBack (hearly hphase (by simp) rfl)
  · rename_i hphase
    cases hstep
    exact hrollBack (hearly hphase (by simp) rfl)
  · rename_i hphase
    cases hstep
    exact hrollBack (hearly hphase (by simp) rfl)
  · rename_i hphase
    cases hstep
    exact hrollBack (hearly hphase (by simp) rfl)
  · rename_i hphase
    cases hstep
    exact hrollBack (hearly hphase (by simp) rfl)
  · -- The answer to `COMMIT` is lost: the outcome is unknown.
    rename_i hphase
    cases hstep
    exact h.markPending hcl fun _ => by simp [Clean.progress, hphase]
  · -- So is the answer to `ROLLBACK`.
    rename_i hphase
    obtain ⟨-, hsent⟩ := hearly hphase (by simp) rfl
    cases hstep
    refine h.markPending hcl fun hs => ?_
    rw [hsent] at hs
    cases hs
  · cases hstep
  · cases hstep

/-! ## Every step -/

theorem step (h : S.Invariant) {event : DemoEvent} (hstep : S.step event = some S') :
    S'.Invariant := by
  cases event with
  | create id company => exact h.create hstep
  | expire id =>
      cases hstep
      exact h.expire id
  | authenticate id => exact h.authenticate hstep
  | run session => exact h.run hstep
  | runParallel session => exact h.runParallel hstep
  | startOperation n => exact h.startOperation hstep
  | revalidate n lost => exact h.revalidate hstep
  | revalidated n => exact h.revalidated hstep
  | lookup n lost => exact h.lookup hstep
  | forSession n created => exact h.forSession hstep
  | useExecutor n call => exact h.useExecutor hstep
  | write n w => exact h.write hstep
  | bodySettled n => exact h.bodySettled hstep
  | releaseSlot n => exact h.releaseSlot hstep
  | complete n => exact h.complete hstep
  -- Both kinds of reset make a reservation, or do not begin.
  | reset session =>
      have hstep : S.beginClean (S.coordinator.tryBeginReset (session ∈ S.contexts) session)
        session.sessionId (some session) = some S' := hstep
      cases hreserve : S.coordinator.tryBeginReset (session ∈ S.contexts) session with
      | error e =>
          rw [hreserve] at hstep
          cases hstep
      | ok reserved =>
          rw [hreserve] at hstep
          exact h.beginClean (Coordinator.tryBeginReset_ok hreserve) hstep
  | cleanup id =>
      have hstep : S.beginClean (S.coordinator.reserveCleanup id) id none = some S' := hstep
      cases hreserve : S.coordinator.reserveCleanup id with
      | error e =>
          rw [hreserve] at hstep
          cases hstep
      | ok reserved =>
          rw [hreserve] at hstep
          exact h.beginClean hreserve hstep
  | advance i => exact h.advance hstep
  | fail i message => exact h.fail hstep
  | lock i => exact h.lock hstep
  | commit i => exact h.commit hstep
  | abort i => exact h.abort hstep
  | read r => exact h.read hstep
  | readFailed r => exact h.readFailed hstep
  | unlock r => exact h.unlock hstep
  | recover limit => exact h.recover hstep
  | next p => exact h.next hstep

theorem runs (h : S.Invariant) {events : List DemoEvent} (hruns : runs events S = some S') :
    S'.Invariant := by
  induction events generalizing S with
  | nil =>
      cases hruns
      exact h
  | cons event events ih =>
      obtain ⟨S₁, hstep, hrest⟩ := Option.bind_eq_some_iff.mp hruns
      exact ih (h.step hstep) hrest

end Invariant

end DemoRuntime

end CostEngine
