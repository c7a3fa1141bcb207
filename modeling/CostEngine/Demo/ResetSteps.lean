import CostEngine.Demo.OperationSteps

/-! # The steps of resets keep the invariant -/

namespace CostEngine

open Relational (Table)

/-- What does not change of a call of `clean`. -/
structure Clean.Continues (cl cl' : Clean) : Prop where
  reservation : cl'.reservation = cl.reservation
  sessionId : cl'.sessionId = cl.sessionId
  before : cl'.before = cl.before

namespace DemoRuntime

variable {S S' : DemoRuntime} {i j k r : Nat} {cl cl' : Clean} {id : String}
  {reader reader' : OutcomeReader}

/-! ## The lists of the reset service -/

theorem getElem?_setClean (hcl : S.reset.cleans[i]? = some cl) (j : Nat) :
    (S.setClean i cl').reset.cleans[j]? = if j = i then some cl' else S.reset.cleans[j]? := by
  show (S.reset.cleans.set i cl')[j]? = _
  rw [List.getElem?_set]
  by_cases hj : i = j
  · subst hj
    simp [(List.getElem?_eq_some_iff.mp hcl).1]
  · simp [hj, Ne.symm hj]

theorem getElem?_setReader (hr : S.reset.readers[r]? = some reader) (q : Nat) :
    (S.setReader r reader').reset.readers[q]?
      = if q = r then some reader' else S.reset.readers[q]? := by
  show (S.reset.readers.set r reader')[q]? = _
  rw [List.getElem?_set]
  by_cases hq : r = q
  · subst hq
    simp [(List.getElem?_eq_some_iff.mp hr).1]
  · simp [hq, Ne.symm hq]

theorem setClean_self (hcl : S.reset.cleans[i]? = some cl) : S.setClean i cl = S := by
  obtain ⟨hi, hget⟩ := List.getElem?_eq_some_iff.mp hcl
  unfold setClean
  rw [← hget, List.set_getElem_self]

namespace Invariant

/-! ## Calls -/

/-- A call of `clean` goes on. -/
theorem setClean (h : S.Invariant) (hcl : S.reset.cleans[i]? = some cl) (hsame : cl.Continues cl')
    (hactive : cl'.active = true → cl.active = true)
    (hinactive : cl.active = false → cl'.active = false) (hfits : cl'.Fits)
    (hmay : cl'.mayCommit → cl.mayCommit ∨ cl.active = true)
    (hlocked : cl'.needsLock → S.rowLocks cl.sessionId = some (.clean i)
      ∨ S.sessions.get? cl.sessionId = none)
    (hcompany : cl'.reads = true →
      ∃ row, S.sessions.get? cl.sessionId = some row ∧ row.companyCode = cl'.company)
    (hcommitted : cl'.transaction = .committed ↔ cl.transaction = .committed)
    (hresolving : ∀ r, cl'.phase = .resolving r → ∃ reader e, S.reset.readers[r]? = some reader
      ∧ S.reset.entries[reader.entry]? = some e ∧ e.reservation = i)
    (houtcome : ∀ out, cl'.phase = .done out → S.explained i out) :
    (S.setClean i cl').Invariant := by
  have hget : ∀ {j : Nat} {x : Clean}, (S.setClean i cl').reset.cleans[j]? = some x →
      (j = i ∧ x = cl') ∨ (j ≠ i ∧ S.reset.cleans[j]? = some x) := by
    intro j x hx
    rw [getElem?_setClean hcl] at hx
    split at hx
    · exact .inl ⟨‹_›, (Option.some.inj hx).symm⟩
    · exact .inr ⟨‹_›, hx⟩
  -- Only a reservation that is not finished can be committed for.
  have hmayFinished : cl'.mayCommit → ¬ S.isFinished i := fun hm =>
    (hmay hm).elim (h.mayCommit i cl hcl) (h.active i cl hcl)
  -- What readers of unfinished entries know of the call is what they knew of it before.
  have hentry : ∀ {reader x}, (S.setClean i cl').unfinishedEntry reader x →
      S.unfinishedEntry reader x ∨ (x = cl' ∧ ¬ cl'.mayCommit ∧ S.unfinishedEntry reader cl)
        ∨ (x = cl' ∧ cl.mayCommit ∧ S.unfinishedEntry reader cl) := by
    rintro reader x ⟨e, he, hx, hf⟩
    rcases hget hx with ⟨hi, rfl⟩ | ⟨-, hx⟩
    · have hold : S.unfinishedEntry reader cl := ⟨e, he, hi ▸ hcl, hf⟩
      by_cases hm : cl.mayCommit
      · exact .inr (.inr ⟨rfl, hm, hold⟩)
      · refine .inr (.inl ⟨rfl, fun hm' => ?_, hold⟩)
        rcases hmay hm' with hm'' | hon
        · exact hm hm''
        · -- An active call has no entry.
          obtain ⟨cl₀, hcl₀, -, hoff⟩ := h.entries _ e he
          rw [hi, hcl] at hcl₀
          cases hcl₀
          rw [hon] at hoff
          cases hoff
    · exact .inl ⟨e, he, hx, hf⟩
  have hsaw : ∀ {reader revoked}, S.saw reader revoked → (S.setClean i cl').saw reader revoked := by
    intro reader revoked ⟨hrevoked, hold⟩
    refine ⟨hrevoked, fun x hx => ?_⟩
    rcases hentry hx with hx | ⟨rfl, hnot, hx⟩ | ⟨-, hm, hx⟩
    · exact hold x hx
    · exact ⟨hnot, (hold cl hx).2⟩
    · exact absurd hm (hold cl hx).1
  -- Each clause is one of `cl'` and one of the other calls.
  refine { h with
    numbered := (List.length_set ..).trans h.numbered
    reserved := fun j x hx => ?_
    current := fun j x hx => ?_
    active := fun j x hx hon => ?_
    mayCommit := fun j x hx hm => ?_
    fits := fun j x hx => ?_
    locked := fun j x hx hneeds => ?_
    company := fun j x hx hreads => ?_
    committed := fun j x hx hdone => ?_
    unchanged := fun j x hx hf hdone => ?_
    resolving := fun j x r hx hphase => ?_
    outcome := fun j x out hx hphase => ?_
    entries := fun k e he => ?_
    counting := fun r reader revoked company hr hphase =>
      (h.counting r reader revoked company hr hphase).imp_left hsaw
    committing := fun r reader revoked remaining hr hphase => ?_
    finishes := fun f hf => ?_ }
  · -- The reservation and the session of a call never change.
    rcases hget hx with ⟨rfl, rfl⟩ | ⟨-, hold⟩
    · rw [hsame.reservation, hsame.sessionId]
      exact h.reserved j cl hcl
    · exact h.reserved j x hold
  · rcases hget hx with ⟨rfl, rfl⟩ | ⟨-, hold⟩
    · rw [hsame.sessionId]
      exact h.current j cl hcl
    · exact h.current j x hold
  · -- It may go on only as long as it is active.
    rcases hget hx with ⟨rfl, rfl⟩ | ⟨-, hold⟩
    · exact h.active j cl hcl (hactive hon)
    · exact h.active j x hold hon
  · rcases hget hx with ⟨rfl, rfl⟩ | ⟨-, hold⟩
    · exact hmayFinished hm
    · exact h.mayCommit j x hold hm
  · rcases hget hx with ⟨rfl, rfl⟩ | ⟨-, hold⟩
    · exact hfits
    · exact h.fits j x hold
  · rcases hget hx with ⟨rfl, rfl⟩ | ⟨-, hold⟩
    · rw [hsame.sessionId]
      exact hlocked hneeds
    · exact h.locked j x hold hneeds
  · rcases hget hx with ⟨rfl, rfl⟩ | ⟨-, hold⟩
    · rw [hsame.sessionId]
      exact hcompany hreads
    · exact h.company j x hold hreads
  · rcases hget hx with ⟨rfl, rfl⟩ | ⟨-, hold⟩
    · rw [hsame.sessionId]
      exact h.committed j cl hcl (hcommitted.mp hdone)
    · exact h.committed j x hold hdone
  · rcases hget hx with ⟨rfl, rfl⟩ | ⟨-, hold⟩
    · -- The session is as it was, unless the transaction has committed, and that has not
      -- changed.
      rw [hsame.sessionId, hsame.before]
      exact h.unchanged j cl hcl hf fun hd => hdone (hcommitted.mpr hd)
    · exact h.unchanged j x hold hf hdone
  · rcases hget hx with ⟨rfl, rfl⟩ | ⟨-, hold⟩
    · exact hresolving r hphase
    · exact h.resolving j x r hold hphase
  · rcases hget hx with ⟨rfl, rfl⟩ | ⟨-, hold⟩
    · exact houtcome out hphase
    · exact h.outcome j x out hold hphase
  · -- The call that an entry refers to is over, and stays so.
    obtain ⟨x, hx, hs, hoff⟩ := h.entries k e he
    by_cases hi : e.reservation = i
    · rw [hi, hcl] at hx
      cases hx
      exact ⟨cl', (getElem?_setClean hcl _).trans (if_pos hi), hsame.sessionId.trans hs,
        hinactive hoff⟩
    · exact ⟨x, (getElem?_setClean hcl _).trans ((if_neg hi).trans hx), hs, hoff⟩
  · -- A reader of the call's entry knows as much of `cl'` as of `cl`.
    obtain ⟨hold, hempty, hsome⟩ := h.committing r reader revoked remaining hr hphase
    refine ⟨hsaw hold, hempty, fun x hx hrem => ?_⟩
    rcases hentry hx with hx | ⟨-, -, hx⟩ | ⟨-, -, hx⟩
    · exact hsome x hx hrem
    · exact hsome cl hx hrem
    · exact hsome cl hx hrem
  · -- The verdicts speak of the session and of its state before, which are the same.
    obtain ⟨x, hx, hadmissible, hdone, hback⟩ := h.finishes f hf
    by_cases hi : f.reservation = i
    · rw [hi, hcl] at hx
      cases hx
      refine ⟨cl', (getElem?_setClean hcl _).trans (if_pos hi), hadmissible, fun hc => ?_,
        fun hc => (hback hc).trans hsame.before.symm⟩
      rw [hsame.sessionId]
      exact hdone hc
    · exact ⟨x, (getElem?_setClean hcl _).trans ((if_neg hi).trans hx), hadmissible, hdone, hback⟩

/-! ## Row locks -/

/-! ### The lock of a session -/

theorem setLock (h : S.Invariant) {lock : Option SessionLock}
    (hlocked : ∀ (j : Nat) (x : Clean), S.reset.cleans[j]? = some x → x.needsLock →
      x.sessionId = id → lock = some (.clean j) ∨ S.sessions.get? id = none) :
    (S.setLock id lock).Invariant := by
  refine { h with locked := fun j x hx hneeds => ?_ }
  show Function.update S.rowLocks id lock x.sessionId = _ ∨ _
  rw [Function.update_apply]
  split
  · rename_i hid
    rw [hid]
    exact hlocked j x hx hneeds hid
  · exact h.locked j x hx hneeds

theorem lock (h : S.Invariant) (hstep : S.lock i = some S') : S'.Invariant := by
  unfold DemoRuntime.lock at hstep
  split at hstep
  · cases hstep
  rename_i cl hcl
  split at hstep
  swap
  · cases hstep
  rename_i hfree
  obtain ⟨-, -, hfree, hrow⟩ := hfree
  cases hstep
  -- Whoever needs the lock holds it already, but the lock was free.
  refine h.setLock fun j x hx hneeds hs => ?_
  rcases h.locked j x hx hneeds with hheld | hnone
  · rw [hs, hfree] at hheld
    cases hheld
  · exact .inr (hs ▸ hnone)

theorem unlock (h : S.Invariant) (hstep : S.unlock r = some S') : S'.Invariant := by
  unfold DemoRuntime.unlock at hstep
  split at hstep
  · cases hstep
  rename_i reader hr
  split at hstep
  swap
  · cases hstep
  rename_i hheld
  cases hstep
  -- It was the reader's, so no call of `clean` loses it.
  refine h.setLock fun j x hx hneeds hs => ?_
  rcases h.locked j x hx hneeds with hheld' | hnone
  · rw [hs, hheld] at hheld'
    cases hheld'
  · exact .inr (hs ▸ hnone)

/-! ### Aborts -/

/-- The lock of a transaction that does not need it any more. -/
theorem dropLock (h : S.Invariant) (hcl : S.reset.cleans[i]? = some cl) (hneeds : ¬ cl.needsLock)
    (hheld : S.rowLocks id = some (.clean i)) : (S.setLock id none).Invariant := by
  refine h.setLock fun j x hx hx' hs => ?_
  rcases h.locked j x hx hx' with hheld' | hnone
  · rw [hs, hheld] at hheld'
    cases hheld'
    obtain rfl := Option.some.inj (hcl.symm.trans hx)
    exact absurd hx' hneeds
  · exact .inr (hs ▸ hnone)

theorem not_committed_of_open (hopen : cl.transaction = .open) : cl.transaction ≠ .committed := by
  rw [hopen]
  decide

/-- A transaction that has not committed ends without effect. -/
theorem abortTransaction (h : S.Invariant) (hcl : S.reset.cleans[i]? = some cl)
    (hnot : cl.transaction ≠ .committed) : (S.abortTransaction i cl).Invariant := by
  have hfits := h.fits i cl hcl
  -- An aborted transaction can neither commit nor need a lock.
  have hset : (S.setClean i { cl with transaction := .aborted }).Invariant := by
    refine h.setClean hcl ⟨rfl, rfl, rfl⟩ id id
      ⟨hfits.sent, nofun, hfits.before, hfits.series, hfits.versions, hfits.jobs⟩
      (fun hm => nomatch hm.1) (fun hneeds => nomatch hneeds.1) (h.company i cl hcl)
      ⟨nofun, fun hc => absurd hc hnot⟩ (h.resolving i cl · hcl) (h.outcome i cl · hcl)
  unfold DemoRuntime.abortTransaction
  split
  · rename_i hheld
    exact hset.dropLock ((getElem?_setClean hcl i).trans (if_pos rfl))
      (fun hneeds => nomatch hneeds.1) hheld
  · exact hset

theorem abort (h : S.Invariant) (hstep : S.abort i = some S') : S'.Invariant := by
  unfold DemoRuntime.abort at hstep
  split at hstep
  · cases hstep
  rename_i cl hcl
  split at hstep
  swap
  · cases hstep
  cases hstep
  exact h.abortTransaction hcl (not_committed_of_open ‹_›)

/-! ## The commit -/

/-- What was read is what is there. -/
theorem ids (h : S.Invariant) (hcl : S.reset.cleans[i]? = some cl) (hi : ¬ S.isFinished i)
    (hnot : cl.transaction ≠ .committed) {row : DemoSessionRow}
    (hrow : S.sessions.get? cl.sessionId = some row) :
    (2 ≤ cl.progress → cl.series = S.store.seriesIds row.companyCode)
      ∧ (3 ≤ cl.progress → cl.versions = S.store.versionIds (S.store.seriesIds row.companyCode))
      ∧ (4 ≤ cl.progress → cl.jobs
        = S.store.jobIds (S.store.versionIds (S.store.seriesIds row.companyCode))) := by
  have hrows : cl.before.rows = some (S.store.ownedBy row.companyCode) := by
    rw [← h.unchanged i cl hcl hi hnot, snapshot, hrow]
    rfl
  have hfits := h.fits i cl hcl
  exact ⟨fun hp => (hfits.series _ hrows hp).trans Store.seriesIds_eq.symm,
    fun hp => (hfits.versions _ hrows hp).trans Store.versionIds_eq.symm,
    fun hp => (hfits.jobs _ hrows hp).trans Store.jobIds_eq.symm⟩

/-! ### A transaction that may commit -/

theorem progress_of_mayCommit (h : S.Invariant) (hcl : S.reset.cleans[i]? = some cl)
    (hm : cl.mayCommit) : cl.progress = 13 := by
  unfold Clean.progress
  rcases (h.fits i cl hcl).sent hm.2 with hphase | hoff
  · rw [hphase]
  · unfold Clean.active at hoff
    split at hoff
    · rename_i hphase
      rw [hphase, hm.2]
      rfl
    · rename_i hphase
      rw [hphase, hm.2]
      rfl
    · cases hoff

theorem reads_of_commitSent (hsent : cl.commitSent = true) : cl.reads = true := by
  unfold Clean.reads
  split
  · rfl
  · rfl
  · rfl
  · rfl
  · exact hsent

/-- An entry that refers to a call of `clean`, before and after a change of the calls. -/
theorem session_of_entry (h : S.Invariant) (hr : S.reset.readers[r]? = some reader)
    (hentry : S.unfinishedEntry reader cl) : reader.sessionId = cl.sessionId := by
  obtain ⟨e, he, hcl, -⟩ := hentry
  obtain ⟨e', he', hs⟩ := h.readers r reader hr
  obtain rfl := Option.some.inj (he.symm.trans he')
  obtain ⟨cl', hcl', hs', -⟩ := h.entries _ e he
  obtain rfl := Option.some.inj (hcl.symm.trans hcl')
  exact hs.symm.trans hs'.symm

/-! ### The state after the commit -/

/-- The commit revokes the session and deletes what its company owns. No operation of the
session is admitted, and no recovery connection has read its row. -/
theorem committed_step (h : S.Invariant) (hcl : S.reset.cleans[i]? = some cl) (hm : cl.mayCommit)
    {row : DemoSessionRow} (hrow : S.sessions.get? cl.sessionId = some row) :
    ({ S with
        store := S.store.deleteOwned cl.series cl.versions cl.jobs
        sessions := S.sessions.put { row with revoked := true } }.setClean i
      { cl with transaction := .committed }).Invariant := by
  have hi := h.mayCommit i cl hcl hm
  have hprogress := h.progress_of_mayCommit hcl hm
  obtain ⟨hseries, hversions, hjobs⟩ := h.ids hcl hi (not_committed_of_open hm.1) hrow
  -- What the call has read is what the company owns now, so its deletion is that of the company.
  generalize hstore : S.store.deleteOwned cl.series cl.versions cl.jobs = store
  rw [hseries (by omega), hversions (by omega), hjobs (by omega)] at hstore
  have hkey : row.id = cl.sessionId := Table.get?_key hrow
  have hself : (S.sessions.put { row with revoked := true }).get? cl.sessionId
      = some { row with revoked := true } := by
    rw [Table.get?_put, if_pos hkey, hrow]
    rfl
  have hother : ∀ {k}, k ≠ cl.sessionId →
      (S.sessions.put { row with revoked := true }).get? k = S.sessions.get? k := by
    intro k hk
    rw [Table.get?_put, if_neg]
    exact fun hk' => hk (hk'.symm.trans hkey)
  have hcode : ∀ {k row'}, (S.sessions.put { row with revoked := true }).get? k = some row' →
      ∃ row₀, S.sessions.get? k = some row₀ ∧ row₀.companyCode = row'.companyCode := by
    intro k row' hrow'
    by_cases hk : k = cl.sessionId
    · rw [hk, hself] at hrow'
      cases hrow'
      exact ⟨row, hk ▸ hrow, rfl⟩
    · exact ⟨row', (hother hk).symm.trans hrow', rfl⟩
  have hcode' : ∀ {k row₀}, S.sessions.get? k = some row₀ →
      ∃ row', (S.sessions.put { row with revoked := true }).get? k = some row'
        ∧ row'.companyCode = row₀.companyCode
        ∧ (row₀.revoked = true → row'.revoked = true) := by
    intro k row₀ hrow₀
    by_cases hk : k = cl.sessionId
    · rw [hk, hrow] at hrow₀
      cases hrow₀
      exact ⟨{ row with revoked := true }, hk ▸ hself, rfl, fun _ => rfl⟩
    · exact ⟨row₀, (hother hk).trans hrow₀, rfl, fun hr => hr⟩
  -- Another session has another company, whose rows stay.
  have howned : ∀ {k row'}, S.sessions.get? k = some row' → k ≠ cl.sessionId →
      store.ownedBy row'.companyCode = S.store.ownedBy row'.companyCode := by
    intro k row' hrow' hk
    have hne : row'.companyCode ≠ row.companyCode := fun hc => hk (h.companies _ _ _ _ hrow' hrow hc)
    rw [← hstore]
    exact (Store.sameOwned_deleteOwned hne).ownedBy
  have hempty : store.seriesIds row.companyCode = [] := hstore ▸ Store.seriesIds_deleteOwned
  generalize hS' : ({ S with
        store
        sessions := S.sessions.put { row with revoked := true } }.setClean i
      { cl with transaction := .committed }) = S'
  -- From here on the new state is a name.
  have hsessions : S'.sessions = S.sessions.put { row with revoked := true } := hS' ▸ rfl
  have hstore' : S'.store = store := hS' ▸ rfl
  have hself_durable : S'.durable cl.sessionId := by
    refine ⟨_, by rw [hsessions]; exact hself, rfl, ?_⟩
    rw [hstore']
    exact hempty
  have hdurable_iff : ∀ {k}, k ≠ cl.sessionId → (S'.durable k ↔ S.durable k) := by
    intro k hk
    unfold durable
    rw [hsessions, hother hk, hstore']
    refine exists_congr fun row' => and_congr_right fun hrow' => and_congr_right fun _ => ?_
    rw [Store.seriesIds_eq, Store.seriesIds_eq, howned hrow' hk]
  have hdurable : ∀ {k}, S.durable k → S'.durable k := by
    intro k hk
    by_cases hs : k = cl.sessionId
    · exact hs ▸ hself_durable
    · exact (hdurable_iff hs).mpr hk
  have hrevoked : ∀ {k}, S.revokedIn k → S'.revokedIn k := by
    rintro k ⟨row₀, hrow₀, htrue⟩
    obtain ⟨row', hrow', -, hkept⟩ := hcode' hrow₀
    exact ⟨row', by rw [hsessions]; exact hrow', hkept htrue⟩
  -- Only the session of the call is newly revoked.
  have hrevoked' : ∀ {k}, S'.revokedIn k → k ≠ cl.sessionId → S.revokedIn k := by
    rintro k ⟨row', hrow', htrue⟩ hk
    rw [hsessions, hother hk] at hrow'
    exact ⟨row', hrow', htrue⟩
  have hget : ∀ {j : Nat} {x : Clean}, S'.reset.cleans[j]? = some x →
      (j = i ∧ x = { cl with transaction := .committed })
        ∨ (j ≠ i ∧ S.reset.cleans[j]? = some x) := by
    intro j x hx
    rw [← hS', getElem?_setClean (by exact hcl)] at hx
    split at hx
    · exact .inl ⟨‹_›, (Option.some.inj hx).symm⟩
    · exact .inr ⟨‹_›, hx⟩
  have hset : ∀ j, S'.reset.cleans[j]?
      = if j = i then some { cl with transaction := .committed } else S.reset.cleans[j]? := by
    intro j
    rw [← hS', getElem?_setClean (by exact hcl)]
  have hentry : ∀ {reader x}, S'.unfinishedEntry reader x →
      S.unfinishedEntry reader cl ∨ ∃ j, j ≠ i ∧ S.reset.cleans[j]? = some x ∧ ¬ S.isFinished j
        ∧ S.unfinishedEntry reader x := by
    subst hS'
    rintro reader x ⟨e, he, hx, hf⟩
    rcases hget hx with ⟨hi', rfl⟩ | ⟨hne, hx⟩
    · exact .inl ⟨e, he, hi' ▸ hcl, hf⟩
    · exact .inr ⟨_, hne, hx, hf, e, he, hx, hf⟩
  have hsaw : ∀ {r : Nat} {reader revoked}, S.reset.readers[r]? = some reader →
      S.saw reader revoked → S'.saw reader revoked := by
    intro r reader revoked hr hold
    refine ⟨fun hb => hrevoked (hold.1 hb), fun x hx => ?_⟩
    rcases hentry hx with hx | ⟨j, hne, hj, hf, hx⟩
    · exact absurd hm (hold.2 cl hx).1
    · have hs : reader.sessionId ≠ cl.sessionId := by
        rw [h.session_of_entry hr hx]
        exact fun hs => hne (h.only hj hcl hf hi hs)
      rw [hsessions, hother hs]
      exact hold.2 x hx
  subst hS'
  refine { h with
    companies := fun k k' row₁ row₂ h₁ h₂ hc => ?_
    contexts := fun x hx => ?_
    live := fun n o ho hentered hin => ?_
    registered := fun s hs hin => ?_
    executors := fun n o x ho hx => (h.executors n o x ho hx).imp_right hrevoked
    numbered := (List.length_set ..).trans h.numbered
    reserved := fun j x hx => ?_
    current := fun j x hx => ?_
    active := fun j x hx hon => ?_
    mayCommit := fun j x hx hm' => ?_
    fits := fun j x hx => ?_
    locked := fun j x hx hneeds => ?_
    company := fun j x hx hreads => ?_
    committed := fun j x hx hdone => ?_
    unchanged := fun j x hx hf hdone => ?_
    resolving := fun j x r hx hphase => ?_
    outcome := fun j x out hx hphase => ?_
    entries := fun k e he => ?_
    counting := fun r reader revoked company hr hphase => ?_
    committing := fun r reader revoked remaining hr hphase => ?_
    finishes := fun f hf => ?_ }
  · -- Only `revoked` is set in the row, so the companies and contexts are the same.
    obtain ⟨row₁', h₁', hc₁⟩ := hcode h₁
    obtain ⟨row₂', h₂', hc₂⟩ := hcode h₂
    exact h.companies k k' row₁' row₂' h₁' h₂' (hc₁.trans (hc.trans hc₂.symm))
  · obtain ⟨row₀, hrow₀, hc⟩ := h.contexts x hx
    obtain ⟨row', hrow', hc', -⟩ := hcode' hrow₀
    exact ⟨row', hrow', hc'.trans hc⟩
  · -- No operation of the session is admitted while it is reserved.
    have hs := h.idle hcl hi ho (admitted_of_entered hentered)
    exact h.live n o ho hentered (hrevoked' hin hs.symm)
  · -- Its reservation is there until it is finished.
    by_cases hk : s = cl.sessionId
    · rw [hk]
      exact Table.row_ne_none ((h.current i cl hcl).mp hi)
    · exact h.registered s hs (hrevoked' hin hk)
  · rcases hget hx with ⟨rfl, rfl⟩ | ⟨-, hold⟩
    · exact h.reserved j cl hcl
    · exact h.reserved j x hold
  · rcases hget hx with ⟨rfl, rfl⟩ | ⟨-, hold⟩
    · exact h.current j cl hcl
    · exact h.current j x hold
  · rcases hget hx with ⟨rfl, rfl⟩ | ⟨-, hold⟩
    · exact hi
    · exact h.active j x hold hon
  · rcases hget hx with ⟨rfl, rfl⟩ | ⟨-, hold⟩
    · exact hi
    · exact h.mayCommit j x hold hm'
  · rcases hget hx with ⟨rfl, rfl⟩ | ⟨-, hold⟩
    · have hold := h.fits j cl hcl
      exact ⟨hold.sent, fun _ => hm.2, hold.before, hold.series, hold.versions, hold.jobs⟩
    · exact h.fits j x hold
  · rcases hget hx with ⟨rfl, rfl⟩ | ⟨-, hold⟩
    · cases hneeds.1
    · -- The others need locks of other sessions.
      refine (h.locked j x hold hneeds).imp_right fun hnone => ?_
      have hs : x.sessionId ≠ cl.sessionId := by
        intro hs
        rw [hs, hrow] at hnone
        cases hnone
      exact (hother hs).trans hnone
  · -- What a call has read of its company still holds.
    have hold : ∃ x₀ : Clean, S.reset.cleans[j]? = some x₀ ∧ x₀.sessionId = x.sessionId
        ∧ x₀.company = x.company ∧ x₀.reads = true := by
      rcases hget hx with ⟨rfl, rfl⟩ | ⟨-, hold⟩
      · exact ⟨cl, hcl, rfl, rfl, hreads⟩
      · exact ⟨x, hold, rfl, rfl, hreads⟩
    obtain ⟨x₀, hx₀, hs, hc, hreads₀⟩ := hold
    obtain ⟨row₀, hrow₀, hc₀⟩ := h.company j x₀ hx₀ hreads₀
    obtain ⟨row', hrow', hc', -⟩ := hcode' hrow₀
    exact ⟨row', hs ▸ hrow', hc'.trans (hc₀.trans hc)⟩
  · rcases hget hx with ⟨rfl, rfl⟩ | ⟨-, hold⟩
    · exact hself_durable
    · exact hdurable (h.committed j x hold hdone)
  · -- A session that another reservation is made for is another session, so it is unchanged.
    rcases hget hx with ⟨rfl, rfl⟩ | ⟨hne, hold⟩
    · exact absurd rfl hdone
    · have hs : x.sessionId ≠ cl.sessionId := fun hs => hne (h.only hold hcl hf hi hs)
      rw [← h.unchanged j x hold hf hdone]
      show SessionSnapshot.mk (((S.sessions.put _).get? x.sessionId).map _)
        (((S.sessions.put _).get? x.sessionId).map _) _ _ = S.snapshot x.sessionId
      rw [hother hs, snapshot]
      congr 1
      cases hrow' : S.sessions.get? x.sessionId with
      | none => rfl
      | some row' => exact congrArg some (howned hrow' hs)
  · rcases hget hx with ⟨rfl, rfl⟩ | ⟨-, hold⟩
    · exact h.resolving j cl r hcl hphase
    · exact h.resolving j x r hold hphase
  · rcases hget hx with ⟨rfl, rfl⟩ | ⟨-, hold⟩
    · exact h.outcome j cl out hcl hphase
    · exact h.outcome j x out hold hphase
  · -- The call that an entry refers to keeps its session and stays over.
    obtain ⟨x, hx, hs, hoff⟩ := h.entries k e he
    by_cases he' : e.reservation = i
    · rw [he', hcl] at hx
      cases hx
      exact ⟨_, (hset _).trans (if_pos he'), hs, hoff⟩
    · exact ⟨x, (hset _).trans ((if_neg he').trans hx), hs, hoff⟩
  · -- The row has its company still.
    obtain ⟨hold, row₀, hrow₀, hc⟩ := h.counting r reader revoked company hr hphase
    obtain ⟨row', hrow', hc', -⟩ := hcode' hrow₀
    exact ⟨hsaw hr hold, row', hrow', hc'.trans hc⟩
  · -- A reader of the session has seen no transaction that may commit.
    obtain ⟨hold, hnone, hsome⟩ := h.committing r reader revoked remaining hr hphase
    refine ⟨hsaw hr hold, fun hb hrem => hdurable (hnone hb hrem), fun x hx hrem hd => ?_⟩
    rcases hentry hx with hx | ⟨j, hne, hj, hf, hx⟩
    · exact (hold.2 cl hx).1 hm
    · have hs : reader.sessionId ≠ cl.sessionId := by
        rw [h.session_of_entry hr hx]
        exact fun hs => hne (h.only hj hcl hf hi hs)
      exact hsome x hx hrem ((hdurable_iff hs).mp hd)
  · -- What was finished as committed is durable still.
    obtain ⟨x, hx, hadmissible, hdone, hback⟩ := h.finishes f hf
    by_cases hf' : f.reservation = i
    · rw [hf', hcl] at hx
      cases hx
      exact ⟨_, (hset _).trans (if_pos hf'), hadmissible,
        fun hc => (hdone hc).imp_left hdurable, hback⟩
    · exact ⟨x, (hset _).trans ((if_neg hf').trans hx), hadmissible,
        fun hc => (hdone hc).imp_left hdurable, hback⟩

/-- A transaction that can commit holds the row lock. -/
theorem holds (h : S.Invariant) (hcl : S.reset.cleans[i]? = some cl) (hm : cl.mayCommit) :
    S.rowLocks cl.sessionId = some (.clean i) := by
  have hreads := reads_of_commitSent hm.2
  obtain ⟨row, hrow, -⟩ := h.company i cl hcl hreads
  refine (h.locked i cl hcl ⟨hm.1, .inr hreads⟩).resolve_right fun hnone => ?_
  exact Table.no_row hnone hrow

/-! ### The steps of the server -/

theorem commit (h : S.Invariant) (hstep : S.commit i = some S') : S'.Invariant := by
  unfold DemoRuntime.commit at hstep
  split at hstep
  · cases hstep
  rename_i cl hcl
  split at hstep
  · cases hstep
  rename_i row hrow
  split at hstep
  swap
  · cases hstep
  rename_i hm
  cases hstep
  exact (h.committed_step hcl hm hrow).dropLock
    ((getElem?_setClean (by exact hcl) i).trans (if_pos rfl)) (fun hneeds => nomatch hneeds.1)
    (h.holds hcl hm)

/-! ## Reservations -/

/-- The call of `clean` for a new reservation. -/
theorem beginClean (h : S.Invariant) {n : Nat} {coordinator : Coordinator}
    {session : Option AuthenticatedDemoSession}
    (hreserve : S.coordinator.reserveCleanup id = .ok (n, coordinator))
    (hstep : S.beginClean (.ok (n, coordinator)) id session = some S') : S'.Invariant := by
  have hok := h.gate.reserveCleanup hreserve
  obtain ⟨hreset, -, -, rfl, rfl⟩ := Coordinator.reserveCleanup_ok hreserve
  cases hstep
  have hlen := h.numbered
  have hnew : S.coordinator.resets.get?
      (SessionEntry.sessionId ⟨id, S.coordinator.reservations.length⟩) = none := hreset
  -- The fields of the new call matter only where they are asked for.
  generalize hclean : Clean.mk S.coordinator.reservations.length id session .connecting .none false
    false "" [] [] [] (S.snapshot id) = clean
  have hsession : clean.sessionId = id := hclean ▸ rfl
  have hget : ∀ {j : Nat} {x : Clean}, (S.reset.cleans ++ [clean])[j]? = some x →
      (j = S.coordinator.reservations.length ∧ x = clean) ∨ S.reset.cleans[j]? = some x := by
    intro j x hx
    rw [List.getElem?_append] at hx
    split at hx
    · exact .inr hx
    · rw [List.getElem?_singleton] at hx
      split at hx
      · exact .inl ⟨by omega, (Option.some.inj hx).symm⟩
      · cases hx
  have hkept : ∀ {j : Nat} {x : Clean}, S.reset.cleans[j]? = some x →
      (S.reset.cleans ++ [clean])[j]? = some x := by
    intro j x hx
    rw [List.getElem?_append_left (List.getElem?_eq_some_iff.mp hx).1, hx]
  -- The reservation is new, so nobody has finished it.
  have hunfinished : ¬ S.isFinished S.coordinator.reservations.length := by
    rintro ⟨f, hf, heq⟩
    obtain ⟨x, hx, -⟩ := h.finishes f hf
    have := (List.getElem?_eq_some_iff.mp hx).1
    omega
  -- No entry refers to a call that was not there before.
  have hentry : ∀ {reader : OutcomeReader} {x : Clean} {r : Nat},
      S.reset.readers[r]? = some reader →
      (∃ e, S.reset.entries[reader.entry]? = some e
        ∧ (S.reset.cleans ++ [clean])[e.reservation]? = some x ∧ ¬ S.isFinished e.reservation) →
      S.unfinishedEntry reader x := by
    rintro reader x r hr ⟨e, he, hx, hf⟩
    obtain ⟨x', hx', -⟩ := h.entries _ e he
    obtain rfl := Option.some.inj (hx.symm.trans (hkept hx'))
    exact ⟨e, he, hx', hf⟩
  refine { h with
    gate := hok
    registered := fun s hs hin => ?_
    numbered := by simp [hlen]
    reserved := fun j x hx => ?_
    current := fun j x hx => ?_
    active := fun j x hx hon => ?_
    mayCommit := fun j x hx hm => ?_
    fits := fun j x hx => ?_
    locked := fun j x hx hneeds => ?_
    company := fun j x hx hreads => ?_
    committed := fun j x hx hdone => ?_
    unchanged := fun j x hx hf hdone => ?_
    resolving := fun j x r hx hphase => ?_
    outcome := fun j x out hx hphase => ?_
    entries := fun k e he => ?_
    counting := fun r reader revoked company hr hphase => ?_
    committing := fun r reader revoked remaining hr hphase => ?_
    finishes := fun f hf => ?_ }
  · -- One reservation more, and the others are kept.
    obtain ⟨e, he⟩ := Option.ne_none_iff_exists'.mp (h.registered s hs hin)
    exact Table.row_ne_none (Table.get?_insert_of_some he)
  · -- The new call has the new reservation.
    have hreserved : ∀ k, Coordinator.reservedSession { S.coordinator with
        resets := S.coordinator.resets.insert ⟨id, S.coordinator.reservations.length⟩
        reservations := S.coordinator.reservations ++ [⟨id, false⟩] } k
          = if k = S.coordinator.reservations.length then id
            else S.coordinator.reservedSession k := by
      intro k
      unfold Coordinator.reservedSession
      split
      · rename_i hk
        simp [hk]
      · rename_i hk
        dsimp only
        rw [List.getElem?_append]
        split
        · rfl
        · have h₁ : S.coordinator.reservations[k]? = none := List.getElem?_eq_none (by omega)
          rw [h₁, List.getElem?_eq_none (by simp; omega)]
    rcases hget hx with ⟨rfl, rfl⟩ | hold
    · exact ⟨hclean ▸ rfl, (hreserved _).trans ((if_pos rfl).trans hsession.symm)⟩
    · have hlt := (List.getElem?_eq_some_iff.mp hold).1
      obtain ⟨hj, hs⟩ := h.reserved j x hold
      exact ⟨hj, (hreserved _).trans ((if_neg (by omega)).trans hs)⟩
  · -- The session was free, so its reservation is the new one.
    show ¬ S.isFinished j ↔ (S.coordinator.resets.insert _).get? x.sessionId = _
    rw [Table.get?_insert hnew]
    rcases hget hx with ⟨rfl, rfl⟩ | hold
    · rw [hsession, if_pos rfl]
      exact ⟨fun _ => rfl, fun _ => hunfinished⟩
    · rw [h.current j x hold]
      have hlt := (List.getElem?_eq_some_iff.mp hold).1
      split
      · rename_i hs
        have hs : id = x.sessionId := hs
        rw [← hs, hreset]
        refine ⟨by simp, fun heq => ?_⟩
        have := congrArg SessionEntry.ref (Option.some.inj heq)
        dsimp only at this
        omega
      · exact .rfl
  · rcases hget hx with ⟨rfl, rfl⟩ | hold
    · exact hunfinished
    · exact h.active j x hold hon
  · rcases hget hx with ⟨rfl, rfl⟩ | hold
    · exact hunfinished
    · exact h.mayCommit j x hold hm
  · rcases hget hx with ⟨rfl, rfl⟩ | hold
    · -- A revoked session that is not reserved has no executor.
      rw [← hclean]
      refine ⟨by simp, by simp, fun hrevoked => ?_, fun _ _ hp => ?_, fun _ _ hp => ?_,
        fun _ _ hp => ?_⟩
      · obtain ⟨row, hrow, htrue⟩ := Option.map_eq_some_iff.mp hrevoked
        by_contra hsome
        exact h.registered id hsome ⟨row, hrow, htrue⟩ hreset
      · exact absurd hp (by simp [Clean.progress])
      · exact absurd hp (by simp [Clean.progress])
      · exact absurd hp (by simp [Clean.progress])
    · exact h.fits j x hold
  · rcases hget hx with ⟨rfl, rfl⟩ | hold
    · rw [← hclean] at hneeds
      cases hneeds.1
    · exact h.locked j x hold hneeds
  · rcases hget hx with ⟨rfl, rfl⟩ | hold
    · rw [← hclean] at hreads
      cases hreads
    · exact h.company j x hold hreads
  · rcases hget hx with ⟨rfl, rfl⟩ | hold
    · rw [← hclean] at hdone
      cases hdone
    · exact h.committed j x hold hdone
  · -- The state before is the state now.
    rcases hget hx with ⟨rfl, rfl⟩ | hold
    · rw [← hclean]
      rfl
    · exact h.unchanged j x hold hf hdone
  · rcases hget hx with ⟨rfl, rfl⟩ | hold
    · rw [← hclean] at hphase
      cases hphase
    · exact h.resolving j x r hold hphase
  · rcases hget hx with ⟨rfl, rfl⟩ | hold
    · rw [← hclean] at hphase
      cases hphase
    · exact h.outcome j x out hold hphase
  · obtain ⟨x, hx, hrest⟩ := h.entries k e he
    exact ⟨x, hkept hx, hrest⟩
  · obtain ⟨⟨hb, hold⟩, hrow⟩ := h.counting r reader revoked company hr hphase
    exact ⟨⟨hb, fun x hx => hold x (hentry hr hx)⟩, hrow⟩
  · obtain ⟨⟨hb, hold⟩, hnone, hsome⟩ := h.committing r reader revoked remaining hr hphase
    exact ⟨⟨hb, fun x hx => hold x (hentry hr hx)⟩, hnone, fun x hx => hsome x (hentry hr hx)⟩
  · obtain ⟨x, hx, hrest⟩ := h.finishes f hf
    exact ⟨x, hkept hx, hrest⟩

end Invariant

end DemoRuntime

end CostEngine
