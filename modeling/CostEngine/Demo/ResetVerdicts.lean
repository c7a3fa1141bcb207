import CostEngine.Demo.ResetSteps

/-! # The verdicts of resets keep the invariant -/

namespace CostEngine

open Relational (Table)

namespace DemoRuntime

variable {S S' : DemoRuntime} {i j k r : Nat} {cl cl' : Clean} {id : String}
  {reader reader' : OutcomeReader} {committed : Bool}

/-! ## Executors and calls that are over -/

theorem executor?_releaseSession (registry : DemoExecutorRegistry) (s k : String) :
    (registry.releaseSession s).executor? k = if s = k then none else registry.executor? k := by
  show ((registry.instances.erase s).get? k).map _ = _
  rw [Table.get?_erase]
  split
  · rfl
  · rfl

theorem commitSent_of_reads (hoff : cl.active = false) (hreads : cl.reads = true) :
    cl.commitSent = true := by
  unfold Clean.active at hoff
  unfold Clean.reads at hreads
  cases hphase : cl.phase with
  | resolving r => rwa [hphase] at hreads
  | done out => rwa [hphase] at hreads
  | _ =>
      rw [hphase] at hoff
      cases hoff

namespace Invariant

/-! ## `finish` -/

/-! ### The executor of a session -/

/-- A session that is being reset and was revoked before has no executor. -/
theorem no_executor (h : S.Invariant) (hcl : S.reset.cleans[i]? = some cl) (hi : ¬ S.isFinished i)
    (hnot : cl.transaction ≠ .committed) (hrevoked : S.revokedIn cl.sessionId) :
    S.registry.executor? cl.sessionId = none := by
  obtain ⟨row, hrow, htrue⟩ := hrevoked
  have hbefore := h.unchanged i cl hcl hi hnot
  have hexecutor : cl.before.executor = none := by
    refine (h.fits i cl hcl).before ?_
    rw [← hbefore, snapshot, hrow]
    exact congrArg some htrue
  rw [← hbefore] at hexecutor
  exact hexecutor

/-- The executor of a session that is durably reset is released. -/
theorem releaseSession (h : S.Invariant) (hd : S.durable id) :
    { S with registry := S.registry.releaseSession id }.Invariant := by
  have hexecutor := executor?_releaseSession S.registry id
  have hold : ∀ {k e}, (S.registry.instances.erase id).get? k = some e →
      S.registry.instances.get? k = some e := by
    intro k e he
    rw [Table.get?_erase] at he
    split at he
    · cases he
    · exact he
  -- Only clauses about the registry and about snapshots are touched.
  refine { h with
    assigned := fun s e he => h.assigned s e (hold he)
    distinct := fun s s' e e' he he' => h.distinct s s' e e' (hold he) (hold he')
    capacity := Nat.le_trans (List.length_filter_le _ _) h.capacity
    registered := fun s hs hin => ?_
    executors := fun n o x ho hx => ?_
    unchanged := fun j x hx hf hdone => ?_
    finishes := fun f hf => ?_ }
  · rw [hexecutor] at hs
    split at hs
    · exact absurd rfl hs
    · exact h.registered s hs hin
  · -- An operation may have lost its executor, but its session is revoked.
    by_cases hk : id = o.session.sessionId
    · exact .inr (hk ▸ revokedIn_of_durable hd)
    · refine (h.executors n o x ho hx).imp_left fun hx => ?_
      rw [hexecutor, if_neg hk, hx]
  · -- A snapshot loses the executor only if it had none.
    rw [← h.unchanged j x hx hf hdone]
    unfold snapshot
    rw [hexecutor]
    split
    · rename_i hk
      rw [h.no_executor hx hf hdone (hk ▸ revokedIn_of_durable hd)]
    · rfl
  · -- A session that was finished as committed has none to lose.
    obtain ⟨x, hx, hadmissible, hdone, hback⟩ := h.finishes f hf
    refine ⟨x, hx, hadmissible, fun hc => (hdone hc).imp_right fun hnone => ?_, hback⟩
    rw [hexecutor, hnone]
    split
    · rfl
    · rfl

/-! ### The two ways of `finish` -/

/-- What `finish` does with the current reservation of a session. -/
theorem finish_eq (h : S.Invariant) (hcl : S.reset.cleans[i]? = some cl) (hi : ¬ S.isFinished i)
    (committed : Bool) : S.finish i committed = (true, { S with
      registry := if committed then S.registry.releaseSession cl.sessionId else S.registry
      reset := { S.reset with pending := S.reset.pending.erase cl.sessionId }
      coordinator := { S.coordinator with resets := S.coordinator.resets.erase cl.sessionId }
      finished := S.finished ++ [⟨i, committed, { S with
        registry := if committed then S.registry.releaseSession cl.sessionId
          else S.registry }.snapshot cl.sessionId, true⟩] }) := by
  obtain ⟨-, hsession⟩ := h.reserved i cl hcl
  have hreset := (h.current i cl hcl).mp hi
  have hfinish : S.coordinator.finishReset i
      = .ok { S.coordinator with resets := S.coordinator.resets.erase cl.sessionId } := by
    unfold Coordinator.finishReset
    rw [hsession, hreset]
    exact if_pos rfl
  have hadmissible : ((S.coordinator.resets.erase cl.sessionId).get? cl.sessionId).isNone = true := by
    rw [Table.get?_erase, if_pos rfl]
    rfl
  unfold DemoRuntime.finish
  -- The reservation of the session is this one, so the gate takes it back.
  rw [hsession]
  dsimp only
  rw [hfinish]
  dsimp only
  rw [hadmissible]
  rfl

/-- A reservation that is not the current one of its session is not finished again. -/
theorem finish_stale (h : S.Invariant) (hcl : S.reset.cleans[i]? = some cl) (hi : S.isFinished i)
    (committed : Bool) : S.finish i committed = (false, { S with
      registry := if committed then S.registry.releaseSession cl.sessionId else S.registry
      reset := { S.reset with pending := S.reset.pending.erase cl.sessionId }
      invalidFinishes := S.invalidFinishes ++ [i] }) := by
  obtain ⟨-, hsession⟩ := h.reserved i cl hcl
  have hfinish : S.coordinator.finishReset i = .error .invalidResetReservation := by
    unfold Coordinator.finishReset
    rw [hsession, if_neg]
    intro hcurrent
    obtain ⟨e, he, rfl⟩ := Option.map_eq_some_iff.mp hcurrent
    have hkey := Table.get?_key he
    -- It is not the one that the gate has for the session.
    refine (h.current e.ref cl hcl).mpr ?_ hi
    rw [he, ← hkey]
  unfold DemoRuntime.finish
  rw [hsession]
  dsimp only
  rw [hfinish]

/-! ### The current reservation -/

theorem finishedAs_append {f : FinishedReset} (h : S.finishedAs j committed) :
    ∃ g ∈ S.finished ++ [f], g.reservation = j ∧ g.committed = committed := by
  obtain ⟨g, hg, hrest⟩ := h
  exact ⟨g, List.mem_append_left _ hg, hrest⟩

/-- `finish` for the current reservation, and what the call of `clean` comes to. -/
theorem finish (h : S.Invariant) (hcl : S.reset.cleans[i]? = some cl) (hi : ¬ S.isFinished i)
    (hm : ¬ cl.mayCommit) (hdurable : committed = true → S.durable cl.sessionId)
    (hback : committed = false → cl.transaction ≠ .committed) (hsame : cl.Continues cl')
    (hoff : cl'.active = false) (hfits : cl'.Fits)
    (htransaction : cl'.transaction = cl.transaction) (hsent : cl'.commitSent = cl.commitSent)
    (hcompany : cl'.company = cl.company)
    (hresolving : ∀ r, cl'.phase = .resolving r → cl.phase = .resolving r)
    (houtcome : ∀ out, cl'.phase = .done out → S.explained i out
      ∨ (out = .ok () ∧ committed = true)
      ∨ ((out = .error .resetFailed ∨ out = .error .sessionUnavailable) ∧ committed = false)) :
    ((S.finish i committed).2.setClean i cl').Invariant := by
  rw [h.finish_eq hcl hi]
  -- The executor is released first.
  have h₁ : { S with registry := if committed then S.registry.releaseSession cl.sessionId
      else S.registry }.Invariant := by
    cases hc : committed with
    | true => exact h.releaseSession (hdurable hc)
    | false => exact h
  have hgone : committed = true → (if committed then S.registry.releaseSession cl.sessionId
      else S.registry).executor? cl.sessionId = none := by
    rintro rfl
    exact (executor?_releaseSession _ _ _).trans (if_pos rfl)
  dsimp only
  -- From here on the registry is whichever of the two it is.
  generalize (if committed then S.registry.releaseSession cl.sessionId else S.registry)
    = registry at h₁ hgone
  generalize hS₁ : ({ S with registry } : DemoRuntime) = S₁ at h₁
  have hcl₁ : S₁.reset.cleans[i]? = some cl := hS₁ ▸ hcl
  have hi₁ : ¬ S₁.isFinished i := hS₁ ▸ hi
  have hdurable₁ : committed = true → S₁.durable cl.sessionId := hS₁ ▸ hdurable
  have hgone₁ : committed = true → S₁.registry.executor? cl.sessionId = none := hS₁ ▸ hgone
  have houtcome₁ : ∀ out, cl'.phase = .done out → S₁.explained i out
      ∨ (out = .ok () ∧ committed = true)
      ∨ ((out = .error .resetFailed ∨ out = .error .sessionUnavailable) ∧ committed = false) :=
    hS₁ ▸ houtcome
  have hstate : ∀ f, DemoRuntime.setClean { S with
      registry
      reset := { S.reset with pending := S.reset.pending.erase cl.sessionId }
      coordinator := { S.coordinator with resets := S.coordinator.resets.erase cl.sessionId }
      finished := S.finished ++ [f] } i cl' = { S₁ with
        reset := { S₁.reset with
          pending := S₁.reset.pending.erase cl.sessionId
          cleans := S₁.reset.cleans.set i cl' }
        coordinator := { S₁.coordinator with resets := S₁.coordinator.resets.erase cl.sessionId }
        finished := S₁.finished ++ [f] } := by
    subst hS₁
    intro f
    rfl
  rw [hstate]
  clear hstate hdurable hgone houtcome hcl hi h hS₁ registry
  -- The new record, of which only the reservation and the verdict matter.
  generalize hf : FinishedReset.mk i committed (S₁.snapshot cl.sessionId) true = f
  have hreservation : f.reservation = i := hf ▸ rfl
  have hcommitted : f.committed = committed := hf ▸ rfl
  have hfinish : S₁.coordinator.finishReset i
      = .ok { S₁.coordinator with resets := S₁.coordinator.resets.erase cl.sessionId } := by
    unfold Coordinator.finishReset
    rw [(h₁.reserved i cl hcl₁).2, (h₁.current i cl hcl₁).mp hi₁]
    exact if_pos rfl
  have hfinished : ∀ {j}, (∃ g ∈ S₁.finished ++ [f], g.reservation = j) ↔ S₁.isFinished j ∨ j = i := by
    intro j
    constructor
    · rintro ⟨g, hg, rfl⟩
      rcases List.mem_append.mp hg with hg | hg
      · exact .inl ⟨g, hg, rfl⟩
      · rw [List.mem_singleton.mp hg]
        exact .inr hreservation
    · rintro (⟨g, hg, hgj⟩ | rfl)
      · exact ⟨g, List.mem_append_left _ hg, hgj⟩
      · exact ⟨f, List.mem_append_right _ List.mem_cons_self, hreservation⟩
  -- What is unfinished now was unfinished before, and is not this reservation.
  have hunfinished : ∀ {j}, ¬ (∃ g ∈ S₁.finished ++ [f], g.reservation = j) →
      j ≠ i ∧ ¬ S₁.isFinished j := fun hj =>
    ⟨fun heq => hj (hfinished.mpr (.inr heq)), fun hj' => hj (hfinished.mpr (.inl hj'))⟩
  have hset : ∀ j, (S₁.reset.cleans.set i cl')[j]?
      = if j = i then some cl' else S₁.reset.cleans[j]? := getElem?_setClean hcl₁
  have hget : ∀ {j : Nat} {x : Clean}, (S₁.reset.cleans.set i cl')[j]? = some x →
      (j = i ∧ x = cl') ∨ (j ≠ i ∧ S₁.reset.cleans[j]? = some x) := by
    intro j x hx
    rw [hset] at hx
    split at hx
    · exact .inl ⟨‹_›, (Option.some.inj hx).symm⟩
    · exact .inr ⟨‹_›, hx⟩
  have hentry : ∀ {reader : OutcomeReader} {x : Clean},
      (∃ e, S₁.reset.entries[reader.entry]? = some e
        ∧ (S₁.reset.cleans.set i cl')[e.reservation]? = some x
        ∧ ¬ ∃ g ∈ S₁.finished ++ [f], g.reservation = e.reservation) →
      S₁.unfinishedEntry reader x := by
    rintro reader x ⟨e, he, hx, hopen⟩
    obtain ⟨hne, hold⟩ := hunfinished hopen
    rcases hget hx with ⟨heq, -⟩ | ⟨-, hx⟩
    · exact absurd heq hne
    · exact ⟨e, he, hx, hold⟩
  have hexplained : ∀ {j out}, S₁.explained j out → DemoRuntime.explained { S₁ with
      reset := { S₁.reset with
        pending := S₁.reset.pending.erase cl.sessionId
        cleans := S₁.reset.cleans.set i cl' }
      coordinator := { S₁.coordinator with resets := S₁.coordinator.resets.erase cl.sessionId }
      finished := S₁.finished ++ [f] } j out := by
    intro j out hold
    cases out with
    | ok u => exact finishedAs_append hold
    | error e => exact hold.imp_right fun hrest => hrest.imp_right finishedAs_append
  have hnew : f ∈ S₁.finished ++ [f] := List.mem_append_right _ List.mem_cons_self
  -- Each clause is one of `cl'` and one of the other calls.
  refine { h₁ with
    gate := h₁.gate.finishReset hfinish
    registered := fun s hs hin => ?_
    numbered := (List.length_set ..).trans h₁.numbered
    reserved := fun j x hx => ?_
    current := fun j x hx => ?_
    active := fun j x hx hon => ?_
    mayCommit := fun j x hx hm' => ?_
    fits := fun j x hx => ?_
    locked := fun j x hx hneeds => ?_
    company := fun j x hx hreads => ?_
    committed := fun j x hx hdone => ?_
    unchanged := fun j x hx hopen hdone => ?_
    resolving := fun j x r hx hphase => ?_
    outcome := fun j x out hx hphase => ?_
    entries := fun k e he => ?_
    counting := fun r reader revoked company hr hphase => ?_
    committing := fun r reader revoked remaining hr hphase => ?_
    verdicts := fun r reader e out hr he hphase => ?_
    finishes := fun g hg => ?_
    once := ?_ }
  · -- The session loses its reservation, but then it has no executor either.
    show (S₁.coordinator.resets.erase cl.sessionId).get? s ≠ none
    rw [Table.get?_erase, if_neg]
    · exact h₁.registered s hs hin
    · rintro rfl
      cases hc : committed with
      | true => exact hs (hgone₁ hc)
      | false => exact hs (h₁.no_executor hcl₁ hi₁ (hback hc) hin)
  · rcases hget hx with ⟨rfl, rfl⟩ | ⟨-, hold⟩
    · rw [hsame.reservation, hsame.sessionId]
      exact h₁.reserved j cl hcl₁
    · exact h₁.reserved j x hold
  · -- The gate has no reservation for the session, and this one is finished.
    show ¬ (∃ g ∈ S₁.finished ++ [f], g.reservation = j) ↔
      (S₁.coordinator.resets.erase cl.sessionId).get? x.sessionId = _
    rw [hfinished, Table.get?_erase]
    rcases hget hx with ⟨rfl, rfl⟩ | ⟨hne, hold⟩
    · rw [hsame.sessionId, if_pos rfl]
      exact ⟨fun hopen => absurd (.inr rfl) hopen, by simp⟩
    · split
      · rename_i hs
        refine ⟨fun hopen => ?_, by simp⟩
        -- Two calls for one session are not unfinished at once.
        exact absurd (h₁.only hcl₁ hold hi₁ (fun hj => hopen (.inl hj)) hs) (Ne.symm hne)
      · rw [← h₁.current j x hold]
        exact not_congr (or_iff_left hne)
  · -- The call is over.
    rcases hget hx with ⟨rfl, rfl⟩ | ⟨hne, hold⟩
    · rw [hoff] at hon
      cases hon
    · exact fun hj => (hfinished.mp hj).elim (h₁.active j x hold hon) hne
  · rcases hget hx with ⟨rfl, rfl⟩ | ⟨hne, hold⟩
    · exact absurd ⟨htransaction ▸ hm'.1, hsent ▸ hm'.2⟩ hm
    · exact fun hj => (hfinished.mp hj).elim (h₁.mayCommit j x hold hm') hne
  · rcases hget hx with ⟨rfl, rfl⟩ | ⟨-, hold⟩
    · exact hfits
    · exact h₁.fits j x hold
  · rcases hget hx with ⟨rfl, rfl⟩ | ⟨-, hold⟩
    · -- It needs no lock, since it can neither read nor commit any more.
      refine absurd ⟨htransaction ▸ hneeds.1, ?_⟩ hm
      rw [← hsent]
      rcases hneeds.2 with hphase | hreads
      · simp [Clean.active, hphase] at hoff
      · exact commitSent_of_reads hoff hreads
    · exact h₁.locked j x hold hneeds
  · rcases hget hx with ⟨rfl, rfl⟩ | ⟨-, hold⟩
    · rw [hsame.sessionId, hcompany]
      refine h₁.company j cl hcl₁ (reads_of_commitSent ?_)
      rw [← hsent]
      exact commitSent_of_reads hoff hreads
    · exact h₁.company j x hold hreads
  · rcases hget hx with ⟨rfl, rfl⟩ | ⟨-, hold⟩
    · rw [hsame.sessionId]
      exact h₁.committed j cl hcl₁ (htransaction ▸ hdone)
    · exact h₁.committed j x hold hdone
  · -- An unfinished call is another one.
    obtain ⟨hne, hj⟩ := hunfinished hopen
    rcases hget hx with ⟨heq, -⟩ | ⟨-, hold⟩
    · exact absurd heq hne
    · exact h₁.unchanged j x hold hj hdone
  · rcases hget hx with ⟨rfl, rfl⟩ | ⟨-, hold⟩
    · exact h₁.resolving j cl r hcl₁ (hresolving r hphase)
    · exact h₁.resolving j x r hold hphase
  · -- How the call ends is the verdict of the record that was added.
    rcases hget hx with ⟨rfl, rfl⟩ | ⟨-, hold⟩
    · rcases houtcome₁ out hphase with hold | ⟨rfl, hc⟩ | ⟨hout, hc⟩
      · exact hexplained hold
      · exact ⟨f, hnew, hreservation, hcommitted.trans hc⟩
      · rcases hout with rfl | rfl
        · exact .inr ⟨.inl rfl, f, hnew, hreservation, hcommitted.trans hc⟩
        · exact .inr ⟨.inr rfl, f, hnew, hreservation, hcommitted.trans hc⟩
    · exact hexplained (h₁.outcome j x out hold hphase)
  · -- Its entry refers to a call that is over.
    obtain ⟨x, hx, hs, hoff'⟩ := h₁.entries k e he
    by_cases he' : e.reservation = i
    · rw [he', hcl₁] at hx
      cases hx
      exact ⟨cl', (hset _).trans (if_pos he'), hsame.sessionId.trans hs, hoff⟩
    · exact ⟨x, (hset _).trans ((if_neg he').trans hx), hs, hoff'⟩
  · obtain ⟨⟨hb, hold⟩, hrow⟩ := h₁.counting r reader revoked company hr hphase
    exact ⟨⟨hb, fun x hx => hold x (hentry hx)⟩, hrow⟩
  · obtain ⟨⟨hb, hold⟩, hnone, hsome⟩ := h₁.committing r reader revoked remaining hr hphase
    exact ⟨⟨hb, fun x hx => hold x (hentry hx)⟩, hnone, fun x hx => hsome x (hentry hx)⟩
  · have hold := h₁.verdicts r reader e out hr he hphase
    cases out with
    | committed => exact finishedAs_append hold
    | rolledBack => exact finishedAs_append hold
    | unknown => trivial
  · -- The records that were there are of other calls.
    rcases List.mem_append.mp hg with hg | hg
    · obtain ⟨x, hx, hadmissible, hdone, hback'⟩ := h₁.finishes g hg
      by_cases hg' : g.reservation = i
      · exact absurd ⟨g, hg, hg'⟩ hi₁
      · exact ⟨x, (hset _).trans ((if_neg hg').trans hx), hadmissible, hdone, hback'⟩
    · -- A committed record: the session is durably reset and its executor released.
      rw [List.mem_singleton.mp hg]
      refine ⟨cl', (hset _).trans (if_pos hreservation), hf ▸ rfl, fun hc => ?_, fun hc => ?_⟩
      · rw [hcommitted] at hc
        rw [hsame.sessionId]
        exact ⟨hdurable₁ hc, hgone₁ hc⟩
      · -- A rolled back one: the session is as it was before.
        rw [hcommitted] at hc
        rw [hsame.before, ← h₁.unchanged i cl hcl₁ hi₁ (hback hc), ← hf]
  · -- The reservation was not finished before.
    show ((S₁.finished ++ [f]).map (·.reservation)).Nodup
    rw [List.map_append, List.map_singleton]
    refine List.nodup_append.mpr ⟨h₁.once, List.nodup_singleton _, fun a ha b hb hab => ?_⟩
    obtain ⟨g, hg, rfl⟩ := List.mem_map.mp ha
    rw [List.mem_singleton.mp hb, hreservation] at hab
    exact hi₁ ⟨g, hg, hab⟩

/-! ### A reservation that was finished before -/

/-- A reservation that is already finished: only an executor of a session that is durably reset
is released. -/
theorem finishStale (h : S.Invariant) (hcl : S.reset.cleans[i]? = some cl) (hi : S.isFinished i)
    (hdurable : committed = true → S.durable cl.sessionId) : (S.finish i committed).2.Invariant := by
  rw [h.finish_stale hcl hi]
  cases committed with
  | true => exact { h.releaseSession (hdurable rfl) with gate := h.gate }
  | false => exact { h with gate := h.gate }

theorem finishedAs_finish (h : S.Invariant) (hcl : S.reset.cleans[i]? = some cl)
    (hi : ¬ S.isFinished i) (committed : Bool) :
    (S.finish i committed).2.finishedAs i committed := by
  rw [h.finish_eq hcl hi]
  exact ⟨_, List.mem_append_right _ List.mem_cons_self, rfl, rfl⟩

/-! ## Entries and readers -/

/-! ### A new entry -/

/-- An entry for a call of `clean` that has handed over. -/
theorem addEntry (h : S.Invariant) (hcl : S.reset.cleans[i]? = some cl) (hoff : cl.active = false)
    (inactive : Bool) (pending : Table SessionEntry String (·.sessionId)) :
    { S with
      coordinator := S.coordinator.markUnknown i
      reset := { S.reset with
        entries := S.reset.entries ++ [(⟨i, cl.sessionId, inactive, none⟩ : PendingReset)]
        pending } }.Invariant := by
  -- The entries are those of before and the new one.
  have hget : ∀ {k : Nat} {e : PendingReset},
      (S.reset.entries ++ [⟨i, cl.sessionId, inactive, none⟩])[k]? = some e →
      S.reset.entries[k]? = some e
        ∨ (k = S.reset.entries.length ∧ e = ⟨i, cl.sessionId, inactive, none⟩) := by
    intro k e he
    rw [List.getElem?_append] at he
    split at he
    · exact .inl he
    · rw [List.getElem?_singleton] at he
      split at he
      · exact .inr ⟨by omega, (Option.some.inj he).symm⟩
      · cases he
  have hkept : ∀ {k : Nat} {e : PendingReset}, S.reset.entries[k]? = some e →
      (S.reset.entries ++ [⟨i, cl.sessionId, inactive, none⟩])[k]? = some e := by
    intro k e he
    rw [List.getElem?_append_left (List.getElem?_eq_some_iff.mp he).1, he]
  -- No reader refers to the new entry.
  have hof : ∀ {r : Nat} {reader : OutcomeReader} {e : PendingReset},
      S.reset.readers[r]? = some reader →
      (S.reset.entries ++ [⟨i, cl.sessionId, inactive, none⟩])[reader.entry]? = some e →
      S.reset.entries[reader.entry]? = some e := by
    intro r reader e hr he
    obtain ⟨e', he', -⟩ := h.readers r reader hr
    rw [hkept he'] at he
    exact Option.some.inj he ▸ he'
  refine { h with
    gate := h.gate.markUnknown
    numbered := h.numbered.trans (List.length_modify ..).symm
    reserved := fun j x hx => ?_
    resolving := fun j x r hx hphase => ?_
    entries := fun k e he => ?_
    readers := fun r reader hr => ?_
    readerOf := fun k e r he hres => ?_
    counting := fun r reader revoked company hr hphase => ?_
    committing := fun r reader revoked remaining hr hphase => ?_
    verdicts := fun r reader e out hr he hphase =>
      h.verdicts r reader e out hr (hof hr he) hphase }
  · obtain ⟨hj, hs⟩ := h.reserved j x hx
    refine ⟨hj, Eq.trans ?_ hs⟩
    -- Marking a reservation as unknown leaves its session as it is.
    show ((S.coordinator.reservations.modify i _)[j]?.map ResetReservation.sessionId).getD "" = _
    rw [List.getElem?_modify]
    cases hr : S.coordinator.reservations[j]? with
    | none => simp [Coordinator.reservedSession, hr]
    | some reservation =>
        by_cases hij : i = j
        · simp [Coordinator.reservedSession, hr, hij]
        · simp [Coordinator.reservedSession, hr, hij]
  · obtain ⟨reader, e, hr, he, hj⟩ := h.resolving j x r hx hphase
    exact ⟨reader, e, hr, hkept he, hj⟩
  · rcases hget he with he | ⟨-, rfl⟩
    · exact h.entries k e he
    · -- The new entry is of a call that has handed over.
      exact ⟨cl, hcl, rfl, hoff⟩
  · obtain ⟨e, he, hs⟩ := h.readers r reader hr
    exact ⟨e, hkept he, hs⟩
  · rcases hget he with he | ⟨-, rfl⟩
    · exact h.readerOf k e r he hres
    · cases hres
  · obtain ⟨⟨hb, hold⟩, hrow⟩ := h.counting r reader revoked company hr hphase
    exact ⟨⟨hb, fun x ⟨e, he, hrest⟩ => hold x ⟨e, hof hr he, hrest⟩⟩, hrow⟩
  · obtain ⟨⟨hb, hold⟩, hnone, hsome⟩ := h.committing r reader revoked remaining hr hphase
    exact ⟨⟨hb, fun x ⟨e, he, hrest⟩ => hold x ⟨e, hof hr he, hrest⟩⟩, hnone,
      fun x ⟨e, he, hrest⟩ => hsome x ⟨e, hof hr he, hrest⟩⟩

/-! ### The reader of an entry -/

/-- The variable `resolving` of an entry. -/
theorem setResolving (h : S.Invariant) {e : PendingReset} (hk : S.reset.entries[k]? = some e)
    (resolving : Option Nat) (hresolving : ∀ r, resolving = some r →
      ∃ reader, S.reset.readers[r]? = some reader ∧ reader.entry = k) :
    { S with reset := { S.reset with
      entries := S.reset.entries.set k { e with resolving } } }.Invariant := by
  have hlt := (List.getElem?_eq_some_iff.mp hk).1
  have hset : ∀ l, (S.reset.entries.set k { e with resolving })[l]?
      = if l = k then some { e with resolving } else S.reset.entries[l]? := by
    intro l
    rw [List.getElem?_set]
    by_cases hl : k = l
    · subst hl
      simp [hlt]
    · simp [hl, Ne.symm hl]
  -- Entries keep their reservation and their session.
  have hback : ∀ {l : Nat} {x : PendingReset},
      (S.reset.entries.set k { e with resolving })[l]? = some x →
      ∃ y, S.reset.entries[l]? = some y ∧ y.reservation = x.reservation
        ∧ y.sessionId = x.sessionId := by
    intro l x hx
    rw [hset] at hx
    split at hx
    · rename_i hl
      cases hx
      exact ⟨e, hl ▸ hk, rfl, rfl⟩
    · exact ⟨x, hx, rfl, rfl⟩
  have hforth : ∀ {l : Nat} {x : PendingReset}, S.reset.entries[l]? = some x →
      ∃ y, (S.reset.entries.set k { e with resolving })[l]? = some y
        ∧ y.reservation = x.reservation ∧ y.sessionId = x.sessionId := by
    intro l x hx
    rw [hset]
    by_cases hl : l = k
    · rw [hl, hk] at hx
      cases hx
      exact ⟨_, if_pos hl, rfl, rfl⟩
    · exact ⟨x, (if_neg hl).trans hx, rfl, rfl⟩
  have hentry : ∀ {reader : OutcomeReader} {x : Clean},
      (∃ y, (S.reset.entries.set k { e with resolving })[reader.entry]? = some y
        ∧ S.reset.cleans[y.reservation]? = some x ∧ ¬ S.isFinished y.reservation) →
      S.unfinishedEntry reader x := by
    rintro reader x ⟨y, hy, hx, hf⟩
    obtain ⟨z, hz, hres, -⟩ := hback hy
    exact ⟨z, hz, hres ▸ hx, hres ▸ hf⟩
  -- Clauses that go through an entry are carried over by these two.
  refine { h with
    resolving := fun j x r hx hphase => ?_
    entries := fun l x hx => ?_
    readers := fun r reader hr => ?_
    readerOf := fun l x r hx hres => ?_
    counting := fun r reader revoked company hr hphase => ?_
    committing := fun r reader revoked remaining hr hphase => ?_
    verdicts := fun r reader x out hr hx hphase => ?_ }
  · obtain ⟨reader, y, hr, hy, hj⟩ := h.resolving j x r hx hphase
    obtain ⟨z, hz, hres, -⟩ := hforth hy
    exact ⟨reader, z, hr, hz, hres.trans hj⟩
  · obtain ⟨y, hy, hres, hs⟩ := hback hx
    rw [← hres, ← hs]
    exact h.entries l y hy
  · obtain ⟨y, hy, hs⟩ := h.readers r reader hr
    obtain ⟨z, hz, -, hs'⟩ := hforth hy
    exact ⟨z, hz, hs'.trans hs⟩
  · rw [hset] at hx
    split at hx
    · rename_i hl
      cases hx
      exact hl ▸ hresolving r hres
    · exact h.readerOf l x r hx hres
  · obtain ⟨⟨hb, hold⟩, hrow⟩ := h.counting r reader revoked company hr hphase
    exact ⟨⟨hb, fun x hx => hold x (hentry hx)⟩, hrow⟩
  · obtain ⟨⟨hb, hold⟩, hnone, hsome⟩ := h.committing r reader revoked remaining hr hphase
    exact ⟨⟨hb, fun x hx => hold x (hentry hx)⟩, hnone, fun x hx => hsome x (hentry hx)⟩
  · obtain ⟨y, hy, hres, -⟩ := hback hx
    rw [← hres]
    exact h.verdicts r reader y out hr hy hphase

/-! ### A new reader -/

/-- A new recovery connection for an entry. -/
theorem addReader (h : S.Invariant) {e : PendingReset} (hk : S.reset.entries[k]? = some e) :
    { S with reset := { S.reset with
      readers := S.reset.readers ++ [(⟨k, e.sessionId, .connecting⟩ : OutcomeReader)] } }.Invariant := by
  have hget : ∀ {r : Nat} {reader : OutcomeReader},
      (S.reset.readers ++ [⟨k, e.sessionId, .connecting⟩])[r]? = some reader →
      S.reset.readers[r]? = some reader ∨ reader = ⟨k, e.sessionId, .connecting⟩ := by
    intro r reader hr
    rw [List.getElem?_append] at hr
    split at hr
    · exact .inl hr
    · rw [List.getElem?_singleton] at hr
      split at hr
      · exact .inr (Option.some.inj hr).symm
      · cases hr
  have hkept : ∀ {r : Nat} {reader : OutcomeReader}, S.reset.readers[r]? = some reader →
      (S.reset.readers ++ [⟨k, e.sessionId, .connecting⟩])[r]? = some reader := by
    intro r reader hr
    rw [List.getElem?_append_left (List.getElem?_eq_some_iff.mp hr).1, hr]
  refine { h with
    resolving := fun j x r hx hphase => ?_
    readers := fun r reader hr => ?_
    readerOf := fun l x r hx hres => ?_
    counting := fun r reader revoked company hr hphase => ?_
    committing := fun r reader revoked remaining hr hphase => ?_
    verdicts := fun r reader x out hr hx hphase => ?_ }
  · obtain ⟨reader, y, hr, hy, hj⟩ := h.resolving j x r hx hphase
    exact ⟨reader, y, hkept hr, hy, hj⟩
  · rcases hget hr with hr | rfl
    · exact h.readers r reader hr
    · -- It is a reader of the entry, and has read nothing.
      exact ⟨e, hk, rfl⟩
  · obtain ⟨reader, hr, hl⟩ := h.readerOf l x r hx hres
    exact ⟨reader, hkept hr, hl⟩
  · rcases hget hr with hr | rfl
    · exact h.counting r reader revoked company hr hphase
    · cases hphase
  · rcases hget hr with hr | rfl
    · exact h.committing r reader revoked remaining hr hphase
    · cases hphase
  · rcases hget hr with hr | rfl
    · exact h.verdicts r reader x out hr hx hphase
    · rcases hphase with hphase | hphase <;> cases hphase

/-! ### Resolutions -/

/-- Whoever resolves an entry. -/
theorem resolve (h : S.Invariant) (k : Nat) : (S.resolve k).2.Invariant := by
  unfold DemoRuntime.resolve
  split
  · exact h
  · rename_i e hk
    split
    · exact h
    · have hadded := h.addReader hk
      refine hadded.setResolving hk _ fun r hr => ?_
      cases hr
      exact ⟨_, List.getElem?_concat_length, rfl⟩

end Invariant

end DemoRuntime

end CostEngine
