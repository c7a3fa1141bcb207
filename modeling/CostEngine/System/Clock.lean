import CostEngine.Invariant.Timestamps
import CostEngine.System.Moves

/-! # The clock

`NOW()` is the time at which a transaction began, and a transaction may stay open for long:
it waits for the locks of others. So a step that commits a transaction is looked at together
with the state in which it began (`CommitsSince`). -/

namespace CostEngine

open Relational (Table)
open Concurrency (Active)

variable {honours : Prop} {st st' : System} {d : Time}

/-! ## The begin of a transaction -/

theorem Initial.idle (h : Initial st) (i : Nat) : st.threads i = .idle := by
  cases h
  rfl

/-- What the begin of an open transaction was like. -/
theorem Reachable.opened (h : Reachable honours st) {i : Nat} {req : Request}
    {log : List ServiceEvent} {t : Transaction} {k : Except ServiceError t.Result → Service Response}
    {a : Active Store RowLock Write ServiceError TxEnv World t.Result}
    (hi : st.threads i = .inTxn req log t k a) : ∃ s, Reachable honours s
      ∧ (machine honours).Run s st ∧ t.Pre honours s.shared
      ∧ a.env.now = s.shared.world.clock := by
  obtain ⟨st₀, h₀, hrun⟩ := h
  obtain ⟨s, hs₀, hs, hopen, hbegins⟩ := hrun.opened (h₀.idle i) hi
  have hreachable : Reachable honours s := ⟨st₀, h₀, hs₀⟩
  -- What the handler had read is still so.
  obtain ⟨g₀, hinv, hle, -, o, hspec⟩ := hreachable.safe.began hopen
  exact ⟨s, hreachable, hs, hspec.pre.later hinv hle, hbegins⟩

/-! ## The commit -/

/-- The transaction that commits in this step, if there is one, has been open for at most
`d`. -/
def CommitsWithin (d : Time) (st st' : System) : Prop :=
  ∀ i req log t k r, ∀ a : Active Store RowLock Write ServiceError TxEnv World (Transaction.Result t),
    st.threads i = .inTxn req log t k a → a.rest = .pure r →
    st'.threads i = .running req (log ++ [.ended t (.ok r)]) (k (.ok r)) →
    st.shared.world.clock ≤ a.env.now + d

/-- In this step the transaction `t` commits, which began in the state `s`. -/
structure CommitsSince (honours : Prop) (t : Transaction) (s st st' : System) : Prop where
  reachable : Reachable honours s
  run : (machine honours).Run s st
  pre : t.Pre honours s.shared
  commits : ∃ i r ws, Commits i t r ws st st'
  single : st.shared.db.Single s.shared.world.clock st'.shared.db
  clock : st'.shared.world.clock = st.shared.world.clock
  within : ∀ d, CommitsWithin d st st' → st.shared.world.clock ≤ s.shared.world.clock + d

/-- **A step commits a transaction, or it leaves the attempts and the versions alone.** -/
theorem Reachable.commitsSince (h : Reachable honours st) (hs : (machine honours).Step st st') :
    (∃ t s, CommitsSince honours t s st st')
      ∨ st'.shared.db.executionAttempts = st.shared.db.executionAttempts
        ∧ st'.shared.db.datasetVersions = st.shared.db.datasetVersions := by
  cases hs with
  | commit i req log t k a r hi hr =>
      obtain ⟨s, hreachable, hrun, hpre, hnow⟩ := h.opened hi
      obtain ⟨last, hspec⟩ := h.commits hi hr
      refine .inl ⟨t, s, hreachable, hrun, hpre, ⟨i, r, a.writes, req, log, k, a, hi, hr, rfl, rfl⟩,
        ?_, rfl, fun d hd => ?_⟩
      · rw [← hnow]
        exact (hspec.ensures.commit r rfl).change.single
      · rw [← hnow]
        exact hd i req log t k r a hi hr (by simp)
  | config L s hc hfree => exact .inr ⟨hc.executionAttempts, hc.datasetVersions⟩
  | _ => exact .inr ⟨rfl, rfl⟩

/-! ## What was there at the begin -/

/-- A transaction that does not update attempts keeps the rows that are there. -/
theorem Store.foldl_attempt {s : Store} {t : Transaction} {ws : List Write} {id : Uuid}
    {a : ExecutionAttempt} (ht : ∀ b, t.mayWrite (.putExecutionAttempt b) = false)
    (hws : ∀ u ∈ ws, t.mayWrite u = true) (ha : s.executionAttempts.get? id = some a) :
    (ws.foldl Store.apply s).executionAttempts.get? id = some a := by
  induction ws generalizing s with
  | nil => exact ha
  | cons u ws ih =>
      refine ih (fun u' hu' => hws u' (List.mem_cons_of_mem _ hu')) ?_
      have hu := hws u List.mem_cons_self
      cases u with
      | putExecutionAttempt b => rw [ht b] at hu; cases hu
      | insertExecutionAttempt b => exact Table.get?_insert_of_some ha
      | _ => exact ha

namespace CommitsSince

variable {t : Transaction} {s : System} (h : CommitsSince honours t s st st')
include h

theorem now_le : s.shared.world.clock ≤ st.shared.world.clock :=
  (h.reachable.grows h.run).world.clock

/-- An attempt that is updated was there when the transaction began, and its dispatch had
begun unless it begins now. -/
theorem attempt (hst : Reachable honours st) {id : Uuid} {a : ExecutionAttempt}
    (ha : st.shared.db.executionAttempts.get? id = some a) :
    st'.shared.db.executionAttempts.get? id = some a
      ∨ ∃ a₀, s.shared.db.executionAttempts.get? id = some a₀
        ∧ (a.status ≠ .prepared → a₀.status ≠ .prepared) := by
  obtain ⟨i, r, ws, req, log, k, active, hi, hr, rfl, hshared⟩ := h.commits
  obtain ⟨last, hspec⟩ := hst.commits hi hr
  have hpre := h.pre
  have hensures := hspec.ensures
  rw [hshared]
  dsimp only
  cases t with
  | beginDispatch d =>
      rcases BeginDispatchSpec.others hensures r rfl id a ha with hkept | ⟨rfl, hprepared⟩
      · exact .inl hkept
      · obtain ⟨a₀, ha₀, -⟩ := Store.Durable.attempt hpre
        exact .inr ⟨a₀, ha₀, fun hne => absurd hprepared hne⟩
  | recordDispatchOutcome c outcome =>
      by_cases hid : id = c.executionAttemptId
      · obtain ⟨a₀, ha₀, -, -, -, -, hdispatched⟩ := hpre.1.attempt
        exact .inr ⟨a₀, hid ▸ ha₀, fun _ => hdispatched⟩
      · exact .inl ((RecordOutcomeSpec.others hensures r rfl id hid).trans ha)
  | applyReconciliation context x =>
      by_cases hid : id = context.executionAttemptId
      · obtain ⟨a₀, ha₀, -, -, -, -, hdispatched⟩ := hpre.1.attempt
        exact .inr ⟨a₀, hid ▸ ha₀, fun _ => hdispatched⟩
      · exact .inl (((ReconcileSpec.effect hensures r rfl).attempts id hid).trans ha)
  | _ => exact .inl (Store.foldl_attempt (fun _ => rfl) hspec.footprint ha)

/-- A version that gets its final status was there when the transaction began. -/
theorem version (hst : Reachable honours st) (hs : (machine honours).Step st st') {id : Uuid}
    {v v' : DatasetVersion} (hv : st.shared.db.datasetVersions.get? id = some v)
    (hv' : st'.shared.db.datasetVersions.get? id = some v') (hfinal : v'.status.isFinal = true) :
    v' = v ∨ ∃ v₀, s.shared.db.datasetVersions.get? id = some v₀ := by
  obtain ⟨i, r, ws, hc⟩ := h.commits
  rcases hst.moves_of_commits hs hc with ⟨input, rfl⟩ | hsame | ⟨w, w', hmoves⟩
  · -- A creation only adds a version.
    obtain ⟨req, log, k, active, hi, hr, rfl, hshared⟩ := hc
    obtain ⟨last, hspec⟩ := hst.commits hi hr
    obtain ⟨r', new, jobs, pre, hcreated⟩ := CreateSpec.created hspec.ensures r rfl
    obtain ⟨series, hstore⟩ := hcreated.store
    rw [hshared, show active.writes.foldl Store.apply st.shared.db = _ from hstore] at hv'
    exact .inl (Option.some.inj (hv'.symm.trans (Table.get?_insert_of_some hv)))
  · rw [hsame, hv] at hv'
    exact .inl (Option.some.inj hv').symm
  · rw [hmoves.put] at hv'
    rcases Table.of_get?_put hv' with hkept | rfl
    · exact .inl (Option.some.inj (hkept.symm.trans hv))
    -- Of the commands that move a version, those to a final status have read it before.
    have hid : w.id = id := hmoves.columns.1.symm.trans (Table.get?_key hv')
    have hpre := h.pre
    have htarget := hmoves.target
    rw [hid] at htarget
    generalize v'.status = x at htarget hfinal
    cases htarget with
    | prepare | submit => cases hfinal
    | publish | reject | abandon =>
        obtain ⟨v₀, hv₀, -⟩ := hpre
        exact .inr ⟨v₀, hv₀⟩

end CommitsSince

/-! ## In every reachable state -/

theorem Initial.no_rows (h : Initial st) (id : Uuid) :
    st.shared.db.executionAttempts.get? id = none ∧ st.shared.db.datasetVersions.get? id = none := by
  cases h
  exact ⟨rfl, rfl⟩

/-- **No timestamp is in the future.** -/
theorem Reachable.stamped (h : Reachable honours st) :
    st.shared.db.Stamped st.shared.world.clock := by
  obtain ⟨st₀, h₀, hrun⟩ := h
  induction hrun with
  | refl =>
      exact ⟨fun id _ ha => Table.no_row (h₀.no_rows id).1 ha,
        fun id _ hv => Table.no_row (h₀.no_rows id).2 hv⟩
  | @step st₁ st₂ hrun hs ih =>
      have h₁ : Reachable honours st₁ := ⟨st₀, h₀, hrun⟩
      rcases h₁.commitsSince hs with ⟨t, s, hc⟩ | ⟨hattempts, hversions⟩
      · rw [hc.clock]
        exact hc.single.stamped h₁.consistent (h₁.step hs).consistent ih hc.now_le
      · refine Store.Stamped.mono ⟨?_, ?_⟩ (h₁.safe.grows hs).world.clock
        · rw [hattempts]
          exact ih.attempts
        · rw [hversions]
          exact ih.versions

/-- **What a transaction has read before it began has an earlier timestamp.** -/
theorem Reachable.caused (h : Reachable honours st) : st.shared.db.Caused := by
  obtain ⟨st₀, h₀, hrun⟩ := h
  induction hrun with
  | refl =>
      exact ⟨fun id _ ha => Table.no_row (h₀.no_rows id).1 ha,
        fun id _ hv => Table.no_row (h₀.no_rows id).2 hv⟩
  | @step st₁ st₂ hrun hs ih =>
      have h₁ : Reachable honours st₁ := ⟨st₀, h₀, hrun⟩
      rcases h₁.commitsSince hs with ⟨t, s, hc⟩ | ⟨hattempts, hversions⟩
      swap
      · exact ⟨hattempts ▸ ih.attempts, hversions ▸ ih.versions⟩
      have hstamped := hc.reachable.stamped
      have hgrows := (hc.reachable.grows hc.run).db
      refine ⟨fun id a' ha' => ?_, fun id v' hv' => ?_⟩
      · rcases hc.single.attempt ha' with hnew | ⟨a, ha, rfl | hstep⟩
        · exact hnew.caused
        · exact ih.attempts id a' ha
        · rcases hc.attempt h₁ ha with hkept | ⟨a₀, ha₀, hdispatched⟩
          · rw [hkept] at ha'
            exact Option.some.inj ha' ▸ ih.attempts id a ha
          · obtain ⟨w, hw, hsteps⟩ := hgrows.attempts id a₀ ha₀
            obtain rfl := Option.some.inj (hw.symm.trans ha)
            have htimes := (hstamped.attempts id a₀ ha₀).2
            have htimed := (h₁.stamped.attempts id w ha).1
            refine hstep.caused htimed (ih.attempts id w ha) ?_ fun t ht => ?_
            · rw [(attempt_columns hsteps).2.2.2.2.2]
              exact htimes _ List.mem_cons_self _ rfl
            · by_cases hprepared : w.status = .prepared
              · exact absurd hprepared (htimed.dispatched.mp (Option.isSome_of_mem ht))
              · rw [attempt_dispatched hsteps (hdispatched hprepared)] at ht
                exact htimes _ (List.mem_cons_of_mem _ List.mem_cons_self) t ht
      · rcases hc.single.version hv' with ⟨hdraft, -⟩ | ⟨v, hv, rfl | hstep⟩
        · exact ((h₁.step hs).consistent.version id v' hv').timed.caused hdraft
        · exact ih.versions id v' hv
        · refine hstep.caused (ih.versions id v hv) fun hfinal => ?_
          rcases hc.version h₁ hs hv hv' hfinal with rfl | ⟨v₀, hv₀⟩
          · rw [hstep.step.not_final] at hfinal
            cases hfinal
          · obtain ⟨w, hw, hsteps⟩ := hgrows.versions id v₀ hv₀
            obtain rfl := Option.some.inj (hw.symm.trans hv)
            rw [(version_columns hsteps).2.2.2]
            exact hstamped.versions id v₀ hv₀ _ List.mem_cons_self _ rfl

/-- **The timestamps of a run whose transactions are open for at most `d` are in order up to
`d`.** -/
theorem ordered_of_commitsWithin {st₀ : System} (h₀ : Initial st₀)
    (hrun : (machine honours).RunWhere (CommitsWithin d) st₀ st) : st.shared.db.Ordered d := by
  induction hrun with
  | refl =>
      exact ⟨fun id _ ha => Table.no_row (h₀.no_rows id).1 ha,
        fun id _ hv => Table.no_row (h₀.no_rows id).2 hv⟩
  | @step st₁ st₂ hrun hs hwithin ih =>
      have h₁ : Reachable honours st₁ := ⟨st₀, h₀, hrun.run⟩
      rcases h₁.commitsSince hs with ⟨t, s, hc⟩ | ⟨hattempts, hversions⟩
      · exact hc.single.ordered h₁.consistent (h₁.step hs).consistent h₁.stamped hc.now_le ih
          (hc.within d hwithin)
      · exact ⟨hattempts ▸ ih.attempts, hversions ▸ ih.versions⟩

end CostEngine
