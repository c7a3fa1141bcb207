import CostEngine.Concurrency.Semantics

/-!
# Runs with a condition, runs with a count

`RunWhere P` are the runs all of whose steps satisfy `P`, and `Counts P n` the runs of which
exactly `n` steps do. `State.Ending` is a thread about to end its transaction; what a call
has in its log was put there by such a thread (`Step.ended_mem`).
-/

namespace Concurrency

variable {σ κ ω ε η τ μ Q χ ρ β : Type} {Res : τ → Type} {Ans : Q → Type}
variable {M : Machine σ κ ω ε η τ Res μ Q Ans χ ρ β}

section

variable (M)
variable (P : State σ κ ω ε η τ Res μ Q Ans χ ρ β → State σ κ ω ε η τ Res μ Q Ans χ ρ β → Prop)

/-! ## Runs whose steps are known -/

/-- A run whose steps all satisfy `P`. -/
inductive Machine.RunWhere : State σ κ ω ε η τ Res μ Q Ans χ ρ β →
    State σ κ ω ε η τ Res μ Q Ans χ ρ β → Prop where
  | refl (st : State σ κ ω ε η τ Res μ Q Ans χ ρ β) : RunWhere st st
  | step {st st' st'' : State σ κ ω ε η τ Res μ Q Ans χ ρ β} :
      RunWhere st st' → M.Step st' st'' → P st' st'' → RunWhere st st''

/-- Every step of a run from `st` to `st'` whose steps satisfy `P` satisfies `R`. -/
def Machine.Throughout
    (R : State σ κ ω ε η τ Res μ Q Ans χ ρ β → State σ κ ω ε η τ Res μ Q Ans χ ρ β → Prop)
    (st st' : State σ κ ω ε η τ Res μ Q Ans χ ρ β) : Prop :=
  ∀ s s', M.RunWhere P st s → M.Step s s' → P s s' → M.RunWhere P s' st' → R s s'

/-- A run of which `n` steps satisfy `P`. -/
inductive Machine.Counts : Nat → State σ κ ω ε η τ Res μ Q Ans χ ρ β →
    State σ κ ω ε η τ Res μ Q Ans χ ρ β → Prop where
  | refl (st : State σ κ ω ε η τ Res μ Q Ans χ ρ β) : Counts 0 st st
  | hit {n : Nat} {st st' st'' : State σ κ ω ε η τ Res μ Q Ans χ ρ β} :
      Counts n st st' → M.Step st' st'' → P st' st'' → Counts (n + 1) st st''
  | miss {n : Nat} {st st' st'' : State σ κ ω ε η τ Res μ Q Ans χ ρ β} :
      Counts n st st' → M.Step st' st'' → ¬ P st' st'' → Counts n st st''

end

variable {P : State σ κ ω ε η τ Res μ Q Ans χ ρ β → State σ κ ω ε η τ Res μ Q Ans χ ρ β → Prop}
variable {st st' st'' : State σ κ ω ε η τ Res μ Q Ans χ ρ β}

/-! ### Runs together -/

theorem Machine.Run.trans (h : M.Run st st') (h' : M.Run st' st'') : M.Run st st'' := by
  induction h' with
  | refl => exact h
  | step _ hs ih => exact .step ih hs

theorem Machine.RunWhere.trans (h : M.RunWhere P st st') (h' : M.RunWhere P st' st'') :
    M.RunWhere P st st'' := by
  induction h' with
  | refl => exact h
  | step _ hs hP ih => exact .step ih hs hP

theorem Machine.RunWhere.run (h : M.RunWhere P st st') : M.Run st st' := by
  induction h with
  | refl => exact .refl _
  | step _ hs _ ih => exact .step ih hs

theorem Machine.Counts.run {n : Nat} (h : M.Counts P n st st') : M.Run st st' := by
  induction h with
  | refl => exact .refl _
  | hit _ hs _ ih => exact .step ih hs
  | miss _ hs _ ih => exact .step ih hs

/-- Every run has a count. -/
theorem Machine.Run.counts (P : State σ κ ω ε η τ Res μ Q Ans χ ρ β →
    State σ κ ω ε η τ Res μ Q Ans χ ρ β → Prop) (h : M.Run st st') :
    ∃ n, M.Counts P n st st' := by
  induction h with
  | refl => exact ⟨0, .refl _⟩
  | @step st₁ st₂ _ hs ih =>
      obtain ⟨n, hn⟩ := ih
      by_cases hP : P st₁ st₂
      · exact ⟨n + 1, .hit hn hs hP⟩
      · exact ⟨n, .miss hn hs hP⟩

/-! ## Ending a transaction -/

/-- What the call of a thread has done so far. -/
def Thread.events : Thread σ κ ω ε η τ Res μ Q Ans χ ρ β → List (Event ε τ Res μ Q Ans)
  | .idle => []
  | .running _ log _ => log
  | .inTxn _ log _ _ _ => log

/-- Thread `i` is about to end the transaction `t` with `r`. -/
def State.Ending (st : State σ κ ω ε η τ Res μ Q Ans χ ρ β) (i : Nat) (t : τ)
    (r : Except ε (Res t)) (a : Active σ κ ω ε η χ (Res t)) : Prop :=
  (∃ req log k, st.threads i = .inTxn req log t k a) ∧
    a.rest = match r with
      | .ok x => .pure x
      | .error e => .throw e

/-- A transaction that is in a log was there before the step, or the step ended it. -/
theorem Machine.Step.ended_mem (hs : M.Step st st') {i : Nat} {t : τ} {r : Except ε (Res t)}
    (h : .ended t r ∈ (st'.threads i).events) :
    .ended t r ∈ (st.threads i).events ∨ ∃ a, st.Ending i t r a := by
  have hset : ∀ {j : Nat} {th : Thread σ κ ω ε η τ Res μ Q Ans χ ρ β},
      .ended t r ∈ (Function.update st.threads j th i).events →
      (i = j ∧ .ended t r ∈ th.events) ∨ .ended t r ∈ (st.threads i).events := by
    intro j th h
    by_cases hij : i = j
    · subst hij
      exact .inl ⟨rfl, by simpa using h⟩
    · exact .inr (by simpa [hij] using h)
  cases hs with
  | world x hx => exact .inl h
  | config L s hc hfree => exact .inl h
  | spawn j req hj | stop j =>
      rcases hset h with ⟨-, h⟩ | h
      · cases h
      · exact .inl h
  | finish j req log r' hj =>
      rcases hset h with ⟨-, h⟩ | h
      · cases h
      · exact .inl h
  | query j req log k hj | «begin» j req log t' k env hj hb | read j req log t' k a f hj hr
  | acquire j req log t' k a l p hj hr hfree | write j req log t' k a u p hj hr =>
      rcases hset h with ⟨rfl, h'⟩ | h'
      · exact .inl (by rw [hj]; exact h')
      · exact .inl h'
  | send j req log m c hj =>
      rcases hset h with ⟨rfl, h'⟩ | h'
      · refine .inl ?_
        rw [hj]
        simpa [Thread.events] using h'
      · exact .inl h'
  | answer j req log q k a hj ha =>
      rcases hset h with ⟨rfl, h'⟩ | h'
      · refine .inl ?_
        rw [hj]
        simpa [Thread.events] using h'
      · exact .inl h'
  | commit j req log t' k a r' hj hr =>
      rcases hset h with ⟨rfl, h'⟩ | h'
      · rcases List.mem_append.mp h' with h' | h'
        · exact .inl (by rw [hj]; exact h')
        · cases List.mem_singleton.mp h'
          exact .inr ⟨a, ⟨req, log, k, hj⟩, hr⟩
      · exact .inl h'
  | rollback j req log t' k a e hj hr =>
      rcases hset h with ⟨rfl, h'⟩ | h'
      · rcases List.mem_append.mp h' with h' | h'
        · exact .inl (by rw [hj]; exact h')
        · cases List.mem_singleton.mp h'
          exact .inr ⟨a, ⟨req, log, k, hj⟩, hr⟩
      · exact .inl h'

/-! ### What was known when it ended -/

/-- The same with what was in the log before. -/
theorem Machine.Step.ended_after (hs : M.Step st st') {i : Nat} {t : τ} {r : Except ε (Res t)}
    {before after : List (Event ε τ Res μ Q Ans)}
    (h : (st'.threads i).events = before ++ .ended t r :: after) :
    (∃ after', (st.threads i).events = before ++ .ended t r :: after')
      ∨ (st.threads i).events = before ∧ ∃ a, st.Ending i t r a := by
  have hset : ∀ {j : Nat} {th : Thread σ κ ω ε η τ Res μ Q Ans χ ρ β},
      (Function.update st.threads j th i).events = before ++ .ended t r :: after →
      (i = j ∧ th.events = before ++ .ended t r :: after)
        ∨ (st.threads i).events = before ++ .ended t r :: after := by
    intro j th h
    by_cases hij : i = j
    · subst hij
      exact .inl ⟨rfl, by simpa using h⟩
    · exact .inr (by simpa [hij] using h)
  have hkept (h : (st.threads i).events = before ++ .ended t r :: after) :
      (∃ after', (st.threads i).events = before ++ .ended t r :: after')
        ∨ (st.threads i).events = before ∧ ∃ a, st.Ending i t r a := .inl ⟨after, h⟩
  -- What is appended is the event itself, or the event was there.
  have hlog : ∀ {log : List (Event ε τ Res μ Q Ans)} {e : Event ε τ Res μ Q Ans},
      log ++ [e] = before ++ .ended t r :: after →
      (∃ after', log = before ++ .ended t r :: after') ∨ log = before ∧ e = .ended t r := by
    intro log e he
    rcases List.eq_nil_or_concat after with rfl | ⟨after, e', rfl⟩
    · obtain ⟨hlog, he⟩ := List.append_inj' he rfl
      exact .inr ⟨hlog, List.singleton_inj.mp he⟩
    · rw [List.concat_eq_append, ← List.cons_append, ← List.append_assoc] at he
      exact .inl ⟨after, List.append_inj_left' he rfl⟩
  cases hs with
  | world x hx => exact hkept h
  | config L s hc hfree => exact hkept h
  | spawn j req hj | stop j | finish j req log r' hj =>
      rcases hset h with ⟨-, h'⟩ | h'
      · exact absurd h' (by simp [Thread.events])
      · exact hkept h'
  | query j req log k hj | «begin» j req log t' k env hj hb | read j req log t' k a f hj hr
  | acquire j req log t' k a l p hj hr hfree | write j req log t' k a u p hj hr =>
      rcases hset h with ⟨rfl, h'⟩ | h'
      · exact hkept (by rw [hj]; exact h')
      · exact hkept h'
  | send j req log m c hj | answer j req log q k a hj ha =>
      rcases hset h with ⟨rfl, h'⟩ | h'
      · rcases hlog h' with ⟨after', hold⟩ | ⟨-, he⟩
        · exact .inl ⟨after', by rw [hj]; exact hold⟩
        · cases he
      · exact hkept h'
  | commit j req log t' k a r' hj hr | rollback j req log t' k a e hj hr =>
      rcases hset h with ⟨rfl, h'⟩ | h'
      · rcases hlog h' with ⟨after', hold⟩ | ⟨hold, he⟩
        · exact .inl ⟨after', by rw [hj]; exact hold⟩
        · cases he
          exact .inr ⟨by rw [hj]; exact hold, a, ⟨req, log, k, hj⟩, hr⟩
      · exact hkept h'

/-- A transaction that is in a log was ended in some step of the run, by a call that had done
just what is before it in the log. -/
theorem Machine.RunWhere.ended_after (hrun : M.RunWhere P st st') {i : Nat} {t : τ}
    {r : Except ε (Res t)} {before after : List (Event ε τ Res μ Q Ans)}
    (hnew : (st.threads i).events = [])
    (h : (st'.threads i).events = before ++ .ended t r :: after) :
    ∃ s s' a, M.RunWhere P st s ∧ P s s' ∧ (s.threads i).events = before ∧ s.Ending i t r a := by
  induction hrun generalizing after with
  | refl =>
      rw [hnew] at h
      exact absurd h.symm (by simp)
  | @step s s' hrun hs hP ih =>
      rcases hs.ended_after h with ⟨after', hold⟩ | ⟨hbefore, a, ha⟩
      · exact ih hold
      · exact ⟨s, s', a, hrun, hP, hbefore, ha⟩

/-! ### Rolling back -/

/-- A thread that is about to roll back leaves the shared state as it is. -/
theorem Machine.Step.rollback_shared (hs : M.Step st st') {i : Nat} {t : τ} {e : ε}
    {a : Active σ κ ω ε η χ (Res t)} (he : st.Ending i t (.error e) a)
    (hmoved : st'.threads i ≠ st.threads i) : st'.shared = st.shared := by
  obtain ⟨⟨req, log, k, hi⟩, hthrow⟩ := he
  have hother : ∀ {j : Nat} {th : Thread σ κ ω ε η τ Res μ Q Ans χ ρ β},
      Function.update st.threads j th i ≠ st.threads i → i = j := by
    intro j th h
    by_contra hij
    exact h (Function.update_of_ne hij _ _)
  cases hs with
  | commit j req' log' t' k' a' r hj hp =>
      cases hother hmoved
      cases hi.symm.trans hj
      cases hp.symm.trans hthrow
  | send j req' log' m c hj =>
      cases hother hmoved
      cases hi.symm.trans hj
  | world x hx => exact absurd rfl hmoved
  | config L s hc hfree => exact absurd rfl hmoved
  | _ => rfl

/-! ## A call that has changed nothing -/

/-- What a call has done stays in its log. -/
theorem Machine.Step.events_mem (hs : M.Step st st') {i : Nat} (hi : st.threads i ≠ .idle)
    (hi' : st'.threads i ≠ .idle) {e : Event ε τ Res μ Q Ans} (h : e ∈ (st.threads i).events) :
    e ∈ (st'.threads i).events := by
  have hset : ∀ {j : Nat} {th : Thread σ κ ω ε η τ Res μ Q Ans χ ρ β},
      (i = j → e ∈ th.events) → e ∈ (Function.update st.threads j th i).events := by
    intro j th hth
    by_cases hij : i = j
    · subst hij
      simpa using hth rfl
    · simpa [hij] using h
  have hidle : ∀ {j : Nat}, Function.update st.threads j .idle i ≠ .idle → i ≠ j := by
    rintro j hne rfl
    exact hne (by simp)
  cases hs with
  | world x hx => exact h
  | config L s hc hfree => exact h
  | spawn j req hj => exact hset fun hij => absurd (hij ▸ hj) hi
  | stop j => exact hset fun hij => absurd hij (hidle hi')
  | finish j req log r hj => exact hset fun hij => absurd hij (hidle hi')
  | query j req log k hj | «begin» j req log t k env hj hb | read j req log t k a f hj hr
  | acquire j req log t k a l p hj hr hfree | write j req log t k a u p hj hr =>
      refine hset fun hij => ?_
      rw [hij, hj] at h
      exact h
  | send j req log m c hj | answer j req log q k a hj ha | commit j req log t k a r hj hr
  | rollback j req log t k a e' hj hr =>
      refine hset fun hij => ?_
      rw [hij, hj] at h
      exact List.mem_append_left _ h

/-- A step of a thread that has committed nothing and sent nothing. -/
theorem Machine.Step.shared_eq (hs : M.Step st st') {i : Nat}
    (hmoved : st'.threads i ≠ st.threads i)
    (hok : ∀ t r, .ended t (.ok r) ∉ (st'.threads i).events)
    (hsent : ∀ m, .sent m ∉ (st'.threads i).events) : st'.shared = st.shared := by
  have hother : ∀ {j : Nat} {th : Thread σ κ ω ε η τ Res μ Q Ans χ ρ β},
      Function.update st.threads j th i ≠ st.threads i → i = j := by
    intro j th h
    by_contra hij
    exact h (Function.update_of_ne hij _ _)
  cases hs with
  | commit j req log t k a r hj hp =>
      obtain rfl := hother hmoved
      exact absurd (by simp [Thread.events]) (hok t r)
  | send j req log m c hj =>
      obtain rfl := hother hmoved
      exact absurd (by simp [Thread.events]) (hsent m)
  | world x hx => exact absurd rfl hmoved
  | config L s hc hfree => exact absurd rfl hmoved
  | _ => rfl

/-- What it has done stays in its log as long as it is not over. -/
theorem Machine.RunWhere.events_mem {i : Nat}
    (hrun : M.RunWhere (fun st _ => st.threads i ≠ .idle) st st') (hi : st'.threads i ≠ .idle)
    {e : Event ε τ Res μ Q Ans} (h : e ∈ (st.threads i).events) : e ∈ (st'.threads i).events := by
  induction hrun with
  | refl => exact h
  | step _ hs hi₁ ih => exact hs.events_mem hi₁ hi (ih hi₁)

/-- No step of such a call changes the shared state, in any of its runs. -/
theorem Machine.throughout_unchanged {i : Nat} (hi : st'.threads i ≠ .idle)
    (hok : ∀ t r, .ended t (.ok r) ∉ (st'.threads i).events)
    (hsent : ∀ m, .sent m ∉ (st'.threads i).events) :
    M.Throughout (fun st _ => st.threads i ≠ .idle)
      (fun a b => b.threads i ≠ a.threads i → b.shared = a.shared) st st' := by
  intro s s' _ hs _ hrest hmoved
  exact hs.shared_eq hmoved (fun t r h => hok t r (hrest.events_mem hi h))
    fun m h => hsent m (hrest.events_mem hi h)

/-! ## The begin of a transaction -/

/-- An open transaction was open before the step, or it was begun in the step. -/
theorem Machine.Step.opened (hs : M.Step st st') {i : Nat} {t : τ} {req : ρ}
    {log : List (Event ε τ Res μ Q Ans)} {k : Except ε (Res t) → Call σ ε τ Res μ Q Ans β}
    {a' : Active σ κ ω ε η χ (Res t)} (hi : st'.threads i = .inTxn req log t k a') :
    (∃ a, st.threads i = .inTxn req log t k a ∧ a.env = a'.env) ∨
      M.begins st'.shared.world a'.env ∧ a' = { env := a'.env, rest := M.body t a'.env } := by
  have hset : ∀ {j : Nat} {th : Thread σ κ ω ε η τ Res μ Q Ans χ ρ β},
      Function.update st.threads j th i = .inTxn req log t k a' →
      (i = j ∧ th = .inTxn req log t k a') ∨ st.threads i = .inTxn req log t k a' := by
    intro j th h
    by_cases hij : i = j
    · subst hij
      exact .inl ⟨rfl, by simpa using h⟩
    · exact .inr (by simpa [hij] using h)
  have hkept : st.threads i = .inTxn req log t k a' →
      ∃ a, st.threads i = .inTxn req log t k a ∧ a.env = a'.env := fun h => ⟨a', h, rfl⟩
  cases hs with
  | world x hx => exact .inl (hkept hi)
  | config L s hc hfree => exact .inl (hkept hi)
  | spawn j req' hj | stop j | finish j req' log' r hj | query j req' log' k' hj
  | send j req' log' m c hj | answer j req' log' q k' ans hj ha
  | commit j req' log' t' k' a r hj hr | rollback j req' log' t' k' a e hj hr =>
      rcases hset hi with ⟨-, hth⟩ | h
      · cases hth
      · exact .inl (hkept h)
  | «begin» j req' log' t' k' env hj hb =>
      rcases hset hi with ⟨-, hth⟩ | h
      · cases hth
        exact .inr ⟨hb, rfl⟩
      · exact .inl (hkept h)
  | read j req' log' t' k' a f hj hr | acquire j req' log' t' k' a l p hj hr hfree
  | write j req' log' t' k' a u p hj hr =>
      rcases hset hi with ⟨rfl, hth⟩ | h
      · cases hth
        exact .inl ⟨a, hj, rfl⟩
      · exact .inl (hkept h)

/-- The state in which an open transaction had just begun. -/
theorem Machine.Run.opened (hrun : M.Run st st') {i : Nat} {t : τ} {req : ρ}
    {log : List (Event ε τ Res μ Q Ans)} {k : Except ε (Res t) → Call σ ε τ Res μ Q Ans β}
    {a : Active σ κ ω ε η χ (Res t)} (hidle : st.threads i = .idle)
    (hi : st'.threads i = .inTxn req log t k a) : ∃ s, M.Run st s ∧ M.Run s st'
      ∧ s.threads i = .inTxn req log t k { env := a.env, rest := M.body t a.env }
      ∧ M.begins s.shared.world a.env := by
  induction hrun generalizing a with
  | refl =>
      rw [hidle] at hi
      cases hi
  | @step s s' hrun hs ih =>
      rcases hs.opened hi with ⟨a₀, hi₀, henv⟩ | ⟨hb, hnew⟩
      · obtain ⟨s₀, h₀, h₁, hth, hb⟩ := ih hi₀
        rw [henv] at hth hb
        exact ⟨s₀, h₀, .step h₁ hs, hth, hb⟩
      · exact ⟨s', .step hrun hs, .refl _, by rw [hi]; exact congrArg _ hnew, hb⟩

/-! ## The first statement of a transaction -/

/-- In this step the transaction `t` of thread `i` makes its first read. -/
def State.FirstRead (st st' : State σ κ ω ε η τ Res μ Q Ans χ ρ β) (i : Nat) (t : τ) : Prop :=
  ∃ req log k, ∃ a a' : Active σ κ ω ε η χ (Res t), st.threads i = .inTxn req log t k a ∧
    st'.threads i = .inTxn req log t k a' ∧ a.seen = [] ∧ a'.seen = [st.shared]

/-- The state that the first statement of a transaction saw was seen in this step, or it was
seen before. -/
theorem Machine.Step.seen_cons (hs : M.Step st st') {i : Nat} {t : τ} {req : ρ}
    {log : List (Event ε τ Res μ Q Ans)} {k : Except ε (Res t) → Call σ ε τ Res μ Q Ans β}
    {a' : Active σ κ ω ε η χ (Res t)} {g : Global σ χ} {rest : List (Global σ χ)}
    (hi : st'.threads i = .inTxn req log t k a') (hseen : a'.seen = g :: rest) :
    (g = st.shared ∧ st.FirstRead st' i t) ∨
      ∃ a rest', st.threads i = .inTxn req log t k a ∧ a.seen = g :: rest' := by
  have hset : ∀ {j : Nat} {th : Thread σ κ ω ε η τ Res μ Q Ans χ ρ β},
      Function.update st.threads j th i = .inTxn req log t k a' →
      (i = j ∧ th = .inTxn req log t k a') ∨ st.threads i = .inTxn req log t k a' := by
    intro j th h
    by_cases hij : i = j
    · subst hij
      exact .inl ⟨rfl, by simpa using h⟩
    · exact .inr (by simpa [hij] using h)
  have hkept : st.threads i = .inTxn req log t k a' →
      ∃ a rest', st.threads i = .inTxn req log t k a ∧ a.seen = g :: rest' :=
    fun h => ⟨a', rest, h, hseen⟩
  cases hs with
  | world x hx => exact .inr (hkept hi)
  | config L s hc hfree => exact .inr (hkept hi)
  | spawn j req' hj | stop j | finish j req' log' r hj | query j req' log' k' hj
  | send j req' log' m c hj | answer j req' log' q k' ans hj ha
  | commit j req' log' t' k' a r hj hr | rollback j req' log' t' k' a e hj hr =>
      rcases hset hi with ⟨-, hth⟩ | h
      · cases hth
      · exact .inr (hkept h)
  | «begin» j req' log' t' k' env hj hb =>
      rcases hset hi with ⟨-, hth⟩ | h
      · cases hth
        cases hseen
      · exact .inr (hkept h)
  | read j req' log' t' k' a f hj hr =>
      rcases hset hi with ⟨rfl, hth⟩ | h
      · cases hth
        have hg : a.seen ++ [st.shared] = g :: rest := hseen
        by_cases hnil : a.seen = []
        · have hnew : a.seen ++ [st.shared] = [st.shared] := by rw [hnil]; rfl
          cases hnew.symm.trans hg
          exact .inl ⟨rfl, req, log, k, a, _, hj, hi, hnil, hnew⟩
        · obtain ⟨g₀, rest₀, hcons⟩ := List.exists_cons_of_ne_nil hnil
          rw [hcons] at hg
          cases hg
          exact .inr ⟨a, rest₀, hj, hcons⟩
      · exact .inr (hkept h)
  | acquire j req' log' t' k' a l p hj hr hfree | write j req' log' t' k' a u p hj hr =>
      rcases hset hi with ⟨rfl, hth⟩ | h
      · cases hth
        exact .inr ⟨a, rest, hj, hseen⟩
      · exact .inr (hkept h)

end Concurrency
