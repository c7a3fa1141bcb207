import CostEngine.Concurrency.Logic

/-!
# From one transaction at a time to every interleaving

If every handler is `Good`, then in every run the invariant holds, no two open
transactions hold conflicting locks, and whatever a thread is about to do — commit, roll
back, send, return — is what its specification allows (`run_safe` and its corollaries).
The step lemma is `step_safe`; the induction over the run is the usual one.
-/

namespace Concurrency

variable {σ κ ω ε η τ μ Q χ ρ β : Type} {Res : τ → Type} {Ans : Q → Type}
variable {M : Machine σ κ ω ε η τ Res μ Q Ans χ ρ β} {D : Discipline M}
variable {Spec : (t : τ) → η → Outcome σ κ ω ε χ (Res t) → Global σ χ → Prop}
variable {Sent : μ → Global σ χ → Prop}
variable {Post : ρ → List (Event ε τ Res μ Q Ans) → Except ε β → Global σ χ → Prop}

/-! ## Safe states -/

variable (D Spec Sent Post) in
/-- What is known of a thread in the state `g`. A thread inside a transaction may be
looked at as if it had run all its statements so far in earlier states that agree with
`g` on the locks it holds. -/
def Thread.Good : Thread σ κ ω ε η τ Res μ Q Ans χ ρ β → Global σ χ → Prop
  | .idle, _ => True
  | .running req log c, g => Call.Good D Spec Sent (Post req) log c g
  | .inTxn req log t k a, g => ∃ g₀ fl, D.Inv g₀ ∧ D.Later [] g₀ fl ∧ D.Later [] fl g ∧
      M.begins g₀.world a.env ∧
      Call.Good D Spec Sent (Post req) log (.txn t k) g₀ ∧
      ∀ g' o, D.Later a.locks g g' → D.Exec g' fl a.locks a.writes a.rest o →
        D.Exec g' g₀ [] [] (M.body t a.env) { o with seen := a.seen ++ o.seen }

variable (D Spec Sent Post) in
/-- The invariant of a run. -/
structure Safe (st : State σ κ ω ε η τ Res μ Q Ans χ ρ β) : Prop where
  inv : D.Inv st.shared
  threads : ∀ i, (st.threads i).Good D Spec Sent Post st.shared
  exclusive : ∀ i j, i ≠ j → ∀ l ∈ (st.threads i).locks, M.Free l (st.threads j).locks

/-- A thread that is left alone stays good as long as nobody touches what it locked. -/
theorem Thread.Good.mono
    (hPost : ∀ req log r g g', Post req log r g → D.Later [] g g' → Post req log r g')
    {th : Thread σ κ ω ε η τ Res μ Q Ans χ ρ β} {g g' : Global σ χ}
    (h : th.Good D Spec Sent Post g) (hg : D.Later th.locks g g') :
    th.Good D Spec Sent Post g' := by
  cases th with
  | idle => trivial
  | running req log c => exact Call.Good.mono (hPost req) h hg.unlocked
  | inTxn req log t k a =>
      obtain ⟨g₀, fl, hinv, h₀, hfl, hb, hc, hx⟩ := h
      exact ⟨g₀, fl, hinv, h₀, hfl.trans hg.unlocked, hb, hc,
        fun g'' o h' hr => hx g'' o (hg.trans h') hr⟩

section Step

variable {st : State σ κ ω ε η τ Res μ Q Ans χ ρ β}

/-- A step that changes thread `i` only and takes no lock. -/
theorem Safe.set
    (h : Safe D Spec Sent Post st) {i : Nat} {th : Thread σ κ ω ε η τ Res μ Q Ans χ ρ β}
    (hth : th.Good D Spec Sent Post st.shared)
    (hlocks : ∀ l ∈ th.locks, l ∈ (st.threads i).locks) :
    Safe D Spec Sent Post (st.set i th) where
  inv := h.inv
  threads j := by
    by_cases hj : j = i
    · subst hj; simpa using hth
    · simpa [hj] using h.threads j
  exclusive j k hjk l hl := by
    by_cases hj : j = i
    · subst hj
      have hk : k ≠ j := fun e => hjk e.symm
      simp only [State.set_threads, Function.update_self, ne_eq, hk, not_false_eq_true,
        Function.update_of_ne] at hl ⊢
      exact h.exclusive j k hjk l (hlocks l hl)
    · simp only [State.set_threads, ne_eq, hj, not_false_eq_true,
        Function.update_of_ne] at hl
      by_cases hk : k = i
      · subst hk
        simp only [State.set_threads, Function.update_self]
        exact fun m hm => h.exclusive j k hjk l hl m (hlocks m hm)
      · simpa [hk] using h.exclusive j k hjk l hl

/-- A step of the shared state that respects every lock held. -/
theorem Safe.share
    (hPost : ∀ req log r g g', Post req log r g → D.Later [] g g' → Post req log r g')
    (h : Safe D Spec Sent Post st) {g : Global σ χ}
    (hg : ∀ i, D.Later (st.threads i).locks st.shared g) :
    Safe D Spec Sent Post { st with shared := g } where
  inv := (hg 0).inv
  threads i := (h.threads i).mono hPost (hg i)
  exclusive := h.exclusive

/-- A thread ready to end its transaction ends it as specified. -/
theorem Safe.ends (h : Safe D Spec Sent Post st) {i : Nat} {req : ρ}
    {log : List (Event ε τ Res μ Q Ans)} {t : τ}
    {k : Except ε (Res t) → Call σ ε τ Res μ Q Ans β} {a : Active σ κ ω ε η χ (Res t)}
    (hi : st.threads i = .inTxn req log t k a) {r : Except ε (Res t)}
    (hr : ∀ (g : Global σ χ) fl, D.Exec g fl a.locks a.writes a.rest
      ⟨[], fl, r, a.locks, a.writes⟩) :
    ∃ last, D.le last st.shared ∧
      Ends D Spec t a.env ⟨a.seen, last, r, a.locks, a.writes⟩ st.shared ∧
      Call.Good D Spec Sent (Post req) (log ++ [.ended t r]) (k r)
        (M.after ⟨a.seen, last, r, a.locks, a.writes⟩ st.shared) := by
  have hth := h.threads i
  rw [hi] at hth
  obtain ⟨g₀, fl, hinv, h₀, hfl, hb, hc, hx⟩ := hth
  have hexec := hx st.shared _ (.refl h.inv) (hr st.shared fl)
  simp only [List.append_nil] at hexec
  obtain ⟨he, hk⟩ := hc g₀ st.shared a.env _ (.refl hinv) hb (h₀.trans hfl) hexec
  exact ⟨fl, hfl.le, he, hk⟩

/-! ### The next statement -/

/-- A thread that runs the next statement of its transaction stays good. -/
theorem Thread.Good.statement {g : Global σ χ} (hinv : D.Inv g) {req : ρ}
    {log : List (Event ε τ Res μ Q Ans)} {t : τ} {k : Except ε (Res t) → Call σ ε τ Res μ Q Ans β} {a a' : Active σ κ ω ε η χ (Res t)}
    (h : (Thread.inTxn req log t k a).Good D Spec Sent Post g) (henv : a'.env = a.env)
    (hstep : ∀ fl g' o, D.le fl g → D.Later a'.locks g g' →
      D.Exec g' g a'.locks a'.writes a'.rest o →
      D.Later a.locks g g' ∧ ∃ o', D.Exec g' fl a.locks a.writes a.rest o' ∧
        { o' with seen := a.seen ++ o'.seen } = { o with seen := a'.seen ++ o.seen }) :
    (Thread.inTxn req log t k a').Good D Spec Sent Post g := by
  obtain ⟨g₀, fl, hinv₀, h₀, hfl, hb, hc, hx⟩ := h
  refine ⟨g₀, g, hinv₀, h₀.trans hfl, .refl hinv, henv ▸ hb, hc, ?_⟩
  intro g' o hg' hr
  obtain ⟨hl, o', ho', heq⟩ := hstep fl g' o hfl.le hg' hr
  rw [henv, ← heq]
  exact hx g' o' hl ho'

end Step

/-! ## Steps and runs -/

/-- **Every step keeps a run safe.** -/
theorem step_safe
    (hPost : ∀ req log r g g', Post req log r g → D.Later [] g g' → Post req log r g')
    (hserve : ∀ req g, D.Inv g → Call.Good D Spec Sent (Post req) [] (M.serve req) g)
    {st st' : State σ κ ω ε η τ Res μ Q Ans χ ρ β} (h : Safe D Spec Sent Post st)
    (hs : M.Step st st') : Safe D Spec Sent Post st' := by
  cases hs with
  | spawn i req hi => exact h.set (hserve req _ h.inv) (by simp)
  | query i req log k hi =>
      have hth := h.threads i
      rw [hi] at hth
      exact h.set (hth _ (.refl h.inv)) (by simp)
  | begin i req log t k env hi hb =>
      have hth := h.threads i
      rw [hi] at hth
      refine h.set ⟨st.shared, st.shared, h.inv, .refl h.inv, .refl h.inv, hb, hth, ?_⟩
        (by simp)
      intro g' o _ hr
      simpa using hr
  | read i req log t k a f hi hf =>
      have hth := h.threads i
      rw [hi] at hth
      refine h.set (Thread.Good.statement h.inv hth rfl ?_) (by simp [hi])
      intro fl g' o hfl hl hr
      refine ⟨hl, { o with seen := st.shared :: o.seen }, ?_, by simp⟩
      rw [hf]
      exact ⟨st.shared, o, hfl, h.inv, hl, hr, rfl⟩
  | acquire i req log t k a l p hi hp hfree =>
      have hth := h.threads i
      rw [hi] at hth
      have hgood : (Thread.inTxn req log t k { a with locks := l :: a.locks, rest := p }).Good
          D Spec Sent Post st.shared := by
        refine Thread.Good.statement h.inv hth rfl ?_
        intro fl g' o hfl hl hr
        refine ⟨hl.mono fun m hm => List.mem_cons_of_mem _ hm, o, ?_, rfl⟩
        rw [hp]
        exact ⟨st.shared, hfl, hl, hr⟩
      refine ⟨h.inv, ?_, ?_⟩
      · intro j
        by_cases hj : j = i
        · subst hj; simpa using hgood
        · simpa [hj] using h.threads j
      · intro j j' hjj' m hm
        by_cases hj : j = i
        · subst hj
          have hj' : j' ≠ j := fun e => hjj' e.symm
          simp only [State.set_threads, Function.update_self, Thread.locks_inTxn,
            List.mem_cons] at hm
          simp only [State.set_threads, ne_eq, hj', not_false_eq_true,
            Function.update_of_ne]
          rcases hm with rfl | hm
          · exact hfree j' hj'
          · exact h.exclusive j j' hjj' m (by rw [hi]; exact hm)
        · simp only [State.set_threads, ne_eq, hj, not_false_eq_true,
            Function.update_of_ne] at hm
          by_cases hj' : j' = i
          · subst hj'
            simp only [State.set_threads, Function.update_self, Thread.locks_inTxn]
            intro n hn
            rcases List.mem_cons.mp hn with rfl | hn
            · exact fun hc => hfree j hj m hm (M.conflict_symm _ _ hc)
            · exact h.exclusive j j' hjj' m hm n (by rw [hi]; exact hn)
          · simpa [hj'] using h.exclusive j j' hjj' m hm
  | write i req log t k a u p hi hp =>
      have hth := h.threads i
      rw [hi] at hth
      obtain ⟨g₀, fl, hinv₀, h₀, hfl, hb, hc, hx⟩ := hth
      refine h.set ⟨g₀, fl, hinv₀, h₀, hfl, hb, hc, ?_⟩ (by simp [hi])
      intro g' o hl hr
      exact hx g' o hl (by rw [hp]; exact hr)
  | commit i req log t k a r hi hp =>
      obtain ⟨last, hlast, he, hk⟩ := h.ends hi (r := .ok r) (by
        intro g fl; rw [hp]; rfl)
      have hothers : ∀ j, j ≠ i →
          D.Later (st.threads j).locks st.shared (M.commit st.shared a.writes) := by
        intro j hj
        refine ⟨he.le r rfl, he.inv r rfl, fun l hl => he.same r rfl l ?_⟩
        have := h.exclusive j i hj l hl
        rwa [hi] at this
      refine ⟨he.inv r rfl, ?_, ?_⟩
      · intro j
        by_cases hj : j = i
        · subst hj
          simp only [Function.update_self]
          exact hk
        · simpa [hj] using (h.threads j).mono hPost (hothers j hj)
      · intro j j' hjj' m hm
        by_cases hj : j = i
        · subst hj; simp at hm
        · simp only [ne_eq, hj, not_false_eq_true, Function.update_of_ne] at hm
          by_cases hj' : j' = i
          · subst hj'; simp [Machine.Free]
          · simpa [hj'] using h.exclusive j j' hjj' m hm
  | rollback i req log t k a e hi hp =>
      obtain ⟨last, hlast, he, hk⟩ := h.ends hi (r := .error e) (by
        intro g fl; rw [hp]; rfl)
      exact h.set hk (by simp)
  | send i req log m c hi =>
      have hth := h.threads i
      rw [hi] at hth
      obtain ⟨hsent, hl, hc⟩ := hth _ (.refl h.inv)
      have hshare := h.share hPost
        (g := { st.shared with world := M.sends m st.shared.world })
        (fun j => ⟨hl.le, hl.inv, fun l _ => D.same_refl l _⟩)
      have hth : (Thread.running req (log ++ [.sent m]) c).Good D Spec Sent Post
          { st.shared with world := M.sends m st.shared.world } := hc
      exact hshare.set hth (by simp)
  | answer i req log q k a hi ha =>
      have hth := h.threads i
      rw [hi] at hth
      exact h.set (hth _ a (.refl h.inv) ha) (by simp)
  | finish i req log r hi => exact h.set trivial (by simp)
  | stop i => exact h.set trivial (by simp)
  | world x hx =>
      obtain ⟨hinv, hle⟩ := D.world_step h.inv hx
      exact h.share hPost fun j => ⟨hle, hinv, fun l _ => D.same_refl l _⟩
  | config L s hc hfree =>
      obtain ⟨hinv, hle, hsame⟩ := D.config_step h.inv hc
      refine h.share hPost fun j => ⟨hle, hinv, fun l hl => hsame l ?_⟩
      exact fun m hm => hfree m hm j l hl

/-! ### Runs -/

/-- **Every run of good handlers is safe.** -/
theorem run_safe
    (hPost : ∀ req log r g g', Post req log r g → D.Later [] g g' → Post req log r g')
    (hserve : ∀ req g, D.Inv g → Call.Good D Spec Sent (Post req) [] (M.serve req) g)
    {st st' : State σ κ ω ε η τ Res μ Q Ans χ ρ β} (h : Safe D Spec Sent Post st)
    (hr : M.Run st st') : Safe D Spec Sent Post st' := by
  induction hr with
  | refl => exact h
  | step _ hs ih => exact step_safe hPost hserve ih hs

theorem quiet_safe {g : Global σ χ} (hinv : D.Inv g) :
    Safe D Spec Sent Post (State.quiet g : State σ κ ω ε η τ Res μ Q Ans χ ρ β) where
  inv := hinv
  threads _ := trivial
  exclusive _ _ _ l hl := by simp [State.quiet] at hl

/-! ## What a safe state says about its next step -/

section Next

variable {st : State σ κ ω ε η τ Res μ Q Ans χ ρ β} (h : Safe D Spec Sent Post st)
include h

theorem Safe.commits {i : Nat} {req : ρ} {log : List (Event ε τ Res μ Q Ans)} {t : τ}
    {k : Except ε (Res t) → Call σ ε τ Res μ Q Ans β} {a : Active σ κ ω ε η χ (Res t)}
    (hi : st.threads i = .inTxn req log t k a) {r : Res t} (hr : a.rest = .pure r) :
    ∃ last, D.le last st.shared ∧
      Ends D Spec t a.env ⟨a.seen, last, .ok r, a.locks, a.writes⟩ st.shared := by
  obtain ⟨last, hlast, he, -⟩ := h.ends hi (r := .ok r) (by intro g fl; rw [hr]; rfl)
  exact ⟨last, hlast, he⟩

theorem Safe.fails {i : Nat} {req : ρ} {log : List (Event ε τ Res μ Q Ans)} {t : τ}
    {k : Except ε (Res t) → Call σ ε τ Res μ Q Ans β} {a : Active σ κ ω ε η χ (Res t)}
    (hi : st.threads i = .inTxn req log t k a) {e : ε} (hr : a.rest = .throw e) :
    ∃ last, D.le last st.shared ∧
      Ends D Spec t a.env ⟨a.seen, last, .error e, a.locks, a.writes⟩ st.shared := by
  obtain ⟨last, hlast, he, -⟩ := h.ends hi (r := .error e) (by intro g fl; rw [hr]; rfl)
  exact ⟨last, hlast, he⟩

theorem Safe.returns {i : Nat} {req : ρ} {log : List (Event ε τ Res μ Q Ans)}
    {r : Except ε β} (hi : st.threads i = .running req log (.ret r)) :
    Post req log r st.shared := by
  have hth := h.threads i
  rwa [hi] at hth

theorem Safe.sends {i : Nat} {req : ρ} {log : List (Event ε τ Res μ Q Ans)} {m : μ}
    {c : Call σ ε τ Res μ Q Ans β} (hi : st.threads i = .running req log (.send m c)) : Sent m st.shared := by
  have hth := h.threads i
  rw [hi] at hth
  exact (hth _ (.refl h.inv)).1

/-- The shared state only grows. -/
theorem Safe.grows {st' : State σ κ ω ε η τ Res μ Q Ans χ ρ β} (hs : M.Step st st') :
    D.le st.shared st'.shared := by
  cases hs with
  | commit i req log t k a r hi hp =>
      obtain ⟨last, -, he⟩ := h.commits hi hp
      exact he.le r rfl
  | send i req log m c hi =>
      have hth := h.threads i
      rw [hi] at hth
      exact (hth _ (.refl h.inv)).2.1.le
  | world x hx => exact (D.world_step h.inv hx).2
  | config L s hc hfree => exact (D.config_step h.inv hc).2.1
  | _ => exact D.le_refl _

end Next

end Concurrency
