import CostEngine.Concurrency.Soundness

/-!
# The execution behind a transaction

`Safe` keeps for every open transaction the state in which it began and, once it is ready
to end, an execution of its whole body (`Safe.executed`). Whatever a weakest precondition
proves of the body is therefore known of the transaction a thread is about to commit, and
what the specification says of the beginning is known of the state of the beginning
(`Safe.began`).
-/

namespace Concurrency

variable {σ κ ω ε η τ μ Q χ ρ β α γ : Type} {Res : τ → Type} {Ans : Q → Type}
variable {M : Machine σ κ ω ε η τ Res μ Q Ans χ ρ β} {D : Discipline M}

/-! ## What a transaction has changed -/

namespace Discipline

variable {g fl : Global σ χ} {L : List κ} {ws : List ω} {P : ω → Prop}

/-- The changes of a part of a transaction come after those made before it. -/
theorem exec_appends {p : Txn σ κ ω ε α} {o : Outcome σ κ ω ε χ α}
    (h : D.Exec g fl L ws p o) (hp : p.Writes P) :
    ∃ us, o.writes = ws ++ us ∧ ∀ u ∈ us, P u := by
  induction p generalizing fl L ws o with
  | pure a =>
      cases h
      exact ⟨[], by simp, by simp⟩
  | throw e =>
      cases h
      exact ⟨[], by simp, by simp⟩
  | read k ih =>
      obtain ⟨g₁, o', -, -, -, hk, rfl⟩ := h
      have := ih _ hk (hp _)
      exact this
  | acquire l k ih =>
      obtain ⟨g₁, -, -, hk⟩ := h
      exact ih hk hp
  | write u k ih =>
      obtain ⟨us, hus, hall⟩ := ih h hp.2
      refine ⟨u :: us, by rw [hus]; simp, fun u' hu' => ?_⟩
      rcases List.mem_cons.mp hu' with rfl | hu'
      · exact hp.1
      · exact hall u' hu'

theorem wp_writes {p : Txn σ κ ω ε α} {post : Outcome σ κ ω ε χ α → Prop}
    (hp : p.Writes P)
    (h : ∀ o us, o.writes = ws ++ us → (∀ u ∈ us, P u) → post o) : D.Wp g fl L ws p post := by
  intro o ho
  obtain ⟨us, hus, hall⟩ := exec_appends ho hp
  exact h o us hus hall

/-- A row that was updated had been found. -/
theorem wp_updateReturning_image {l : κ} {find : σ → Option α} {image : α → ω}
    {post : Outcome σ κ ω ε χ (Option α) → Prop}
    (hnone : ∀ o, o.result = .ok none → o.writes = ws → post o)
    (hsome : ∀ o s row, find s = some row → o.result = .ok (some row) →
      o.writes = ws ++ [image row] → post o) :
    D.Wp g fl L ws (.updateReturning l find image) post := by
  rintro o ⟨g₁, o₁, -, -, -, h, rfl⟩
  dsimp only at h
  split at h
  · cases h
    exact hnone _ rfl rfl
  · obtain ⟨g₂, -, -, g₃, o₃, -, -, -, h, rfl⟩ := h
    dsimp only at h
    split at h
    · cases h
      exact hnone _ rfl rfl
    · rename_i row hrow
      cases h
      exact hsome _ _ row hrow rfl rfl

/-- Left alone, a transaction ends. -/
theorem exists_exec (hinv : D.Inv g) (p : Txn σ κ ω ε α) :
    ∀ {fl}, D.le fl g → ∀ (L : List κ) (ws : List ω), ∃ o, D.Exec g fl L ws p o := by
  induction p with
  | pure a => exact fun _ L ws => ⟨_, rfl⟩
  | throw e => exact fun _ L ws => ⟨_, rfl⟩
  | read k ih =>
      intro fl hfl L ws
      obtain ⟨o, ho⟩ := ih (M.view g.db ws) (D.le_refl g) L ws
      exact ⟨_, g, o, hfl, hinv, .refl hinv, ho, rfl⟩
  | acquire l k ih =>
      intro fl hfl L ws
      obtain ⟨o, ho⟩ := ih (D.le_refl g) (l :: L) ws
      exact ⟨o, g, hfl, .refl hinv, ho⟩
  | write u k ih => exact fun hfl L ws => ih hfl L (ws ++ [u])

end Discipline

/-! ## Open transactions -/

section Safe

variable {Spec : (t : τ) → η → Outcome σ κ ω ε χ (Res t) → Global σ χ → Prop}
variable {Sent : μ → Global σ χ → Prop}
variable {Post : ρ → List (Event ε τ Res μ Q Ans) → Except ε β → Global σ χ → Prop}
variable {st : State σ κ ω ε η τ Res μ Q Ans χ ρ β} {i : Nat} {req : ρ}
variable {log : List (Event ε τ Res μ Q Ans)} {t : τ}
variable {k : Except ε (Res t) → Call σ ε τ Res μ Q Ans β} {a : Active σ κ ω ε η χ (Res t)}
variable (h : Safe D Spec Sent Post st) (hi : st.threads i = .inTxn req log t k a)
include h hi

/-- The state in which an open transaction began; had it run alone there, it would have
ended as specified. -/
theorem Safe.began : ∃ g₀, D.Inv g₀ ∧ D.le g₀ st.shared ∧ M.begins g₀.world a.env
    ∧ ∃ o, Spec t a.env o g₀ := by
  have hth := h.threads i
  rw [hi] at hth
  obtain ⟨g₀, fl, hinv, h₀, hfl, hb, hc, -⟩ := hth
  obtain ⟨o, ho⟩ := Discipline.exists_exec hinv (M.body t a.env) (D.le_refl _) [] []
  obtain ⟨he, -⟩ := hc g₀ g₀ a.env o (.refl hinv) hb (.refl hinv) ho
  exact ⟨g₀, hinv, (h₀.trans hfl).le, hb, o, he.spec⟩

/-- A transaction that is ready to end has run its body. -/
theorem Safe.executed {r : Except ε (Res t)}
    (hr : a.rest = match r with
      | .ok x => .pure x
      | .error e => .throw e) :
    ∃ g₀ last, D.Inv g₀ ∧ D.Later [] g₀ st.shared ∧
      D.Exec st.shared g₀ [] [] (M.body t a.env) ⟨a.seen, last, r, a.locks, a.writes⟩ := by
  have hth := h.threads i
  rw [hi] at hth
  obtain ⟨g₀, fl, hinv, h₀, hfl, -, -, hx⟩ := hth
  have hend : D.Exec st.shared fl a.locks a.writes a.rest ⟨[], fl, r, a.locks, a.writes⟩ := by
    rw [hr]
    cases r <;> rfl
  have hexec := hx st.shared _ (.refl h.inv) hend
  rw [List.append_nil] at hexec
  exact ⟨g₀, fl, hinv, h₀.trans hfl, hexec⟩

end Safe

end Concurrency
