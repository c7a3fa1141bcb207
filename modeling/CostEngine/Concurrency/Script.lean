import CostEngine.Concurrency.Runs

/-! # Scripts

A script is a run written out: which thread makes the next step, what `BEGIN` fixes for a
transaction, what a waiting thread is answered, how the world moves. A `Stage` is a state of
finitely many threads, on which a script can be computed (`play`); what it computes is a run
of the machine (`play_run`). -/

namespace Concurrency

variable {σ κ ω ε η τ μ Q χ ρ β : Type} {Res : τ → Type} {Ans : Q → Type}

/-! ## Stages -/

structure Stage (σ κ ω ε η τ : Type) (Res : τ → Type) (μ Q : Type) (Ans : Q → Type)
    (χ ρ β : Type) where
  shared : Global σ χ
  threads : List (Thread σ κ ω ε η τ Res μ Q Ans χ ρ β) := []

namespace Stage

variable (S : Stage σ κ ω ε η τ Res μ Q Ans χ ρ β)

/-- The thread `i`, idle when there is none. -/
def thread (i : Nat) : Thread σ κ ω ε η τ Res μ Q Ans χ ρ β := S.threads.getD i .idle

def state : State σ κ ω ε η τ Res μ Q Ans χ ρ β := ⟨S.shared, S.thread⟩

/-- Thread `i` becomes `th`. -/
def put (i : Nat) (th : Thread σ κ ω ε η τ Res μ Q Ans χ ρ β) :
    Stage σ κ ω ε η τ Res μ Q Ans χ ρ β := { S with threads := S.threads.set i th }

variable {S}

/-! ### Threads of a stage -/

theorem thread_of_le {i : Nat} (h : S.threads.length ≤ i) : S.thread i = .idle := by
  simp [thread, h]

theorem lt_of_thread {i : Nat} (h : S.thread i ≠ .idle) : i < S.threads.length := by
  by_contra hlt
  exact h (thread_of_le (by omega))

theorem mem_threads {i : Nat} {th : Thread σ κ ω ε η τ Res μ Q Ans χ ρ β} (h : S.thread i = th)
    (hne : th ≠ .idle) : th ∈ S.threads := by
  subst h
  have hlt := lt_of_thread hne
  have hget : S.thread i = S.threads[i] := by simp [thread, hlt]
  rw [hget]
  exact List.getElem_mem hlt

theorem thread_set {i : Nat} (hi : i < S.threads.length)
    (th : Thread σ κ ω ε η τ Res μ Q Ans χ ρ β) (g : Global σ χ) :
    Stage.thread ⟨g, S.threads.set i th⟩ = Function.update S.thread i th := by
  funext j
  by_cases hj : j = i
  · subst hj
    simp [thread, hi]
  · simp [thread, hj, Ne.symm hj]

theorem put_state {i : Nat} (hi : S.thread i ≠ .idle)
    (th : Thread σ κ ω ε η τ Res μ Q Ans χ ρ β) : (S.put i th).state = S.state.set i th :=
  congrArg (State.mk S.shared) (thread_set (lt_of_thread hi) th S.shared)

theorem thread_append (th : Thread σ κ ω ε η τ Res μ Q Ans χ ρ β) (g : Global σ χ) :
    Stage.thread ⟨g, S.threads ++ [th]⟩ = Function.update S.thread S.threads.length th := by
  funext j
  rcases Nat.lt_trichotomy j S.threads.length with hj | hj | hj
  · simp [thread, List.getElem?_append_left hj, Nat.ne_of_lt hj]
  · simp [thread, hj]
  · have hnone : (S.threads ++ [th])[j]? = none := List.getElem?_eq_none (by simp; omega)
    simp [thread, hnone, Nat.ne_of_gt hj, Nat.le_of_lt hj]

theorem env_of_set {i j : Nat} {g : Global σ χ}
    {th : Thread σ κ ω ε η τ Res μ Q Ans χ ρ β} {env : η}
    (h : (Stage.thread ⟨g, S.threads.set i th⟩ j).env? = some env) :
    (S.thread j).env? = some env ∨ j = i ∧ th.env? = some env := by
  by_cases hi : i < S.threads.length
  · rw [thread_set hi] at h
    rcases eq_or_ne j i with rfl | hne
    · rw [Function.update_self] at h
      exact .inr ⟨rfl, h⟩
    · rw [Function.update_of_ne hne] at h
      exact .inl h
  · rw [List.set_eq_of_length_le (by omega)] at h
    exact .inl h

end Stage

section Scripts

variable (M : Machine σ κ ω ε η τ Res μ Q Ans χ ρ β)

inductive Action where
  | spawn (req : ρ)
  | advance (i : Nat) (env : η)
  | answer (i : Nat) (a : (q : Q) → Ans q)
  | world (f : χ → Option χ) (hf : ∀ w x, f w = some x → M.worldStep w x)

variable [DecidableRel M.conflict] [∀ w env, Decidable (M.begins w env)]
variable [∀ q w a, Decidable (M.answers q w a)]

/-- No thread but `i` holds a lock that conflicts with `l`. -/
abbrev Stage.Grants (S : Stage σ κ ω ε η τ Res μ Q Ans χ ρ β) (i : Nat) (l : κ) : Prop :=
  ∀ j, j < S.threads.length → j ≠ i → ∀ m ∈ (S.thread j).locks, ¬ M.conflict l m

/-! ### One statement -/

/-- The next statement of thread `i`; `none` when it waits. -/
def nextStatement (S : Stage σ κ ω ε η τ Res μ Q Ans χ ρ β) (i : Nat) (env : η) :
    Option (Stage σ κ ω ε η τ Res μ Q Ans χ ρ β) :=
  match S.thread i with
  | .idle => none
  | .running req log call =>
      match call with
      | .ret _ => some (S.put i .idle)
      | .query k => some (S.put i (.running req log (k S.shared.db)))
      | .txn t k =>
          if M.begins S.shared.world env then
            some (S.put i (.inTxn req log t k { env, rest := M.body t env }))
          else none
      | .send m c => some ⟨{ S.shared with world := M.sends m S.shared.world },
          S.threads.set i (.running req (log ++ [.sent m]) c)⟩
      | .await _ _ => none
  | .inTxn req log t k ⟨env, seen, locks, writes, rest⟩ =>
      match rest with
      | .pure r => some ⟨M.commit S.shared writes,
          S.threads.set i (.running req (log ++ [.ended t (.ok r)]) (k (.ok r)))⟩
      | .throw e =>
          some (S.put i (.running req (log ++ [.ended t (.error e)]) (k (.error e))))
      | .read f => some (S.put i (.inTxn req log t k ⟨env, seen ++ [S.shared], locks, writes,
          f (M.view S.shared.db writes)⟩))
      | .acquire l p =>
          if S.Grants M i l then
            some (S.put i (.inTxn req log t k ⟨env, seen, l :: locks, writes, p⟩))
          else none
      | .write u p => some (S.put i (.inTxn req log t k ⟨env, seen, locks, writes ++ [u], p⟩))

def Action.act : Action M → Stage σ κ ω ε η τ Res μ Q Ans χ ρ β →
    Option (Stage σ κ ω ε η τ Res μ Q Ans χ ρ β)
  | .spawn req, S => some { S with threads := S.threads ++ [.running req [] (M.serve req)] }
  | .advance i env, S => nextStatement M S i env
  | .answer i a, S =>
      match S.thread i with
      | .running req log (.await q k) =>
          if M.answers q S.shared.world (a q) then
            some (S.put i (.running req (log ++ [.answered q (a q)]) (k (a q))))
          else none
      | _ => none
  | .world f _, S => (f S.shared.world).map fun x => ⟨{ S.shared with world := x }, S.threads⟩

/-! ## Playing a script -/

/-- Play a script as long as `p` holds of the stage. -/
def playWhile (p : Stage σ κ ω ε η τ Res μ Q Ans χ ρ β → Bool) : List (Action M) →
    Stage σ κ ω ε η τ Res μ Q Ans χ ρ β → Option (Stage σ κ ω ε η τ Res μ Q Ans χ ρ β)
  | [], S => some S
  | a :: script, S => if p S then (a.act M S).bind (playWhile p script) else none

def play : List (Action M) → Stage σ κ ω ε η τ Res μ Q Ans χ ρ β →
    Option (Stage σ κ ω ε η τ Res μ Q Ans χ ρ β) := playWhile M fun _ => true

variable {M} {S S' : Stage σ κ ω ε η τ Res μ Q Ans χ ρ β}

/-! ## Scripts are runs -/

omit [∀ q w a, Decidable (M.answers q w a)] in
theorem nextStatement_step {i : Nat} {env : η} (h : nextStatement M S i env = some S') :
    M.Step S.state S'.state := by
  unfold nextStatement at h
  cases hth : S.thread i with
  | idle => rw [hth] at h; cases h
  | running req log call =>
      rw [hth] at h
      have hne : S.thread i ≠ .idle := by rw [hth]; simp
      cases call with
      | ret r =>
          cases h
          rw [Stage.put_state hne]
          exact .finish _ i req log r hth
      | query k =>
          cases h
          rw [Stage.put_state hne]
          exact .query _ i req log k hth
      | txn t k =>
          dsimp only at h
          split at h
          · cases h
            rw [Stage.put_state hne]
            exact .begin _ i req log t k env hth ‹_›
          · cases h
      | send m c =>
          cases h
          refine (Machine.Step.send S.state i req log m c hth : M.Step _ _) |> (Eq.subst ?_ ·)
          exact congrArg (State.mk _) (Stage.thread_set (Stage.lt_of_thread hne) _ _).symm
      | await q k => cases h
  | inTxn req log t k a =>
      rw [hth] at h
      have hne : S.thread i ≠ .idle := by rw [hth]; simp
      obtain ⟨env', seen, locks, writes, rest⟩ := a
      cases rest with
      | pure r =>
          cases h
          refine (Machine.Step.commit S.state i req log t k _ r hth rfl : M.Step _ _)
            |> (Eq.subst ?_ ·)
          exact congrArg (State.mk _) (Stage.thread_set (Stage.lt_of_thread hne) _ _).symm
      | throw e =>
          cases h
          rw [Stage.put_state hne]
          exact .rollback _ i req log t k _ e hth rfl
      | read f =>
          cases h
          rw [Stage.put_state hne]
          exact .read _ i req log t k ⟨env', seen, locks, writes, .read f⟩ f hth rfl
      | acquire l p =>
          dsimp only at h
          split at h
          · rename_i hgrants
            cases h
            rw [Stage.put_state hne]
            refine .acquire _ i req log t k ⟨env', seen, locks, writes, .acquire l p⟩ l p hth rfl
              fun j hj m hm => ?_
            by_cases hlt : j < S.threads.length
            · exact hgrants j hlt hj m hm
            · rw [show S.state.threads j = .idle from Stage.thread_of_le (by omega)] at hm
              cases hm
          · cases h
      | write u p =>
          cases h
          rw [Stage.put_state hne]
          exact .write _ i req log t k ⟨env', seen, locks, writes, .write u p⟩ u p hth rfl

theorem Action.act_step {a : Action M} (h : a.act M S = some S') :
    M.Step S.state S'.state := by
  cases a with
  | spawn req =>
      cases h
      have hidle : S.state.threads S.threads.length = .idle := Stage.thread_of_le (Nat.le_refl _)
      refine (Machine.Step.spawn S.state S.threads.length req hidle : M.Step _ _)
        |> (Eq.subst ?_ ·)
      exact congrArg (State.mk _) (Stage.thread_append _ _).symm
  | advance i env => exact nextStatement_step h
  | answer i a =>
      simp only [act] at h
      split at h
      · rename_i req log q k hth
        split at h
        · cases h
          rw [Stage.put_state (by rw [hth]; simp)]
          exact .answer _ i req log q k (a q) hth ‹_›
        · cases h
      · cases h
  | world f hf =>
      obtain ⟨x, hx, rfl⟩ := Option.map_eq_some_iff.mp h
      exact .world _ x (hf _ x hx)

/-- **What a script computes is a run**, and its steps start from stages of which `p` holds. -/
theorem playWhile_run {p : Stage σ κ ω ε η τ Res μ Q Ans χ ρ β → Bool}
    {P : State σ κ ω ε η τ Res μ Q Ans χ ρ β → State σ κ ω ε η τ Res μ Q Ans χ ρ β → Prop}
    (hP : ∀ (S : Stage σ κ ω ε η τ Res μ Q Ans χ ρ β) (st' : State σ κ ω ε η τ Res μ Q Ans χ ρ β),
      p S = true → P S.state st')
    {script : List (Action M)} (h : playWhile M p script S = some S') :
    M.RunWhere P S.state S'.state := by
  induction script generalizing S with
  | nil => cases h; exact .refl _
  | cons a script ih =>
      unfold playWhile at h
      split at h
      · rename_i hp
        obtain ⟨S₁, h₁, h⟩ := Option.bind_eq_some_iff.mp h
        exact (Machine.RunWhere.step (.refl _) (Action.act_step h₁) (hP S _ hp)).trans (ih h)
      · cases h

theorem play_run {script : List (Action M)} (h : play M script S = some S') :
    M.Run S.state S'.state :=
  (playWhile_run (P := fun _ _ => True) (fun _ _ _ => trivial) h).run

/-! ## What `BEGIN` fixes -/

omit [∀ q w a, Decidable (M.answers q w a)] in
theorem env_of_nextStatement {i j : Nat} {env env' : η} (h : nextStatement M S i env = some S')
    (henv : (S'.thread j).env? = some env') :
    (S.thread j).env? = some env' ∨ j = i ∧ env' = env := by
  have hset : ∀ {g th}, (Stage.thread ⟨g, S.threads.set i th⟩ j).env? = some env' →
      (j = i → th.env? = some env' → (S.thread j).env? = some env' ∨ j = i ∧ env' = env) →
      (S.thread j).env? = some env' ∨ j = i ∧ env' = env :=
    fun h hth => (Stage.env_of_set h).elim .inl fun ⟨hj, he⟩ => hth hj he
  unfold nextStatement at h
  cases hth : S.thread i with
  | idle => rw [hth] at h; cases h
  | running req log call =>
      rw [hth] at h
      cases call with
      | txn t k =>
          dsimp only at h
          split at h
          · cases h
            exact hset henv fun hj he => .inr ⟨hj, (Option.some.inj he).symm⟩
          · cases h
      | await q k => cases h
      | _ =>
          cases h
          exact hset henv fun _ he => by cases he
  | inTxn req log t k a =>
      rw [hth] at h
      obtain ⟨env₁, seen, locks, writes, rest⟩ := a
      have hsame : j = i → some env₁ = some env' → (S.thread j).env? = some env' := by
        rintro rfl he
        rw [hth]
        exact he
      cases rest with
      | acquire l p =>
          dsimp only at h
          split at h
          · cases h
            exact hset henv fun hj he => .inl (hsame hj he)
          · cases h
      | read f =>
          cases h
          exact hset henv fun hj he => .inl (hsame hj he)
      | write u p =>
          cases h
          exact hset henv fun hj he => .inl (hsame hj he)
      | _ =>
          cases h
          exact hset henv fun _ he => by cases he

theorem Action.env_of_act {a : Action M} {j : Nat} {env : η} (h : a.act M S = some S')
    (henv : (S'.thread j).env? = some env) :
    (S.thread j).env? = some env ∨ a = .advance j env := by
  cases a with
  | spawn req =>
      cases h
      rw [Stage.thread_append] at henv
      rcases eq_or_ne j S.threads.length with rfl | hne
      · rw [Function.update_self] at henv
        cases henv
      · rw [Function.update_of_ne hne] at henv
        exact .inl henv
  | advance i env' =>
      refine (env_of_nextStatement h henv).imp_right ?_
      rintro ⟨rfl, rfl⟩
      rfl
  | answer i a =>
      simp only [act] at h
      split at h
      · split at h
        · cases h
          exact (Stage.env_of_set henv).imp_right fun ⟨_, he⟩ => by cases he
        · cases h
      · cases h
  | world f hf =>
      obtain ⟨x, -, rfl⟩ := Option.map_eq_some_iff.mp h
      exact .inl henv

/-- What `BEGIN` fixed for an open transaction stands in the script. -/
theorem env_of_play {script : List (Action M)} (h : play M script S = some S') {j : Nat} {env : η}
    (henv : (S'.thread j).env? = some env) :
    (S.thread j).env? = some env ∨ .advance j env ∈ script := by
  induction script generalizing S with
  | nil => cases h; exact .inl henv
  | cons a script ih =>
      obtain ⟨S₁, h₁, h⟩ := Option.bind_eq_some_iff.mp h
      rcases ih h with hin | hmem
      · refine (Action.env_of_act h₁ hin).imp_right ?_
        rintro rfl
        exact List.mem_cons_self
      · exact .inr (List.mem_cons_of_mem _ hmem)

end Scripts

end Concurrency
