import CostEngine.Concurrency.Semantics

/-!
# Reasoning about one transaction at a time

Statements of different transactions interleave, but a row that is locked cannot change
under the one who locked it. A `Discipline` says what each lock guards (`same`) and what
can only grow (`le`), and from then on a transaction may be looked at from the state in
which it ends: every statement ran in an *earlier* state that agrees with the final one
on everything locked by then. That is the relation `Exec`.

`Call.Good` is the matching predicate on request handlers: whatever the other threads do
in between, every transaction of the handler obeys the discipline.
-/

namespace Concurrency

variable {σ κ ω ε η τ μ Q χ ρ β α γ : Type} {Res : τ → Type} {Ans : Q → Type}

/-- What a proof assumes of the other threads. `Inv` holds between steps, `le` relates a
state to the later ones, and `same l` says that the rows guarded by the lock `l` are the
same in two stores. -/
structure Discipline (M : Machine σ κ ω ε η τ Res μ Q Ans χ ρ β) where
  Inv : Global σ χ → Prop
  le : Global σ χ → Global σ χ → Prop
  same : κ → σ → σ → Prop
  le_refl : ∀ g, le g g
  le_trans : ∀ {g g' g''}, le g g' → le g' g'' → le g g''
  same_refl : ∀ l s, same l s s
  same_trans : ∀ {l s s' s''}, same l s s' → same l s' s'' → same l s s''
  world_step : ∀ {g : Global σ χ} {x}, Inv g → M.worldStep g.world x →
    Inv { g with world := x } ∧ le g { g with world := x }
  config_step : ∀ {g : Global σ χ} {L s}, Inv g → M.configStep g.db L s →
    Inv { g with db := s } ∧ le g { g with db := s } ∧
      ∀ l, (∀ m ∈ L, ¬ M.conflict m l) → same l g.db s

namespace Discipline

variable {M : Machine σ κ ω ε η τ Res μ Q Ans χ ρ β} (D : Discipline M)

/-! ### Later states -/

/-- `g'` may follow `g` while the locks `L` are held throughout. -/
structure Later (L : List κ) (g g' : Global σ χ) : Prop where
  le : D.le g g'
  inv : D.Inv g'
  same : ∀ l ∈ L, D.same l g.db g'.db

variable {D} {L L' : List κ} {g g' g'' : Global σ χ}

theorem Later.refl (h : D.Inv g) : D.Later L g g :=
  ⟨D.le_refl g, h, fun l _ => D.same_refl l g.db⟩

theorem Later.trans (h : D.Later L g g') (h' : D.Later L g' g'') : D.Later L g g'' :=
  ⟨D.le_trans h.le h'.le, h'.inv, fun l hl => D.same_trans (h.same l hl) (h'.same l hl)⟩

theorem Later.mono (h : D.Later L g g') (hL : ∀ l ∈ L', l ∈ L) : D.Later L' g g' :=
  ⟨h.le, h.inv, fun l hl => h.same l (hL l hl)⟩

theorem Later.unlocked (h : D.Later L g g') : D.Later [] g g' := h.mono (by simp)

end Discipline

/-! ## How a transaction ended -/

/-- The end of a transaction: the states its reads saw, the state its last statement
ran in, what it returned, and the locks and changes it ended with. -/
structure Outcome (σ κ ω ε χ α : Type) where
  seen : List (Global σ χ)
  last : Global σ χ
  result : Except ε α
  locks : List κ
  writes : List ω

/-- The outcome of a transaction whose first statements saw `seen`. -/
def Outcome.after (seen : List (Global σ χ)) (o : Outcome σ κ ω ε χ α) :
    Outcome σ κ ω ε χ α := { o with seen := seen ++ o.seen }

/-! ### Ends of a transaction -/

/-- `D.Exec g fl L ws p o`: the statements `p`, run with the locks `L` and the changes
`ws` so far, end as `o` says in the state `g`. `fl` is the state of the statement before;
each statement runs no earlier than that, in a state that the final one agrees with on
every lock held. -/
def Discipline.Exec {M : Machine σ κ ω ε η τ Res μ Q Ans χ ρ β} (D : Discipline M)
    (g : Global σ χ) : Global σ χ → List κ → List ω → Txn σ κ ω ε α →
    Outcome σ κ ω ε χ α → Prop
  | fl, L, ws, .pure a, o => o = ⟨[], fl, .ok a, L, ws⟩
  | fl, L, ws, .throw e, o => o = ⟨[], fl, .error e, L, ws⟩
  | fl, L, ws, .read k, o => ∃ g₁ o', D.le fl g₁ ∧ D.Inv g₁ ∧ D.Later L g₁ g ∧
      D.Exec g g₁ L ws (k (M.view g₁.db ws)) o' ∧ o = { o' with seen := g₁ :: o'.seen }
  | fl, L, ws, .acquire l k, o => ∃ g₁, D.le fl g₁ ∧ D.Later (l :: L) g₁ g ∧
      D.Exec g g₁ (l :: L) ws k o
  | fl, L, ws, .write u k, o => D.Exec g fl L (ws ++ [u]) k o

namespace Discipline

variable {M : Machine σ κ ω ε η τ Res μ Q Ans χ ρ β} {D : Discipline M}
variable {g fl : Global σ χ} {L : List κ} {ws : List ω}

/-! ### Sequences -/

/-- A sequence of statements ends where its second half ends, or fails in its first. -/
theorem exec_bind {p : Txn σ κ ω ε α} {f : α → Txn σ κ ω ε γ}
    {o : Outcome σ κ ω ε χ γ} (h : D.Exec g fl L ws (p.bind f) o) :
    (∃ o₁ e, D.Exec g fl L ws p o₁ ∧ o₁.result = .error e ∧
      o = ⟨o₁.seen, o₁.last, .error e, o₁.locks, o₁.writes⟩) ∨
    ∃ o₁ a o₂, D.Exec g fl L ws p o₁ ∧ o₁.result = .ok a ∧
      D.Exec g o₁.last o₁.locks o₁.writes (f a) o₂ ∧ o = o₂.after o₁.seen := by
  induction p generalizing fl L ws o with
  | pure a => exact .inr ⟨_, a, o, rfl, rfl, h, rfl⟩
  | throw e => exact .inl ⟨_, e, rfl, rfl, h⟩
  | read k ih =>
      obtain ⟨g₁, o', hfl, hinv, hl, hk, rfl⟩ := h
      rcases ih _ hk with ⟨o₁, e, h₁, he, rfl⟩ | ⟨o₁, a, o₂, h₁, ha, h₂, rfl⟩
      · exact .inl ⟨_, e, ⟨g₁, o₁, hfl, hinv, hl, h₁, rfl⟩, he, rfl⟩
      · exact .inr ⟨_, a, o₂, ⟨g₁, o₁, hfl, hinv, hl, h₁, rfl⟩, ha, h₂, rfl⟩
  | acquire l k ih =>
      obtain ⟨g₁, hfl, hl, hk⟩ := h
      rcases ih hk with ⟨o₁, e, h₁, he, ho⟩ | ⟨o₁, a, o₂, h₁, ha, h₂, rfl⟩
      · exact .inl ⟨o₁, e, ⟨g₁, hfl, hl, h₁⟩, he, ho⟩
      · exact .inr ⟨o₁, a, o₂, ⟨g₁, hfl, hl, h₁⟩, ha, h₂, rfl⟩
  | write u k ih => exact ih h

/-- A transaction changes only what its statements may change. -/
theorem exec_writes {p : Txn σ κ ω ε α} {o : Outcome σ κ ω ε χ α} {P : ω → Prop}
    (h : D.Exec g fl L ws p o) (hp : p.Writes P) (hws : ∀ u ∈ ws, P u) :
    ∀ u ∈ o.writes, P u := by
  induction p generalizing fl L ws o with
  | pure a => cases h; exact hws
  | throw e => cases h; exact hws
  | read k ih =>
      obtain ⟨g₁, o', -, -, -, hk, rfl⟩ := h
      have := ih _ hk (hp _) hws
      exact this
  | acquire l k ih =>
      obtain ⟨g₁, -, -, hk⟩ := h
      exact ih hk hp hws
  | write u k ih =>
      refine ih h hp.2 fun w hw => ?_
      rcases List.mem_append.mp hw with hw | hw
      · exact hws w hw
      · rw [List.mem_singleton.mp hw]
        exact hp.1

end Discipline

/-! ## Weakest preconditions

One rule for each kind of statement. A statement under a lock returns what it would
return in the final state `g`; a plain read returns what it found in some earlier state
`g₁`, of which the rule says how it is related to `g`. -/

/-- However the statements `p` end, `Q` holds of the end. -/
def Discipline.Wp {M : Machine σ κ ω ε η τ Res μ Q Ans χ ρ β} (D : Discipline M)
    (g fl : Global σ χ) (L : List κ) (ws : List ω) (p : Txn σ κ ω ε α)
    (post : Outcome σ κ ω ε χ α → Prop) : Prop :=
  ∀ o, D.Exec g fl L ws p o → post o

/-- The statements so far ended as `o`; what follows them is `f`. -/
def Discipline.Continues {M : Machine σ κ ω ε η τ Res μ Q Ans χ ρ β} (D : Discipline M)
    (g : Global σ χ) (f : α → Txn σ κ ω ε γ) (post : Outcome σ κ ω ε χ γ → Prop)
    (o : Outcome σ κ ω ε χ α) : Prop :=
  match o.result with
  | .ok a => D.Wp g o.last o.locks o.writes (f a) fun o' => post (o'.after o.seen)
  | .error e => post ⟨o.seen, o.last, .error e, o.locks, o.writes⟩

namespace Discipline

variable {M : Machine σ κ ω ε η τ Res μ Q Ans χ ρ β} {D : Discipline M}
variable {g fl last : Global σ χ} {L : List κ} {ws : List ω} {seen : List (Global σ χ)}

/-! ### The rules -/

@[simp] theorem continues_ok {f : α → Txn σ κ ω ε γ} {post : Outcome σ κ ω ε χ γ → Prop}
    {a : α} : D.Continues g f post ⟨seen, last, .ok a, L, ws⟩ ↔
      D.Wp g last L ws (f a) fun o => post (o.after seen) := Iff.rfl

@[simp] theorem continues_error {f : α → Txn σ κ ω ε γ}
    {post : Outcome σ κ ω ε χ γ → Prop} {e : ε} :
    D.Continues g f post ⟨seen, last, .error e, L, ws⟩ ↔
      post ⟨seen, last, .error e, L, ws⟩ := Iff.rfl

theorem wp_pure {a : α} {post : Outcome σ κ ω ε χ α → Prop}
    (h : post ⟨[], fl, .ok a, L, ws⟩) : D.Wp g fl L ws (.pure a) post := by
  intro o ho
  rwa [show o = _ from ho]

theorem wp_throw {e : ε} {post : Outcome σ κ ω ε χ α → Prop}
    (h : post ⟨[], fl, .error e, L, ws⟩) : D.Wp g fl L ws (.throw e) post := by
  intro o ho
  rwa [show o = _ from ho]

theorem wp_bind {p : Txn σ κ ω ε α} {f : α → Txn σ κ ω ε γ}
    {post : Outcome σ κ ω ε χ γ → Prop} (h : D.Wp g fl L ws p (D.Continues g f post)) :
    D.Wp g fl L ws (p >>= f) post := by
  intro o ho
  rcases exec_bind ho with ⟨o₁, e, h₁, he, rfl⟩ | ⟨o₁, a, o₂, h₁, ha, h₂, rfl⟩
  · have := h o₁ h₁
    rwa [Continues, he] at this
  · have := h o₁ h₁
    rw [Continues, ha] at this
    exact this o₂ h₂

theorem wp_mono {p : Txn σ κ ω ε α} {post post' : Outcome σ κ ω ε χ α → Prop}
    (h : D.Wp g fl L ws p post) (hpost : ∀ o, post o → post' o) :
    D.Wp g fl L ws p post' := fun o ho => hpost o (h o ho)

theorem wp_select {f : σ → α} {post : Outcome σ κ ω ε χ α → Prop}
    (h : ∀ g₁, D.le fl g₁ → D.Inv g₁ → D.Later L g₁ g →
      post ⟨[g₁], g₁, .ok (f (M.view g₁.db ws)), L, ws⟩) :
    D.Wp g fl L ws (.select f) post := by
  rintro o ⟨g₁, o', hfl, hinv, hl, rfl, rfl⟩
  exact h g₁ hfl hinv hl

theorem wp_lock {l : κ} {post : Outcome σ κ ω ε χ Unit → Prop}
    (h : ∀ g₁, D.le fl g₁ → D.Later (l :: L) g₁ g → post ⟨[], g₁, .ok (), l :: L, ws⟩) :
    D.Wp g fl L ws (.lock l) post := by
  rintro o ⟨g₁, hfl, hl, rfl⟩
  exact h g₁ hfl hl

theorem wp_change {u : ω} {post : Outcome σ κ ω ε χ Unit → Prop}
    (h : post ⟨[], fl, .ok (), L, ws ++ [u]⟩) : D.Wp g fl L ws (.change u) post := by
  intro o ho
  rwa [show o = _ from ho]

/-! ### Compound statements -/

theorem wp_selectForUpdate {l : κ} {find : σ → Option α}
    {post : Outcome σ κ ω ε χ (Option α) → Prop}
    (hfind : ∀ g₁, D.Later (l :: L) g₁ g →
      find (M.view g₁.db ws) = find (M.view g.db ws))
    (hnone : ∀ g₁, D.le fl g₁ → D.Inv g₁ → D.Later L g₁ g → find (M.view g₁.db ws) = none →
      post ⟨[g₁], g₁, .ok none, L, ws⟩)
    (hlock : ∀ g₁ row last, D.le fl g₁ → find (M.view g₁.db ws) = some row → D.le g₁ last →
      D.Later (l :: L) last g →
      post ⟨[g₁, last], last, .ok (find (M.view g.db ws)), l :: L, ws⟩) :
    D.Wp g fl L ws (.selectForUpdate l find) post := by
  rintro o ⟨g₁, o₁, hfl, hinv, hl, h, rfl⟩
  dsimp only at h
  cases hrow : find (M.view g₁.db ws) with
  | none =>
      rw [hrow] at h
      cases h
      exact hnone g₁ hfl hinv hl hrow
  | some row =>
      rw [hrow] at h
      obtain ⟨g₂, hle, hl₂, g₃, o₃, hle₃, -, hl₃, rfl, rfl⟩ := h
      rw [hfind g₃ hl₃]
      exact hlock g₁ row g₃ hfl hrow (D.le_trans hle hle₃) hl₃

/-- The joined columns `x` come from the state `g₁` of the statement's own snapshot. -/
theorem wp_selectJoinForUpdate {l : κ} {joined : σ → Option γ}
    {find : γ → σ → Option α} {post : Outcome σ κ ω ε χ (Option α) → Prop}
    (hfind : ∀ x g₁, D.Later (l :: L) g₁ g →
      find x (M.view g₁.db ws) = find x (M.view g.db ws))
    (hnone : ∀ g₁, D.le fl g₁ → D.Inv g₁ → D.Later L g₁ g →
      joined (M.view g₁.db ws) = none → post ⟨[g₁], g₁, .ok none, L, ws⟩)
    (hlock : ∀ g₁ x last, D.le fl g₁ → D.Inv g₁ → D.Later L g₁ g →
      joined (M.view g₁.db ws) = some x → D.le g₁ last → D.Later (l :: L) last g →
      post ⟨[g₁, last], last, .ok (find x (M.view g.db ws)), l :: L, ws⟩) :
    D.Wp g fl L ws (.selectJoinForUpdate l joined find) post := by
  rintro o ⟨g₁, o₁, hfl, hinv, hl, h, rfl⟩
  dsimp only at h
  cases hrow : joined (M.view g₁.db ws) with
  | none =>
      rw [hrow] at h
      cases h
      exact hnone g₁ hfl hinv hl hrow
  | some x =>
      rw [hrow] at h
      obtain ⟨g₂, hle, hl₂, g₃, o₃, hle₃, -, hl₃, rfl, rfl⟩ := h
      rw [hfind x g₃ hl₃]
      exact hlock g₁ x g₃ hfl hinv hl hrow (D.le_trans hle hle₃) hl₃

theorem wp_updateReturning {l : κ} {find : σ → Option α} {image : α → ω}
    {post : Outcome σ κ ω ε χ (Option α) → Prop}
    (hfind : ∀ g₁, D.Later (l :: L) g₁ g →
      find (M.view g₁.db ws) = find (M.view g.db ws))
    (hnone : ∀ g₁, D.le fl g₁ → D.Inv g₁ → D.Later L g₁ g → find (M.view g₁.db ws) = none →
      post ⟨[g₁], g₁, .ok none, L, ws⟩)
    (hgone : ∀ seen last, D.le fl last → D.Later (l :: L) last g →
      find (M.view g.db ws) = none → post ⟨seen, last, .ok none, l :: L, ws⟩)
    (hlock : ∀ seen last row, D.le fl last → D.Later (l :: L) last g →
      find (M.view g.db ws) = some row →
      post ⟨seen, last, .ok (some row), l :: L, ws ++ [image row]⟩) :
    D.Wp g fl L ws (.updateReturning l find image) post := by
  rintro o ⟨g₁, o₁, hfl, hinv, hl, h, rfl⟩
  dsimp only at h
  cases hrow : find (M.view g₁.db ws) with
  | none =>
      rw [hrow] at h
      cases h
      exact hnone g₁ hfl hinv hl hrow
  | some row =>
      rw [hrow] at h
      obtain ⟨g₂, hle, hl₂, g₃, o₃, hle₃, -, hl₃, h, rfl⟩ := h
      have hle : D.le fl g₃ := D.le_trans hfl (D.le_trans hle hle₃)
      dsimp only at h
      rw [hfind g₃ hl₃] at h
      cases hrow' : find (M.view g.db ws) with
      | none =>
          rw [hrow'] at h
          cases h
          exact hgone _ g₃ hle hl₃ hrow'
      | some row' =>
          rw [hrow'] at h
          cases h
          exact hlock _ g₃ row' hle hl₃ hrow'

theorem wp_insertRow {l : κ} {violation : σ → Option ε} {u : ω}
    {post : Outcome σ κ ω ε χ Unit → Prop}
    (hviol : ∀ e g₁, D.le fl g₁ → D.Inv g₁ → D.Later (l :: L) g₁ g →
      violation (M.view g₁.db ws) = some e → post ⟨[g₁], g₁, .error e, l :: L, ws⟩)
    (hok : ∀ g₁, D.le fl g₁ → D.Inv g₁ → D.Later (l :: L) g₁ g →
      violation (M.view g₁.db ws) = none →
      post ⟨[g₁], g₁, .ok (), l :: L, ws ++ [u]⟩) :
    D.Wp g fl L ws (.insertRow l violation u) post := by
  rintro o ⟨g₁, hfl, hl, g₂, o₂, hle₂, hinv₂, hl₂, h, rfl⟩
  have hle : D.le fl g₂ := D.le_trans hfl hle₂
  dsimp only at h
  cases hv : violation (M.view g₂.db ws) with
  | none =>
      rw [hv] at h
      cases h
      exact hok g₂ hle hinv₂ hl₂ hv
  | some e =>
      rw [hv] at h
      cases h
      exact hviol e g₂ hle hinv₂ hl₂ hv

end Discipline

/-! ## Request handlers -/

section Handlers

variable {M : Machine σ κ ω ε η τ Res μ Q Ans χ ρ β} (D : Discipline M)
variable (Spec : (t : τ) → η → Outcome σ κ ω ε χ (Res t) → Global σ χ → Prop)
variable (Sent : μ → Global σ χ → Prop)

/-- The transaction `t`, ending as `o` in the state `g`, does what `Spec` says; and when
it commits, the invariant survives, the state only grows and nothing changes that
someone else may have locked. -/
structure Ends (t : τ) (env : η) (o : Outcome σ κ ω ε χ (Res t)) (g : Global σ χ) :
    Prop where
  spec : Spec t env o g
  inv : ∀ r, o.result = .ok r → D.Inv (M.commit g o.writes)
  le : ∀ r, o.result = .ok r → D.le g (M.commit g o.writes)
  same : ∀ r, o.result = .ok r → ∀ l, M.Free l o.locks →
    D.same l g.db (M.view g.db o.writes)

/-- The shared state after a transaction that ended as `o` in `g`. -/
def Machine.after (M : Machine σ κ ω ε η τ Res μ Q Ans χ ρ β)
    (o : Outcome σ κ ω ε χ α) (g : Global σ χ) : Global σ χ :=
  match o.result with
  | .ok _ => M.commit g o.writes
  | .error _ => g

/-- The handler `c`, continued from `g` with any steps of other threads in between, runs
only transactions that end as they should, sends only messages it may send, and returns
what `Post` allows after what the call has done by then. -/
def Call.Good (Post : List (Event ε τ Res μ Q Ans) → Except ε α → Global σ χ → Prop) :
    List (Event ε τ Res μ Q Ans) → Call σ ε τ Res μ Q Ans α → Global σ χ → Prop
  | log, .ret r, g => Post log r g
  | log, .query k, g => ∀ g', D.Later [] g g' → Call.Good Post log (k g'.db) g'
  | log, .txn t k, g => ∀ g₀ g' env o, D.Later [] g g₀ → M.begins g₀.world env →
      D.Later [] g₀ g' → D.Exec g' g₀ [] [] (M.body t env) o →
      Ends D Spec t env o g' ∧
        Call.Good Post (log ++ [.ended t o.result]) (k o.result) (M.after o g')
  | log, .send m c, g => ∀ g', D.Later [] g g' → Sent m g' ∧
      D.Later [] g' { g' with world := M.sends m g'.world } ∧
      Call.Good Post (log ++ [.sent m]) c { g' with world := M.sends m g'.world }
  | log, .await q k, g => ∀ g' a, D.Later [] g g' → M.answers q g'.world a →
      Call.Good Post (log ++ [.answered q a]) (k a) g'

variable {D Spec Sent} {log : List (Event ε τ Res μ Q Ans)}

/-! ### Rules for handlers -/

theorem Call.Good.mono {Post : List (Event ε τ Res μ Q Ans) → Except ε α → Global σ χ → Prop}
    (hPost : ∀ log r g g', Post log r g → D.Later [] g g' → Post log r g')
    {c : Call σ ε τ Res μ Q Ans α} {g g' : Global σ χ}
    (h : Call.Good D Spec Sent Post log c g) (hg : D.Later [] g g') :
    Call.Good D Spec Sent Post log c g' := by
  cases c with
  | ret r => exact hPost log r g g' h hg
  | query k => exact fun g₁ h₁ => h g₁ (hg.trans h₁)
  | txn t k => exact fun g₀ g₁ env o h₀ hb h₁ hx => h g₀ g₁ env o (hg.trans h₀) hb h₁ hx
  | send m c => exact fun g₁ h₁ => h g₁ (hg.trans h₁)
  | await q k => exact fun g₁ a h₁ => h g₁ a (hg.trans h₁)

/-- A weaker postcondition. -/
theorem Call.Good.weaken
    {Post Post' : List (Event ε τ Res μ Q Ans) → Except ε α → Global σ χ → Prop}
    {c : Call σ ε τ Res μ Q Ans α} {g : Global σ χ} (h : Call.Good D Spec Sent Post log c g)
    (hPost : ∀ log r g, Post log r g → Post' log r g) :
    Call.Good D Spec Sent Post' log c g := by
  induction c generalizing g log with
  | ret r => exact hPost log r g h
  | query k ih => exact fun g₁ h₁ => ih _ (h g₁ h₁)
  | txn t k ih =>
      intro g₀ g₁ env o h₀ hb h₁ hx
      obtain ⟨he, hk⟩ := h g₀ g₁ env o h₀ hb h₁ hx
      exact ⟨he, ih _ hk⟩
  | send m c ih =>
      intro g₁ h₁
      obtain ⟨hs, hl, hc⟩ := h g₁ h₁
      exact ⟨hs, hl, ih hc⟩
  | await q k ih => exact fun g₁ a h₁ ha => ih a (h g₁ a h₁ ha)

theorem Call.Good.bind
    {Post : List (Event ε τ Res μ Q Ans) → Except ε γ → Global σ χ → Prop}
    {c : Call σ ε τ Res μ Q Ans α} {f : α → Call σ ε τ Res μ Q Ans γ} {g : Global σ χ}
    (h : Call.Good D Spec Sent (fun log r g => match r with
      | .ok a => Call.Good D Spec Sent Post log (f a) g
      | .error e => Post log (.error e) g) log c g) :
    Call.Good D Spec Sent Post log (c.bind f) g := by
  induction c generalizing g log with
  | ret r =>
      cases r with
      | ok a => exact h
      | error e => exact h
  | query k ih => exact fun g₁ h₁ => ih _ (h g₁ h₁)
  | txn t k ih =>
      intro g₀ g₁ env o h₀ hb h₁ hx
      obtain ⟨he, hk⟩ := h g₀ g₁ env o h₀ hb h₁ hx
      exact ⟨he, ih _ hk⟩
  | send m c ih =>
      intro g₁ h₁
      obtain ⟨hs, hl, hc⟩ := h g₁ h₁
      exact ⟨hs, hl, ih hc⟩
  | await q k ih => exact fun g₁ a h₁ ha => ih a (h g₁ a h₁ ha)

theorem Call.Good.tryCatch
    {Post : List (Event ε τ Res μ Q Ans) → Except ε α → Global σ χ → Prop}
    {c : Call σ ε τ Res μ Q Ans α} {f : ε → Call σ ε τ Res μ Q Ans α} {g : Global σ χ}
    (h : Call.Good D Spec Sent (fun log r g => match r with
      | .ok a => Post log (.ok a) g
      | .error e => Call.Good D Spec Sent Post log (f e) g) log c g) :
    Call.Good D Spec Sent Post log (c.tryCatch f) g := by
  induction c generalizing g log with
  | ret r =>
      cases r with
      | ok a => exact h
      | error e => exact h
  | query k ih => exact fun g₁ h₁ => ih _ (h g₁ h₁)
  | txn t k ih =>
      intro g₀ g₁ env o h₀ hb h₁ hx
      obtain ⟨he, hk⟩ := h g₀ g₁ env o h₀ hb h₁ hx
      exact ⟨he, ih _ hk⟩
  | send m c ih =>
      intro g₁ h₁
      obtain ⟨hs, hl, hc⟩ := h g₁ h₁
      exact ⟨hs, hl, ih hc⟩
  | await q k ih => exact fun g₁ a h₁ ha => ih a (h g₁ a h₁ ha)

end Handlers

end Concurrency
