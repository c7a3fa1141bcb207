import Mathlib.Logic.Relation
import Mathlib.Order.Basic
import CostEngine.Concurrency.Executions

/-!
# Waiting for locks

A thread waits for another when its next statement asks for a lock that conflicts with one
the other holds, and a deadlock is a circle of such threads. `Discipline.Locks` is a
precondition for the order in which a transaction takes its locks: every lock it asks for is
one that `P` allows after those it holds. It needs no step of other threads, and holds at
every moment of the transaction (`Safe.chain`). A measure that grows along every wait then
excludes deadlocks (`not_deadlock`).
-/

namespace Concurrency

variable {σ κ ω ε η τ μ Q χ ρ β α γ : Type} {Res : τ → Type} {Ans : Q → Type}
variable {M : Machine σ κ ω ε η τ Res μ Q Ans χ ρ β} {D : Discipline M}

/-! ## Waits -/

/-- The lock that the next statement of a thread asks for. -/
def Thread.request : Thread σ κ ω ε η τ Res μ Q Ans χ ρ β → Option κ
  | .inTxn _ _ _ _ ⟨_, _, _, _, .acquire l _⟩ => some l
  | _ => none

/-- Thread `i` asks for a lock that conflicts with one that thread `j` holds. -/
def Machine.Waits (M : Machine σ κ ω ε η τ Res μ Q Ans χ ρ β)
    (st : State σ κ ω ε η τ Res μ Q Ans χ ρ β) (i j : Nat) : Prop :=
  i ≠ j ∧ ∃ l, (st.threads i).request = some l ∧ ∃ m ∈ (st.threads j).locks, M.conflict l m

instance [DecidableRel M.conflict] (st : State σ κ ω ε η τ Res μ Q Ans χ ρ β) (i j : Nat) :
    Decidable (M.Waits st i j) :=
  inferInstanceAs (Decidable (i ≠ j ∧ ∃ l, (st.threads i).request = some l
    ∧ ∃ m ∈ (st.threads j).locks, M.conflict l m))

/-- A circle of threads each of which waits for the next. -/
def Machine.Deadlock (M : Machine σ κ ω ε η τ Res μ Q Ans χ ρ β)
    (st : State σ κ ω ε η τ Res μ Q Ans χ ρ β) : Prop :=
  ∃ i, Relation.TransGen (M.Waits st) i i

/-- Only an open transaction asks for a lock. -/
theorem Thread.of_request {th : Thread σ κ ω ε η τ Res μ Q Ans χ ρ β} {l : κ}
    (h : th.request = some l) : ∃ req log t k, ∃ a : Active σ κ ω ε η χ (Res t), ∃ p,
      th = .inTxn req log t k a ∧ a.rest = .acquire l p := by
  cases th with
  | idle => cases h
  | running req log call => cases h
  | inTxn req log t k a =>
      obtain ⟨env, seen, locks, writes, rest⟩ := a
      cases rest with
      | acquire l' p =>
          cases h
          exact ⟨req, log, t, k, _, p, rfl, rfl⟩
      | _ => cases h

/-- Only an open transaction holds one. -/
theorem Thread.of_mem_locks {th : Thread σ κ ω ε η τ Res μ Q Ans χ ρ β} {l : κ}
    (h : l ∈ th.locks) :
    ∃ req log t k, ∃ a : Active σ κ ω ε η χ (Res t), th = .inTxn req log t k a := by
  cases th with
  | idle => cases h
  | running req log call => cases h
  | inTxn req log t k a => exact ⟨req, log, t, k, a, rfl⟩

/-- If a measure of what is asked for and what is held grows along every wait for a thread that
waits itself, nobody is in a circle. -/
theorem not_deadlock {δ : Type} [Preorder δ] {st : State σ κ ω ε η τ Res μ Q Ans χ ρ β}
    (measure : κ → List κ → δ)
    (h : ∀ i j k l l', M.Waits st i j → M.Waits st j k → (st.threads i).request = some l →
      (st.threads j).request = some l' →
      measure l (st.threads i).locks < measure l' (st.threads j).locks) : ¬ M.Deadlock st := by
  -- Induction along the path of waits; its last thread has to wait as well.
  have hchain : ∀ i j, Relation.TransGen (M.Waits st) i j → ∀ k l l', M.Waits st j k →
      (st.threads i).request = some l → (st.threads j).request = some l' →
      measure l (st.threads i).locks < measure l' (st.threads j).locks := by
    intro i j hij
    induction hij with
    | single hw => exact fun k l l' hk hl hl' => h _ _ k l l' hw hk hl hl'
    | tail _ hw ih =>
        intro k l l' hk hl hl'
        obtain ⟨-, l₁, hl₁, -⟩ := id hw
        exact (ih _ l l₁ hw hl hl₁).trans (h _ _ k l₁ l' hw hk hl₁ hl')
  rintro ⟨i, hi⟩
  obtain ⟨j, hij, -⟩ := Relation.TransGen.head'_iff.mp hi
  obtain ⟨-, l, hl, -⟩ := id hij
  exact lt_irrefl _ (hchain i i hi j l l hij hl hl)

/-! ## Chains of locks -/

/-- Every lock of the list, the newest first, is one that `P` allows after those before it. -/
def Chain (P : List κ → κ → Prop) : List κ → Prop
  | [] => True
  | l :: L => P L l ∧ Chain P L

section Chain

variable {P : List κ → κ → Prop} {L K : List κ} {l : κ}

@[simp] theorem chain_nil : Chain P [] := trivial

@[simp] theorem chain_cons : Chain P (l :: L) ↔ P L l ∧ Chain P L := Iff.rfl

/-- The locks that were held earlier are a chain. -/
theorem Chain.of_append (h : Chain P (K ++ L)) : Chain P L := by
  induction K with
  | nil => exact h
  | cons k K ih => exact ih h.2

/-- What each lock keeps of the locks before it holds of all. -/
theorem Chain.all {T : List κ → κ → Prop} (h : Chain P L)
    (hkeep : ∀ {L l m}, T L m → T (l :: L) m)
    (hnew : ∀ L l, P L l → (∀ m ∈ L, T L m) → T (l :: L) l) : ∀ m ∈ L, T L m := by
  induction L with
  | nil => simp
  | cons l L ih =>
      have hL := ih h.2
      intro m hm
      rcases List.mem_cons.mp hm with rfl | hm
      · exact hnew L m h.1 hL
      · exact hkeep (hL m hm)

end Chain

/-! ## The order of the locks of a transaction -/

/-- However the statements `p` go on, every lock they ask for is one that `P` allows, and
what they return satisfies `post`. Reads see states before `g`. -/
def Discipline.Locks {M : Machine σ κ ω ε η τ Res μ Q Ans χ ρ β} (D : Discipline M)
    (g : Global σ χ) (P : List κ → κ → Prop) : List κ → List ω → Txn σ κ ω ε α →
    (List κ → List ω → α → Prop) → Prop
  | L, ws, .pure a, post => post L ws a
  | _, _, .throw _, _ => True
  | L, ws, .read k, post => ∀ g₁, D.Inv g₁ → D.Later L g₁ g →
      D.Locks g P L ws (k (M.view g₁.db ws)) post
  | L, ws, .acquire l k, post => P L l ∧ D.Locks g P (l :: L) ws k post
  | L, ws, .write u k, post => D.Locks g P L (ws ++ [u]) k post

namespace Discipline

variable {g fl : Global σ χ} {P : List κ → κ → Prop} {L : List κ} {ws : List ω}

/-! ### Rules -/

@[simp] theorem locks_throw {e : ε} {post : List κ → List ω → α → Prop} :
    D.Locks g P L ws (.throw e : Txn σ κ ω ε α) post := trivial

/-- What follows is judged under the locks and the changes that `p` ends with. -/
theorem locks_bind {p : Txn σ κ ω ε α} {f : α → Txn σ κ ω ε γ}
    {post : List κ → List ω → γ → Prop}
    (h : D.Locks g P L ws p fun L ws a => D.Locks g P L ws (f a) post) :
    D.Locks g P L ws (p >>= f) post := by
  induction p generalizing L ws with
  | pure a => exact h
  | throw e => trivial
  | read k ih => exact fun g₁ hinv hl => ih _ (h g₁ hinv hl)
  | acquire l k ih => exact ⟨h.1, ih h.2⟩
  | write u k ih => exact ih h

theorem locks_select {f : σ → α} {post : List κ → List ω → α → Prop}
    (h : ∀ g₁, D.Inv g₁ → D.Later L g₁ g → post L ws (f (M.view g₁.db ws))) :
    D.Locks g P L ws (.select f : Txn σ κ ω ε α) post := h

theorem locks_lock {l : κ} {post : List κ → List ω → Unit → Prop} (hl : P L l)
    (h : post (l :: L) ws ()) : D.Locks g P L ws (.lock l : Txn σ κ ω ε Unit) post := ⟨hl, h⟩

theorem locks_selectForUpdate {l : κ} {find : σ → Option α}
    {post : List κ → List ω → Option α → Prop}
    (hnone : post L ws none)
    (hlock : ∀ g₁ row, D.Inv g₁ → D.Later L g₁ g → find (M.view g₁.db ws) = some row →
      P L l ∧ ∀ g₂, D.Inv g₂ → D.Later (l :: L) g₂ g →
        post (l :: L) ws (find (M.view g₂.db ws))) :
    D.Locks g P L ws (.selectForUpdate l find : Txn σ κ ω ε (Option α)) post := by
  intro g₁ hinv hl
  dsimp only
  cases hrow : find (M.view g₁.db ws) with
  | none => exact hnone
  | some row => exact hlock g₁ row hinv hl hrow

theorem locks_selectJoinForUpdate {l : κ} {joined : σ → Option γ}
    {find : γ → σ → Option α} {post : List κ → List ω → Option α → Prop}
    (hnone : post L ws none)
    (hlock : ∀ g₁ x, D.Inv g₁ → D.Later L g₁ g → joined (M.view g₁.db ws) = some x →
      P L l ∧ ∀ g₂, D.Inv g₂ → D.Later (l :: L) g₂ g →
        post (l :: L) ws (find x (M.view g₂.db ws))) :
    D.Locks g P L ws (.selectJoinForUpdate l joined find : Txn σ κ ω ε (Option α)) post := by
  intro g₁ hinv hl
  dsimp only
  cases hrow : joined (M.view g₁.db ws) with
  | none => exact hnone
  | some x => exact hlock g₁ x hinv hl hrow

/-- The row may be gone once it is locked. -/
theorem locks_updateReturning {l : κ} {find : σ → Option α} {image : α → ω}
    {post : List κ → List ω → Option α → Prop}
    (hnone : post L ws none)
    (hlock : ∀ g₁ row, D.Inv g₁ → D.Later L g₁ g → find (M.view g₁.db ws) = some row → P L l)
    (hgone : post (l :: L) ws none)
    (hrow : ∀ row, post (l :: L) (ws ++ [image row]) (some row)) :
    D.Locks g P L ws (.updateReturning l find image : Txn σ κ ω ε (Option α)) post := by
  intro g₁ hinv hl
  dsimp only
  cases hfind : find (M.view g₁.db ws) with
  | none => exact hnone
  | some row =>
      refine ⟨hlock g₁ row hinv hl hfind, fun g₂ _ _ => ?_⟩
      dsimp only
      cases find (M.view g₂.db ws) with
      | none => exact hgone
      | some row' => exact hrow row'

theorem locks_insertRow {l : κ} {violation : σ → Option ε} {u : ω}
    {post : List κ → List ω → Unit → Prop} (hl : P L l) (h : post (l :: L) (ws ++ [u]) ()) :
    D.Locks g P L ws (.insertRow l violation u : Txn σ κ ω ε Unit) post := by
  refine ⟨hl, fun g₁ _ _ => ?_⟩
  dsimp only
  cases violation (M.view g₁.db ws) with
  | none => exact h
  | some e => trivial

/-! ### Soundness -/

/-- The locks that an execution ends with come one after the other as `P` allows. -/
theorem exec_chain {p : Txn σ κ ω ε α} {o : Outcome σ κ ω ε χ α}
    {post : List κ → List ω → α → Prop} (h : D.Exec g fl L ws p o)
    (hp : D.Locks g P L ws p post) (hL : Chain P L) : Chain P o.locks := by
  induction p generalizing fl L ws o with
  | pure a => cases h; exact hL
  | throw e => cases h; exact hL
  | read k ih =>
      obtain ⟨g₁, o', -, hinv, hl, hk, rfl⟩ := h
      exact (ih _ hk (hp g₁ hinv hl) hL :)
  | acquire l k ih =>
      obtain ⟨g₁, -, -, hk⟩ := h
      exact ih hk hp.2 ⟨hp.1, hL⟩
  | write u k ih => exact ih h hp hL

/-- No lock is given back. -/
theorem exec_locks {p : Txn σ κ ω ε α} {o : Outcome σ κ ω ε χ α}
    (h : D.Exec g fl L ws p o) : ∃ K, o.locks = K ++ L := by
  induction p generalizing fl L ws o with
  | pure a => cases h; exact ⟨[], rfl⟩
  | throw e => cases h; exact ⟨[], rfl⟩
  | read k ih =>
      obtain ⟨g₁, o', -, -, -, hk, rfl⟩ := h
      exact (ih _ hk :)
  | acquire l k ih =>
      obtain ⟨g₁, -, -, hk⟩ := h
      obtain ⟨K, hK⟩ := ih hk
      exact ⟨K ++ [l], by rw [hK, List.append_assoc]; rfl⟩
  | write u k ih => exact ih h

end Discipline

/-! ## At every moment of a transaction -/

section Safe

variable {Spec : (t : τ) → η → Outcome σ κ ω ε χ (Res t) → Global σ χ → Prop}
variable {Sent : μ → Global σ χ → Prop}
variable {Post : ρ → List (Event ε τ Res μ Q Ans) → Except ε β → Global σ χ → Prop}
variable {st : State σ κ ω ε η τ Res μ Q Ans χ ρ β} {i : Nat} {req : ρ}
variable {log : List (Event ε τ Res μ Q Ans)} {t : τ}
variable {k : Except ε (Res t) → Call σ ε τ Res μ Q Ans β} {a : Active σ κ ω ε η χ (Res t)}
variable (h : Safe D Spec Sent Post st) (hi : st.threads i = .inTxn req log t k a)
include h hi

/-- An open transaction that were left alone from now on would end as specified, with the
locks it asks for next and those it holds. -/
theorem Safe.completes : ∃ g₀ o, D.Exec st.shared g₀ [] [] (M.body t a.env) o ∧
    Spec t a.env o st.shared ∧ (∃ K, o.locks = K ++ a.locks) ∧
    ∀ l p, a.rest = .acquire l p → ∃ K, o.locks = K ++ l :: a.locks := by
  have hth := h.threads i
  rw [hi] at hth
  obtain ⟨g₀, fl, hinv, h₀, hfl, hb, hc, hx⟩ := hth
  obtain ⟨o, ho⟩ := Discipline.exists_exec h.inv a.rest hfl.le a.locks a.writes
  have hexec := hx st.shared o (.refl h.inv) ho
  obtain ⟨he, -⟩ := hc g₀ st.shared a.env _ (.refl hinv) hb (h₀.trans hfl) hexec
  have hheld := Discipline.exec_locks ho
  refine ⟨g₀, _, hexec, he.spec, hheld, fun l p hr => ?_⟩
  rw [hr] at ho
  obtain ⟨g₁, -, -, hk⟩ := ho
  have hnext := Discipline.exec_locks hk
  exact hnext

/-- **The locks of an open transaction were asked for in order**, and so is the next one. -/
theorem Safe.chain {P : List κ → κ → Prop}
    (hbody : (∃ o, Spec t a.env o st.shared) →
      D.Locks st.shared P [] [] (M.body t a.env) fun _ _ _ => True) :
    Chain P a.locks ∧ ∀ l p, a.rest = .acquire l p → P a.locks l := by
  obtain ⟨g₀, o, hexec, hspec, ⟨K, hK⟩, hnext⟩ := h.completes hi
  have hchain := Discipline.exec_chain hexec (hbody ⟨o, hspec⟩) chain_nil
  refine ⟨Chain.of_append (hK ▸ hchain), fun l p hr => ?_⟩
  obtain ⟨K', hK'⟩ := hnext l p hr
  exact (chain_cons.mp (Chain.of_append (hK' ▸ hchain))).1

end Safe

end Concurrency
