import CostEngine.Concurrency.Executions

/-!
# How often a transaction changes something

A transaction has a budget for the changes that satisfy `P`; what it has changed when it
ends is within the budget.
-/

namespace Concurrency

variable {σ κ ω ε η τ μ Q χ ρ β α γ : Type} {Res : τ → Type} {Ans : Q → Type}

namespace Txn

variable {P : ω → Bool}

/-- On every path at most `n` changes satisfy `P`. -/
def AtMost (P : ω → Bool) : Nat → Txn σ κ ω ε α → Prop
  | _, .pure _      => True
  | _, .throw _     => True
  | n, .read k      => ∀ s, (k s).AtMost P n
  | n, .acquire _ k => k.AtMost P n
  | n, .write u k   => (P u = false ∧ k.AtMost P n) ∨ ∃ m, n = m + 1 ∧ k.AtMost P m

theorem AtMost.mono {p : Txn σ κ ω ε α} {n m : Nat} (hp : p.AtMost P m) (hle : m ≤ n) :
    p.AtMost P n := by
  induction p generalizing n m with
  | pure a => trivial
  | throw e => trivial
  | read k ih => exact fun s => ih s (hp s) hle
  | acquire l k ih => exact ih hp hle
  | write u k ih =>
      rcases hp with ⟨hu, hk⟩ | ⟨m, rfl, hk⟩
      · exact .inl ⟨hu, ih hk hle⟩
      · obtain ⟨n, rfl⟩ : ∃ n', n = n' + 1 := ⟨n - 1, by omega⟩
        exact .inr ⟨n, rfl, ih hk (by omega)⟩

theorem atMost_of_writes {p : Txn σ κ ω ε α} (hp : p.Writes fun u => P u = false) {n : Nat} :
    p.AtMost P n := by
  induction p with
  | pure a => trivial
  | throw e => trivial
  | read k ih => exact fun s => ih s (hp s)
  | acquire l k ih => exact ih hp
  | write u k ih => exact .inl ⟨hp.1, ih hp.2⟩

theorem atMost_bind {p : Txn σ κ ω ε α} {f : α → Txn σ κ ω ε γ} {n m : Nat}
    (hp : p.AtMost P n) (hf : ∀ a, (f a).AtMost P m) : (p >>= f).AtMost P (n + m) := by
  induction p generalizing n with
  | pure a => exact (hf a).mono (Nat.le_add_left _ _)
  | throw e => trivial
  | read k ih => exact fun s => ih s (hp s)
  | acquire l k ih => exact ih hp
  | write u k ih =>
      rcases hp with ⟨hu, hk⟩ | ⟨n, rfl, hk⟩
      · exact .inl ⟨hu, ih hk⟩
      · exact .inr ⟨n + m, by omega, ih hk⟩

/-- The first statements do not count. -/
theorem atMost_after {p : Txn σ κ ω ε α} {f : α → Txn σ κ ω ε γ} {n : Nat}
    (hp : p.Writes fun u => P u = false) (hf : ∀ a, (f a).AtMost P n) :
    (p >>= f).AtMost P n := by
  have h := atMost_bind (n := 0) (atMost_of_writes hp) hf
  rwa [Nat.zero_add] at h

/-- The last statements do not count. -/
theorem atMost_before {p : Txn σ κ ω ε α} {f : α → Txn σ κ ω ε γ} {n : Nat}
    (hp : p.AtMost P n) (hf : ∀ a, (f a).Writes fun u => P u = false) :
    (p >>= f).AtMost P n :=
  atMost_bind (m := 0) hp fun a => atMost_of_writes (hf a)

theorem atMost_updateReturning {l : κ} {find : σ → Option α} {image : α → ω} :
    (updateReturning l find image : Txn σ κ ω ε (Option α)).AtMost P 1 := by
  intro s
  dsimp only
  split
  · trivial
  · intro s'
    dsimp only
    split
    · trivial
    · exact .inr ⟨0, rfl, trivial⟩

end Txn

namespace Discipline

variable {M : Machine σ κ ω ε η τ Res μ Q Ans χ ρ β} {D : Discipline M}
variable {g fl : Global σ χ} {L : List κ} {ws : List ω} {P : ω → Bool}

theorem exec_atMost {p : Txn σ κ ω ε α} {o : Outcome σ κ ω ε χ α} {n : Nat}
    (h : D.Exec g fl L ws p o) (hp : p.AtMost P n) :
    o.writes.countP P ≤ ws.countP P + n := by
  induction p generalizing fl L ws o n with
  | pure a => cases h; exact Nat.le_add_right _ _
  | throw e => cases h; exact Nat.le_add_right _ _
  | read k ih =>
      obtain ⟨g₁, o', -, -, -, hk, rfl⟩ := h
      have := ih _ hk (hp _)
      exact this
  | acquire l k ih =>
      obtain ⟨g₁, -, -, hk⟩ := h
      exact ih hk hp
  | write u k ih =>
      rcases hp with ⟨hu, hk⟩ | ⟨n, rfl, hk⟩
      · have := ih h hk
        rw [List.countP_append, List.countP_singleton, hu] at this
        simpa using this
      · have := ih h hk
        rw [List.countP_append, List.countP_singleton] at this
        split at this <;> omega

end Discipline

end Concurrency
