import Mathlib.Data.List.Forall2
import Mathlib.Data.List.Nodup

/-!
# Rewriting a table row by row, under checks

What a schema migration does to a table is `rewrite f`: every row goes through `f`, in
order, and the first check that fails stops it. The checks are `raiseFirst` (a list of
queries that must find nothing), `present` (a value that must not be NULL) and `require`
(a condition, such as that a unique index can be built).

A rewriting that succeeds has related the rows one by one (`rewrite_eq_ok`), so it is undone
by the rewriting that undoes each row (`rewrite_undone`), a lookup before it agrees with the
lookup after it (`rewrite_find`), and it keeps every column that each row keeps
(`rewrite_map`).
-/

namespace Relational

variable {ε ε' α β γ κ : Type}

/-! ## Checks -/

/-- The first query that finds a row raises. -/
def raiseFirst : List (Bool × ε) → Except ε Unit
  | [] => .ok ()
  | (found, error) :: queries => if found then .error error else raiseFirst queries

def present (error : ε) : Option α → Except ε α
  | some a => .ok a
  | none => .error error

def require (error : ε) (p : Prop) [Decidable p] : Except ε Unit :=
  if p then .ok () else .error error

/-- `GROUP BY key HAVING COUNT(*) > 1` finds a row. -/
def repeats [DecidableEq κ] (key : α → κ) (rows : List α) : Bool :=
  rows.any fun a => 1 < (rows.filter fun b => key b = key a).length

@[simp] theorem bind_eq_ok {x : Except ε α} {f : α → Except ε β} {b : β} :
    (x >>= f) = .ok b ↔ ∃ a, x = .ok a ∧ f a = .ok b := by
  cases x with
  | error e =>
      constructor
      · intro h
        cases h
      · rintro ⟨_, h, _⟩
        cases h
  | ok a =>
      constructor
      · intro h
        exact ⟨a, rfl, h⟩
      · rintro ⟨_, h, hf⟩
        cases h
        exact hf

@[simp] theorem ok_bind {a : α} {f : α → Except ε β} : (.ok a >>= f) = f a := rfl

@[simp] theorem error_bind {e : ε} {f : α → Except ε β} : (.error e >>= f) = .error e := rfl

@[simp] theorem pure_eq_ok {a b : α} : (pure a : Except ε α) = .ok b ↔ a = b :=
  ⟨fun h => by cases h; rfl, fun h => by rw [h]; rfl⟩

/-- What a check hands on is nothing. -/
@[simp] theorem exists_checked {p : Unit → Prop} : (∃ checked, p checked) ↔ p () :=
  ⟨fun h => h.elim fun _ hp => hp, fun hp => ⟨(), hp⟩⟩

@[simp] theorem raiseFirst_eq_ok {queries : List (Bool × ε)} :
    raiseFirst queries = .ok () ↔ ∀ query ∈ queries, query.1 = false := by
  induction queries with
  | nil => simp [raiseFirst]
  | cons query queries ih =>
      obtain ⟨found, error⟩ := query
      cases found
      · simpa [raiseFirst] using ih
      · simp [raiseFirst]

@[simp] theorem present_eq_ok {error : ε} {o : Option α} {a : α} :
    present error o = .ok a ↔ o = some a := by
  cases o <;> simp [present]

@[simp] theorem require_eq_ok {error : ε} {p : Prop} [Decidable p] :
    require error p = .ok () ↔ p := by
  unfold require
  split <;> simp [*]

theorem require_of {error : ε} {p : Prop} [Decidable p] (h : p) : require error p = .ok () :=
  require_eq_ok.mpr h

/-- No group has two rows exactly when the key is unique. -/
@[simp] theorem repeats_eq_false [DecidableEq κ] {key : α → κ} {rows : List α} :
    repeats key rows = false ↔ (rows.map key).Nodup := by
  have hcount (a : α) :
      (rows.filter fun b => key b = key a).length = (rows.map key).count (key a) := by
    rw [List.count, List.countP_map, List.countP_eq_length_filter]
    rfl
  rw [List.nodup_iff_count_le_one]
  simp only [repeats, List.any_eq_false, decide_eq_true_eq, Nat.not_lt, hcount]
  constructor
  · intro h k
    by_cases hk : k ∈ rows.map key
    · obtain ⟨a, ha, rfl⟩ := List.mem_map.mp hk
      exact h a ha
    · rw [List.count_eq_zero_of_not_mem hk]
      exact Nat.zero_le 1
  · exact fun h a _ => h _

/-! ## Lookups by a unique key -/

theorem find_key [DecidableEq κ] {key : α → κ} {rows : List α} (h : (rows.map key).Nodup) {a : α}
    {k : κ} : rows.find? (fun b => key b = k) = some a ↔ a ∈ rows ∧ key a = k := by
  constructor
  · intro hfind
    exact ⟨List.mem_of_find?_eq_some hfind, by simpa using List.find?_some hfind⟩
  · rintro ⟨ha, rfl⟩
    cases hfind : rows.find? (fun b => key b = key a) with
    | none =>
        have := List.find?_eq_none.mp hfind a ha
        simp at this
    | some b =>
        have hb := List.mem_of_find?_eq_some hfind
        have hk : key b = key a := by simpa using List.find?_some hfind
        rw [List.inj_on_of_nodup_map h hb ha hk]

/-! ## Rewriting -/

def rewrite (f : α → Except ε β) : List α → Except ε (List β)
  | [] => .ok []
  | a :: rows => do
      let b ← f a
      let rest ← rewrite f rows
      return b :: rest

variable {f : α → Except ε β} {g : β → Except ε' α} {rows : List α} {rows' : List β}

/-- A rewriting relates the rows one by one. -/
theorem rewrite_eq_ok :
    rewrite f rows = .ok rows' ↔ List.Forall₂ (fun a b => f a = .ok b) rows rows' := by
  induction rows generalizing rows' with
  | nil =>
      rw [List.forall₂_nil_left_iff, rewrite, Except.ok.injEq]
      exact eq_comm
  | cons a rows ih =>
      simp only [rewrite, bind_eq_ok, pure_eq_ok]
      constructor
      · rintro ⟨b, hb, rest, hrest, rfl⟩
        exact .cons hb (ih.mp hrest)
      · intro h
        cases h with
        | cons hb hrest => exact ⟨_, hb, _, ih.mpr hrest, rfl⟩

theorem rewrite_total (h : ∀ a ∈ rows, ∃ b, f a = .ok b) : ∃ rows', rewrite f rows = .ok rows' := by
  induction rows with
  | nil => exact ⟨[], rfl⟩
  | cons a rows ih =>
      obtain ⟨b, hb⟩ := h a List.mem_cons_self
      obtain ⟨rest, hrest⟩ := ih fun a' ha' => h a' (List.mem_cons_of_mem a ha')
      exact ⟨b :: rest, by simp [rewrite, hb, hrest]⟩

theorem rewrite_mem (h : rewrite f rows = .ok rows') {b : β} (hb : b ∈ rows') :
    ∃ a ∈ rows, f a = .ok b := by
  rw [rewrite_eq_ok] at h
  induction h with
  | nil => cases hb
  | cons hf _ ih =>
      rcases List.mem_cons.mp hb with rfl | hb
      · exact ⟨_, List.mem_cons_self, hf⟩
      · obtain ⟨a, ha, hab⟩ := ih hb
        exact ⟨a, List.mem_cons_of_mem _ ha, hab⟩

theorem rewrite_mem_of_mem (h : rewrite f rows = .ok rows') {a : α} (ha : a ∈ rows) :
    ∃ b ∈ rows', f a = .ok b := by
  rw [rewrite_eq_ok] at h
  induction h with
  | nil => cases ha
  | cons hf _ ih =>
      rcases List.mem_cons.mp ha with rfl | ha
      · exact ⟨_, List.mem_cons_self, hf⟩
      · obtain ⟨b, hb, hab⟩ := ih ha
        exact ⟨b, List.mem_cons_of_mem _ hb, hab⟩

/-- Two rewritings, one after the other, of which the result is known for each row. -/
theorem rewrite_rewrite {g : β → Except ε' γ} {u : α → γ} (h : rewrite f rows = .ok rows')
    (hrow : ∀ a ∈ rows, ∀ b, f a = .ok b → g b = .ok (u a)) :
    rewrite g rows' = .ok (rows.map u) := by
  rw [rewrite_eq_ok] at h ⊢
  induction h with
  | nil => exact .nil
  | cons hf _ ih =>
      exact .cons (hrow _ List.mem_cons_self _ hf)
        (ih fun a ha => hrow a (List.mem_cons_of_mem _ ha))

/-- **A rewriting is undone** by the rewriting that undoes each of its rows. -/
theorem rewrite_undone (h : rewrite f rows = .ok rows')
    (hundo : ∀ a ∈ rows, ∀ b, f a = .ok b → g b = .ok a) : rewrite g rows' = .ok rows := by
  have := rewrite_rewrite (u := id) h hundo
  rwa [List.map_id] at this

/-- A column that each row keeps is kept. -/
theorem rewrite_map {u : α → γ} {w : β → γ} (h : rewrite f rows = .ok rows')
    (hkeep : ∀ a ∈ rows, ∀ b, f a = .ok b → w b = u a) : rows'.map w = rows.map u := by
  rw [rewrite_eq_ok] at h
  induction h with
  | nil => rfl
  | cons hf _ ih =>
      rw [List.map_cons, List.map_cons, hkeep _ List.mem_cons_self _ hf,
        ih fun a ha => hkeep a (List.mem_cons_of_mem _ ha)]

theorem rewrite_filterMap {u : α → Option γ} {w : β → Option γ} (h : rewrite f rows = .ok rows')
    (hkeep : ∀ a ∈ rows, ∀ b, f a = .ok b → w b = u a) : rows'.filterMap w = rows.filterMap u := by
  have := congrArg (List.filterMap id) (rewrite_map h hkeep)
  rwa [List.filterMap_map, List.filterMap_map] at this

/-- The rows that satisfy a condition are rewritten to those that satisfy its image. -/
theorem rewrite_filter {p : α → Bool} {q : β → Bool} (h : rewrite f rows = .ok rows')
    (hkeep : ∀ a ∈ rows, ∀ b, f a = .ok b → q b = p a) :
    rewrite f (rows.filter p) = .ok (rows'.filter q) := by
  rw [rewrite_eq_ok] at h ⊢
  induction h with
  | nil => exact .nil
  | @cons a b rows rows' hf _ ih =>
      have hq := hkeep _ List.mem_cons_self _ hf
      have ih := ih fun a ha => hkeep a (List.mem_cons_of_mem _ ha)
      rw [List.filter_cons, List.filter_cons, hq]
      split
      · exact .cons hf ih
      · exact ih

theorem rewrite_length (h : rewrite f rows = .ok rows') : rows'.length = rows.length :=
  (rewrite_eq_ok.mp h).length_eq.symm

/-- A lookup after a rewriting finds what the row found before became. -/
theorem rewrite_find {p : α → Bool} {q : β → Bool} (h : rewrite f rows = .ok rows')
    (hkeep : ∀ a ∈ rows, ∀ b, f a = .ok b → q b = p a) {a : α} (ha : rows.find? p = some a) :
    ∃ b, rows'.find? q = some b ∧ f a = .ok b := by
  rw [rewrite_eq_ok] at h
  induction h with
  | nil => cases ha
  | @cons a₀ b₀ rows rows' hf _ ih =>
      have hq := hkeep _ List.mem_cons_self _ hf
      rw [List.find?_cons] at ha ⊢
      rw [hq]
      cases hp : p a₀ with
      | true =>
          rw [hp] at ha
          cases ha
          exact ⟨b₀, rfl, hf⟩
      | false =>
          rw [hp] at ha
          exact ih (fun a ha => hkeep a (List.mem_cons_of_mem _ ha)) ha

end Relational
