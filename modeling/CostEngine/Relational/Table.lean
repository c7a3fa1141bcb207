import Mathlib.Data.List.Nodup
import Mathlib.Logic.Relation

/-!
# Tables with a primary key

A `Table` is the list of its rows in the order they were inserted, together with the
proof that no two have the same key. Rows are looked up by key (`get?`), selected by a
condition (`select`), inserted at the end (`insert`), replaced (`put`) and deleted by a
condition or by key (`delete`, `erase`). An insert under a key that is taken and a
replacement of a missing row change nothing, so every value of the type is well formed.
-/

namespace Relational

structure Table (α κ : Type) (key : α → κ) where
  rows : List α
  nodup : (rows.map key).Nodup

namespace Table

theorem ext {α κ : Type} {key : α → κ} {t t' : Table α κ key} (h : t.rows = t'.rows) :
    t = t' := by
  cases t
  cases t'
  cases h
  rfl

variable {α κ : Type} {key : α → κ} [DecidableEq κ]

def empty : Table α κ key := ⟨[], by simp⟩

def get? (t : Table α κ key) (k : κ) : Option α := t.rows.find? fun a => key a = k

def select (t : Table α κ key) (p : α → Bool) : List α := t.rows.filter p

def insert (t : Table α κ key) (a : α) : Table α κ key :=
  if h : key a ∈ t.rows.map key then t
  else
    { rows := t.rows ++ [a]
      nodup := by
        rw [List.map_append, List.map_singleton]
        exact List.nodup_append.mpr ⟨t.nodup, by simp, by
          intro k hk k' hk' hkk'
          rw [List.mem_singleton] at hk'
          exact h (hk' ▸ hkk' ▸ hk)⟩ }

def put (t : Table α κ key) (a : α) : Table α κ key :=
  { rows := t.rows.map fun r => if key r = key a then a else r
    nodup := by
      have : (t.rows.map fun r => if key r = key a then a else r).map key
          = t.rows.map key := by
        rw [List.map_map]
        apply List.map_congr_left
        intro r _
        by_cases h : key r = key a <;> simp [h]
      rw [this]
      exact t.nodup }

/-- `set` of a map: the value under the key of `a` becomes `a`. -/
def set (t : Table α κ key) (a : α) : Table α κ key :=
  if (t.get? (key a)).isSome then t.put a else t.insert a

omit [DecidableEq κ] in
theorem nodup_filter (t : Table α κ key) (p : α → Bool) : ((t.rows.filter p).map key).Nodup :=
  t.nodup.sublist (List.filter_sublist.map _)

/-- `DELETE … WHERE p`. -/
def delete (t : Table α κ key) (p : α → Bool) : Table α κ key :=
  ⟨t.rows.filter fun a => !p a, t.nodup_filter _⟩

def erase (t : Table α κ key) (k : κ) : Table α κ key := t.delete fun a => key a = k

variable {t t' t'' : Table α κ key} {a b : α} {k k' : κ} {p : α → Bool}

/-! ## Lookup -/

/-- A row is not both missing and there. -/
theorem no_row {P : Prop} {α : Type} {row : Option α} {a : α} (h : row = none)
    (h' : row = some a) : P := by
  rw [h] at h'
  cases h'

theorem row_ne_none {α : Type} {row : Option α} {a : α} (h : row = some a) :
    row ≠ none := by
  rw [h]
  exact Option.some_ne_none a

theorem get?_eq_some : t.get? k = some a ↔ a ∈ t.rows ∧ key a = k := by
  constructor
  · intro h
    exact ⟨List.mem_of_find?_eq_some h, by simpa using List.find?_some h⟩
  · rintro ⟨ha, rfl⟩
    cases h : t.get? (key a) with
    | none =>
        have := List.find?_eq_none.mp h a ha
        simp at this
    | some b =>
        have hb := List.mem_of_find?_eq_some h
        have hk : key b = key a := by simpa using List.find?_some h
        rw [List.inj_on_of_nodup_map t.nodup hb ha hk]

theorem get?_key (h : t.get? k = some a) : key a = k := (get?_eq_some.mp h).2

theorem get?_mem (h : t.get? k = some a) : a ∈ t.rows := (get?_eq_some.mp h).1

theorem get?_of_mem (h : a ∈ t.rows) : t.get? (key a) = some a := get?_eq_some.mpr ⟨h, rfl⟩

theorem get?_eq_none : t.get? k = none ↔ ∀ a ∈ t.rows, key a ≠ k := by
  simp [get?, List.find?_eq_none]

@[simp] theorem get?_empty : (empty : Table α κ key).get? k = none := rfl

omit [DecidableEq κ] in
@[simp] theorem rows_empty : (empty : Table α κ key).rows = [] := rfl

/-! ## Insert -/

theorem rows_insert (h : t.get? (key a) = none) : (t.insert a).rows = t.rows ++ [a] := by
  have hk : key a ∉ t.rows.map key := by
    simpa [eq_comm] using get?_eq_none.mp h
  simp [insert, hk]

theorem get?_insert (h : t.get? (key a) = none) :
    (t.insert a).get? k = if key a = k then some a else t.get? k := by
  unfold get? at h ⊢
  rw [rows_insert h, List.find?_append]
  by_cases hk : key a = k
  · subst hk
    simp [h]
  · simp [hk]

theorem mem_insert (h : t.get? (key a) = none) :
    b ∈ (t.insert a).rows ↔ b ∈ t.rows ∨ b = a := by
  rw [rows_insert h]; simp

theorem select_insert (h : t.get? (key a) = none) :
    (t.insert a).select p = t.select p ++ [a].filter p := by
  rw [select, rows_insert h, List.filter_append]; rfl

/-- An inserted row outside a selection does not show there. -/
theorem select_insert_of_not (ha : p a = false) : (t.insert a).select p = t.select p := by
  unfold insert
  split
  · rfl
  · show List.filter p (t.rows ++ [a]) = _
    rw [List.filter_append, List.filter_cons_of_neg (by simp [ha]), List.filter_nil,
      List.append_nil]
    rfl

/-- What is found under `k` after an insert depends on what was found there before, and
on nothing else. -/
theorem get?_insert_eq :
    (t.insert a).get? k = (t.get? k).or (if key a = k then some a else none) := by
  by_cases hk : key a ∈ t.rows.map key
  · have ht : t.insert a = t := by simp only [insert, hk, ↓reduceDIte]
    rw [ht]
    by_cases hak : key a = k
    · obtain ⟨r, hr, hrk⟩ := List.mem_map.mp hk
      rw [get?_eq_some.mpr ⟨hr, hrk.trans hak⟩, Option.some_or]
    · rw [if_neg hak, Option.or_none]
  · have hn : t.get? (key a) = none :=
      get?_eq_none.mpr fun r hr e => hk (e ▸ List.mem_map_of_mem hr)
    rw [get?_insert hn]
    by_cases hak : key a = k
    · rw [if_pos hak, ← hak, hn, if_pos rfl, Option.none_or]
    · rw [if_neg hak, if_neg hak, Option.or_none]

/-- A row that is there already is not overwritten by an insert. -/
theorem get?_insert_of_some (h : t.get? k = some b) : (t.insert a).get? k = some b := by
  rw [get?_insert_eq, h, Option.some_or]

/-- A row found after an insert is the new one or was there before. -/
theorem of_get?_insert (h : (t.insert a).get? k = some b) : t.get? k = some b ∨ b = a := by
  rw [get?_insert_eq] at h
  cases hk : t.get? k with
  | some r =>
      rw [hk, Option.some_or] at h
      exact .inl h
  | none =>
      rw [hk, Option.none_or] at h
      split at h
      · exact .inr (Option.some.inj h).symm
      · cases h

/-! ## Replacement -/

theorem mem_put : b ∈ (t.put a).rows ↔
    (b = a ∧ ∃ r ∈ t.rows, key r = key a) ∨ (b ∈ t.rows ∧ key b ≠ key a) := by
  simp only [put, List.mem_map]
  constructor
  · rintro ⟨r, hr, rfl⟩
    by_cases h : key r = key a
    · exact .inl ⟨by simp [h], r, hr, h⟩
    · exact .inr ⟨by simpa [h] using hr, by simp [h]⟩
  · rintro (⟨rfl, r, hr, h⟩ | ⟨hb, h⟩)
    · exact ⟨r, hr, by simp [h]⟩
    · exact ⟨b, hb, by simp [h]⟩

theorem get?_put :
    (t.put a).get? k = if key a = k then (t.get? k).map fun _ => a else t.get? k := by
  by_cases hk : key a = k
  · subst hk
    simp only [↓reduceIte]
    cases h : t.get? (key a) with
    | none =>
        rw [Option.map_none, get?_eq_none]
        intro b hb
        rcases mem_put.mp hb with ⟨rfl, r, hr, h'⟩ | ⟨-, h'⟩
        · exact absurd h' (get?_eq_none.mp h r hr)
        · exact h'
    | some r =>
        rw [Option.map_some, get?_eq_some]
        exact ⟨mem_put.mpr (.inl ⟨rfl, r, get?_mem h, get?_key h⟩), rfl⟩
  · simp only [hk, ↓reduceIte]
    cases h : t.get? k with
    | none =>
        rw [get?_eq_none]
        intro b hb
        rcases mem_put.mp hb with ⟨rfl, -⟩ | ⟨hb, -⟩
        · exact hk
        · exact get?_eq_none.mp h b hb
    | some r =>
        obtain ⟨hr, rfl⟩ := get?_eq_some.mp h
        exact get?_eq_some.mpr ⟨mem_put.mpr (.inr ⟨hr, fun e => hk e.symm⟩), rfl⟩

theorem of_get?_put (h : (t.put a).get? k = some b) : t.get? k = some b ∨ b = a := by
  rw [get?_put] at h
  split at h
  · obtain ⟨r, -, rfl⟩ := Option.map_eq_some_iff.mp h
    exact .inr rfl
  · exact .inl h

theorem get?_put_eq_none : (t.put a).get? k = none ↔ t.get? k = none := by
  rw [get?_put]
  split <;> simp

theorem put_self (h : t.get? (key a) = some a) : t.put a = t := by
  have hrows : (t.put a).rows = t.rows := by
    conv_rhs => rw [← List.map_id t.rows]
    refine List.map_congr_left fun r hr => ?_
    show (if key r = key a then a else r) = r
    by_cases hk : key r = key a
    · rw [if_pos hk]
      exact Option.some.inj (h.symm.trans (hk ▸ get?_of_mem hr))
    · rw [if_neg hk]
  exact ext hrows

/-- Replacing a row leaves alone every selection that has neither the old row nor the
new one. -/
theorem select_put_of_not (hold : ∀ r, t.get? (key a) = some r → p r = false)
    (hnew : p a = false) : (t.put a).select p = t.select p := by
  have hrows : ∀ r ∈ t.rows, key r = key a → p r = false :=
    fun r hr hk => hold r (hk ▸ get?_of_mem hr)
  unfold select put
  dsimp only
  generalize t.rows = rows at hrows
  induction rows with
  | nil => rfl
  | cons r rows ih =>
      have ih := ih fun r hr => hrows r (List.mem_cons_of_mem _ hr)
      rw [List.map_cons]
      by_cases hk : key r = key a
      · have hpr := hrows r List.mem_cons_self hk
        rw [if_pos hk, List.filter_cons_of_neg (by simp [hnew]),
          List.filter_cons_of_neg (by simp [hpr]), ih]
      · rw [if_neg hk, List.filter_cons, List.filter_cons, ih]

/-- Replacing a row of a selection by another row of the selection. -/
theorem select_put_of_mem (hold : ∀ r, t.get? (key a) = some r → p r = true)
    (hnew : p a = true) :
    (t.put a).select p = (t.select p).map fun r => if key r = key a then a else r := by
  have hrows : ∀ r ∈ t.rows, key r = key a → p r = true :=
    fun r hr hk => hold r (hk ▸ get?_of_mem hr)
  unfold select put
  dsimp only
  generalize t.rows = rows at hrows
  induction rows with
  | nil => rfl
  | cons r rows ih =>
      have ih := ih fun r hr => hrows r (List.mem_cons_of_mem _ hr)
      rw [List.map_cons]
      by_cases hk : key r = key a
      · have hpr := hrows r List.mem_cons_self hk
        rw [if_pos hk, List.filter_cons_of_pos hnew, List.filter_cons_of_pos hpr, ih,
          List.map_cons, if_pos hk]
      · rw [if_neg hk, List.filter_cons, List.filter_cons, ih]
        split
        · rw [List.map_cons, if_neg hk]
        · rfl

/-- Replacing a row by one that agrees with it on `f` does not change the selection
seen through `f`. -/
theorem map_select_put {β : Type} {f : α → β}
    (h : ∀ r, t.get? (key a) = some r → f r = f a ∧ p r = p a) :
    ((t.put a).select p).map f = (t.select p).map f := by
  have hrows : ∀ r ∈ t.rows, key r = key a → f r = f a ∧ p r = p a :=
    fun r hr hk => h r (hk ▸ get?_of_mem hr)
  unfold select put
  dsimp only
  generalize t.rows = rows at hrows
  induction rows with
  | nil => rfl
  | cons r rows ih =>
      have ih := ih fun r hr => hrows r (List.mem_cons_of_mem _ hr)
      rw [List.map_cons]
      by_cases hk : key r = key a
      · obtain ⟨hf, hp⟩ := hrows r List.mem_cons_self hk
        rw [if_pos hk, List.filter_cons, List.filter_cons, hp]
        split
        · rw [List.map_cons, List.map_cons, ih, hf]
        · exact ih
      · rw [if_neg hk, List.filter_cons, List.filter_cons]
        split
        · rw [List.map_cons, List.map_cons, ih]
        · exact ih

theorem get?_set : (t.set a).get? k = if key a = k then some a else t.get? k := by
  unfold set
  cases h : t.get? (key a) with
  | none => exact get?_insert h
  | some b =>
      rw [Option.isSome_some, if_pos rfl, get?_put]
      split
      · rename_i hk
        rw [← hk, h]
        rfl
      · rfl

omit [DecidableEq κ] in
theorem mem_select : b ∈ t.select p ↔ b ∈ t.rows ∧ p b = true := List.mem_filter

theorem mem_rows : a ∈ t.rows ↔ t.get? (key a) = some a :=
  ⟨get?_of_mem, get?_mem⟩

/-! ## Deletion -/

omit [DecidableEq κ] in
theorem mem_delete : b ∈ (t.delete p).rows ↔ b ∈ t.rows ∧ p b = false := by
  rw [delete, List.mem_filter, Bool.not_eq_true']

theorem get?_delete : (t.delete p).get? k = (t.get? k).filter fun a => !p a := by
  cases h : t.get? k with
  | none =>
      rw [Option.filter_none, get?_eq_none]
      exact fun b hb => get?_eq_none.mp h b (mem_delete.mp hb).1
  | some a =>
      obtain ⟨ha, hk⟩ := get?_eq_some.mp h
      rw [Option.filter_some]
      by_cases hp : p a = false
      · rw [if_pos (by simp [hp])]
        exact get?_eq_some.mpr ⟨mem_delete.mpr ⟨ha, hp⟩, hk⟩
      · rw [if_neg (by simpa using hp), get?_eq_none]
        intro b hb hbk
        obtain ⟨hb, hpb⟩ := mem_delete.mp hb
        obtain rfl := Option.some.inj (h.symm.trans (get?_eq_some.mpr ⟨hb, hbk⟩))
        exact hp hpb

theorem get?_erase : (t.erase k).get? k' = if k = k' then none else t.get? k' := by
  rw [erase, get?_delete]
  cases h : t.get? k' with
  | none => simp
  | some a =>
      have hk := get?_key h
      rw [Option.filter_some]
      by_cases hkk : k = k'
      · simp [hkk, hk]
      · simp [hkk, hk, Ne.symm hkk]

theorem length_erase (h : t.get? k = some a) : (t.erase k).rows.length + 1 = t.rows.length := by
  have hkey : ((t.rows.map key).erase k).length + 1 = t.rows.length := by
    have hmem : k ∈ t.rows.map key := get?_key h ▸ List.mem_map_of_mem (get?_mem h)
    rw [List.length_erase_of_mem hmem, List.length_map]
    have := List.length_pos_of_mem (get?_mem h)
    omega
  rw [← hkey, t.nodup.erase_eq_filter, List.filter_map, List.length_map]
  congr 2

theorem length_insert (h : t.get? (key a) = none) :
    (t.insert a).rows.length = t.rows.length + 1 := by
  rw [rows_insert h, List.length_append]
  rfl

/-! ## Many rows at once -/

/-- Inserting rows with new, different keys appends them. -/
theorem rows_foldl_insert {l : List α} (hnodup : (l.map key).Nodup)
    (hnew : ∀ a ∈ l, t.get? (key a) = none) : (l.foldl insert t).rows = t.rows ++ l := by
  induction l generalizing t with
  | nil => simp
  | cons a l ih =>
      rw [List.map_cons, List.nodup_cons] at hnodup
      have ha := hnew a List.mem_cons_self
      rw [List.foldl_cons, ih hnodup.2, rows_insert ha, List.append_assoc, List.singleton_append]
      intro b hb
      have hne : key a ≠ key b := fun e => hnodup.1 (e ▸ List.mem_map_of_mem hb)
      rw [get?_insert ha, if_neg hne]
      exact hnew b (List.mem_cons_of_mem _ hb)

theorem get?_foldl_insert {l : List α} (hnodup : (l.map key).Nodup)
    (hnew : ∀ a ∈ l, t.get? (key a) = none) :
    (l.foldl insert t).get? k = (t.get? k).or (l.find? fun a => key a = k) := by
  unfold get?
  rw [rows_foldl_insert hnodup hnew, List.find?_append]

theorem select_foldl_insert {l : List α} (hnodup : (l.map key).Nodup)
    (hnew : ∀ a ∈ l, t.get? (key a) = none) :
    (l.foldl insert t).select p = t.select p ++ l.filter p := by
  unfold select
  rw [rows_foldl_insert hnodup hnew, List.filter_append]

/-- Replacing rows by their images under `f`, which may be repeated. -/
theorem rows_foldl_put {f : α → α} (hkey : ∀ a, key (f a) = key a)
    (hidem : ∀ a, f (f a) = f a) {l : List α}
    (hl : ∀ a ∈ l, ∀ r ∈ t.rows, key r = key a → f r = f a) :
    (l.foldl (fun t a => t.put (f a)) t).rows
      = t.rows.map fun r => if key r ∈ l.map key then f r else r := by
  induction l generalizing t with
  | nil => simp
  | cons a l ih =>
      have hput : (t.put (f a)).rows = t.rows.map fun r => if key r = key a then f r else r := by
        refine List.map_congr_left fun r hr => ?_
        rw [hkey]
        by_cases h : key r = key a
        · rw [if_pos h, if_pos h, hl a List.mem_cons_self r hr h]
        · rw [if_neg h, if_neg h]
      rw [List.foldl_cons, ih, hput, List.map_map]
      · refine List.map_congr_left fun r hr => ?_
        simp only [Function.comp_apply, List.map_cons, List.mem_cons]
        by_cases h : key r = key a
        · simp [h, hkey, hidem]
        · simp [h]
      · intro b hb r hr hrb
        rw [hput] at hr
        obtain ⟨r₀, hr₀, rfl⟩ := List.mem_map.mp hr
        have hb' := hl b (List.mem_cons_of_mem _ hb) r₀ hr₀
        by_cases h : key r₀ = key a
        · rw [if_pos h] at hrb ⊢
          rw [hidem]
          exact hb' (by rw [← hkey r₀, hrb])
        · rw [if_neg h] at hrb ⊢
          exact hb' hrb

/-- The lookup and the selections of a table whose rows are the images of another's. -/
theorem get?_of_rows_map {f : α → α} (hkey : ∀ a, key (f a) = key a)
    (h : t'.rows = t.rows.map f) : t'.get? k = (t.get? k).map f := by
  unfold get?
  rw [h, List.find?_map]
  congr 2
  funext a
  simp [hkey]

omit [DecidableEq κ] in
theorem select_of_rows_map {f : α → α} (hp : ∀ a, p (f a) = p a)
    (h : t'.rows = t.rows.map f) : t'.select p = (t.select p).map f := by
  unfold select
  rw [h, List.filter_map]
  congr 2
  funext a
  simp [hp]

/-! ## Growth -/

/-- Every row is still there, and has changed by steps `R` only. -/
def Grows (R : α → α → Prop) (t t' : Table α κ key) : Prop :=
  ∀ k a, t.get? k = some a → ∃ a', t'.get? k = some a' ∧ Relation.ReflTransGen R a a'

variable {R : α → α → Prop}

theorem Grows.refl : Grows R t t := fun _ a h => ⟨a, h, .refl⟩

theorem Grows.trans (h : Grows R t t') (h' : Grows R t' t'') : Grows R t t'' := by
  intro k a ha
  obtain ⟨a', ha', hr⟩ := h k a ha
  obtain ⟨a'', ha'', hr'⟩ := h' k a' ha'
  exact ⟨a'', ha'', hr.trans hr'⟩

/-- The row a later row has grown from. -/
theorem Grows.back (h : Grows R t t') (ha : t'.get? k = some a) (hk : t.get? k ≠ none) :
    ∃ b, t.get? k = some b ∧ Relation.ReflTransGen R b a := by
  obtain ⟨b, hb⟩ := Option.ne_none_iff_exists'.mp hk
  obtain ⟨a', ha', hr⟩ := h k b hb
  obtain rfl : a' = a := Option.some.inj (ha'.symm.trans ha)
  exact ⟨b, hb, hr⟩

theorem grows_insert : Grows R t (t.insert a) :=
  fun _ r hr => ⟨r, get?_insert_of_some hr, .refl⟩

theorem grows_put (hold : t.get? (key a) = some b) (hR : R b a) : Grows R t (t.put a) := by
  intro k r hr
  by_cases hk : key a = k
  · subst hk
    obtain rfl : b = r := Option.some.inj (hold.symm.trans hr)
    exact ⟨a, by rw [get?_put, if_pos rfl, hr]; rfl, .single hR⟩
  · exact ⟨r, by rw [get?_put, if_neg hk, hr], .refl⟩

end Table

end Relational
