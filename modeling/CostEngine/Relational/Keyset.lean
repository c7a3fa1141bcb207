import Mathlib.Data.Set.Card
import Mathlib.Order.CompletePartialOrder
import Mathlib.Data.List.Sort

/-!
# Keyset pages

A listing is read page by page: every page has the rows after a key, in the order of their
keys and up to a limit, and names its last key if there are more. `KeysetPage` is what one
page must be, of the keys that are there when it is read; `KeysetWalk` follows the last keys
while rows come and go.
-/

namespace Relational

variable {κ : Type} [LinearOrder κ]

/-- Of the start of a listing, every key comes after it. -/
def IsAfter (after : Option κ) (k : κ) : Prop := ∀ a ∈ after, a < k

structure KeysetPage (K : Set κ) (after : Option κ) (keys : List κ) (next : Option κ) :
    Prop where
  sorted : keys.Pairwise (· < ·)
  sound : ∀ k ∈ keys, k ∈ K ∧ IsAfter after k
  last : ∀ m ∈ next, m ∈ keys ∧ ∀ k ∈ keys, k ≤ m
  complete : ∀ k ∈ K, IsAfter after k → (∀ m ∈ next, k ≤ m) → k ∈ keys

/-- The page of the keys that an order-preserving map gives. -/
theorem KeysetPage.map {κ' : Type} [LinearOrder κ'] {f : κ → κ'} (hf : StrictMono f) {K : Set κ}
    {after next : Option κ} {keys : List κ} (h : KeysetPage K after keys next) :
    KeysetPage (f '' K) (after.map f) (keys.map f) (next.map f) where
  sorted := List.pairwise_map.mpr (h.sorted.imp fun hlt => hf hlt)
  sound k' hk' := by
    obtain ⟨k, hk, rfl⟩ := List.mem_map.mp hk'
    refine ⟨⟨k, (h.sound k hk).1, rfl⟩, fun a' ha' => ?_⟩
    obtain ⟨a, ha, rfl⟩ := Option.mem_map.mp ha'
    exact hf ((h.sound k hk).2 a ha)
  last m' hm' := by
    obtain ⟨m, hm, rfl⟩ := Option.mem_map.mp hm'
    refine ⟨List.mem_map_of_mem (h.last m hm).1, fun k' hk' => ?_⟩
    obtain ⟨k, hk, rfl⟩ := List.mem_map.mp hk'
    exact hf.monotone ((h.last m hm).2 k hk)
  complete k' hk' hafter hm' := by
    obtain ⟨k, hk, rfl⟩ := hk'
    refine List.mem_map_of_mem (h.complete k hk (fun a ha => ?_) fun m hm => ?_)
    · exact hf.lt_iff_lt.mp (hafter (f a) (Option.mem_map_of_mem f ha))
    · exact hf.le_iff_le.mp (hm' (f m) (Option.mem_map_of_mem f hm))

/-! ## One query -/

section Query

variable {α : Type} {key : α → κ}

/-- `ORDER BY key`. -/
def orderByKey (key : α → κ) (rows : List α) : List α :=
  rows.insertionSort fun a b => key a ≤ key b

@[simp] theorem mem_orderByKey {rows : List α} {a : α} : a ∈ orderByKey key rows ↔ a ∈ rows :=
  List.mem_insertionSort _

theorem orderByKey_sorted {rows : List α} (h : (rows.map key).Nodup) :
    (orderByKey key rows).Pairwise (key · < key ·) := by
  have hle : (orderByKey key rows).Pairwise (key · ≤ key ·) := by
    have : Std.Total fun a b : α => key a ≤ key b := ⟨fun a b => le_total (key a) (key b)⟩
    have : IsTrans α fun a b => key a ≤ key b := ⟨fun a b c => le_trans⟩
    exact List.pairwise_insertionSort _ rows
  have hne : (orderByKey key rows).Pairwise (key · ≠ key ·) := by
    have hp : ((orderByKey key rows).map key).Perm (rows.map key) :=
      (List.perm_insertionSort _ rows).map key
    exact List.pairwise_map.mp (hp.nodup_iff.mpr h)
  exact hle.imp₂ (fun _ _ => lt_of_le_of_ne) hne

theorem le_last_of_sorted {rows : List α} (hs : rows.Pairwise (key · < key ·)) {last : α}
    (hlast : rows.getLast? = some last) : last ∈ rows ∧ ∀ row ∈ rows, key row ≤ key last := by
  obtain ⟨front, rfl⟩ := List.getLast?_eq_some_iff.mp hlast
  refine ⟨List.mem_append_right _ (List.mem_singleton_self _), fun row hrow => ?_⟩
  rcases List.mem_append.mp hrow with hrow | hrow
  · exact le_of_lt ((List.pairwise_append.mp hs).2.2 row hrow last (List.mem_singleton_self _))
  · rw [List.mem_singleton.mp hrow]

/-- Rows in the order of their keys, read with one more than the limit. -/
theorem KeysetPage.of_sorted {K : Set κ} {after : Option κ} {rows : List α} {limit : Nat}
    (hs : rows.Pairwise (key · < key ·))
    (hK : ∀ k, (k ∈ K ∧ IsAfter after k) ↔ ∃ row ∈ rows, key row = k) (hlimit : 0 < limit) :
    KeysetPage K after ((rows.take limit).map key)
      (if limit < rows.length then (rows.take limit).getLast?.map key else none) where
  sorted := List.pairwise_map.mpr (hs.sublist (List.take_sublist _ _))
  sound k hk := by
    obtain ⟨row, hrow, rfl⟩ := List.mem_map.mp hk
    exact (hK _).mpr ⟨row, List.mem_of_mem_take hrow, rfl⟩
  last m hm := by
    split at hm
    · obtain ⟨last, hlast, rfl⟩ := Option.mem_map.mp hm
      obtain ⟨hmem, hle⟩ := le_last_of_sorted (hs.sublist (List.take_sublist _ _)) hlast
      refine ⟨List.mem_map_of_mem hmem, fun k hk => ?_⟩
      obtain ⟨row, hrow, rfl⟩ := List.mem_map.mp hk
      exact hle row hrow
    · cases hm
  complete k hk hafter hm := by
    obtain ⟨row, hrow, rfl⟩ := (hK k).mp ⟨hk, hafter⟩
    split at hm
    · -- What the page leaves out comes after its last row.
      rename_i hmore
      have hne : rows.take limit ≠ [] := by
        rw [Ne, List.take_eq_nil_iff]
        rintro (h | h)
        · omega
        · rw [h] at hmore
          exact Nat.not_lt_zero _ hmore
      have hlast := List.getLast?_eq_some_getLast hne
      have hle := hm _ (Option.mem_map.mpr ⟨_, hlast, rfl⟩)
      have hsplit := hs
      rw [← List.take_append_drop limit rows, List.pairwise_append] at hsplit
      rw [← List.take_append_drop limit rows, List.mem_append] at hrow
      rcases hrow with hrow | hrow
      · exact List.mem_map_of_mem hrow
      · exact absurd (hsplit.2.2 _ (List.getLast_mem hne) row hrow) (not_lt.mpr hle)
    · rename_i hall
      rw [List.take_of_length_le (not_lt.mp hall)]
      exact List.mem_map_of_mem hrow

end Query

/-! ## Page after page -/

/-- After `n` pages, with the last key of each read from keys that may have changed: the key to
go on after, and all keys so far. -/
inductive KeysetWalk (K : Nat → Set κ) : Nat → Option κ → List κ → Prop
  | start : KeysetWalk K 0 none []
  | page {n : Nat} {after : Option κ} {seen keys : List κ} {m : κ} :
      KeysetWalk K n after seen → KeysetPage (K n) after keys (some m) →
      KeysetWalk K (n + 1) (some m) (seen ++ keys)

namespace KeysetWalk

variable {K : Nat → Set κ} {n : Nat} {after next : Option κ} {seen keys : List κ}

/-- What was seen is below the key to go on after. -/
theorem le_after (h : KeysetWalk K n after seen) : ∀ k ∈ seen, ∃ m ∈ after, k ≤ m := by
  induction h with
  | start => exact fun k hk => by cases hk
  | page hwalk hpage ih =>
      rename_i n after seen keys m
      intro k hk
      refine ⟨m, rfl, ?_⟩
      rcases List.mem_append.mp hk with hk | hk
      · obtain ⟨a, ha, hle⟩ := ih k hk
        obtain ⟨hm, -⟩ := hpage.last m rfl
        exact le_trans hle (le_of_lt ((hpage.sound m hm).2 a ha))
      · exact (hpage.last m rfl).2 k hk

theorem sorted_append (h : KeysetWalk K n after seen) (hs : seen.Pairwise (· < ·))
    (hpage : KeysetPage (K n) after keys next) : (seen ++ keys).Pairwise (· < ·) := by
  refine List.pairwise_append.mpr ⟨hs, hpage.sorted, fun k hk k' hk' => ?_⟩
  obtain ⟨m, hm, hle⟩ := h.le_after k hk
  exact lt_of_le_of_lt hle ((hpage.sound k' hk').2 m hm)

theorem sorted (h : KeysetWalk K n after seen) : seen.Pairwise (· < ·) := by
  induction h with
  | start => exact List.Pairwise.nil
  | page hwalk hpage ih => exact hwalk.sorted_append ih hpage

/-- A key that stayed there, and is not to come, was seen. -/
theorem complete (h : KeysetWalk K n after seen) {k : κ} (hk : ∀ i < n, k ∈ K i)
    (hafter : ¬ IsAfter after k) : k ∈ seen := by
  induction h with
  | start => exact absurd (fun a ha => by cases ha) hafter
  | page hwalk hpage ih =>
      rename_i n after seen keys m
      by_cases hbefore : IsAfter after k
      · have hle : k ≤ m := by
          by_contra hlt
          refine hafter fun a ha => ?_
          cases ha
          exact not_le.mp hlt
        refine List.mem_append_right _ (hpage.complete k (hk n (Nat.lt_succ_self n)) hbefore ?_)
        intro m' hm'
        cases hm'
        exact hle
      · exact List.mem_append_left _ (ih (fun i hi => hk i (Nat.lt_succ_of_lt hi)) hbefore)

/-- Up to the page that names no key, all keys that stayed there were seen. -/
theorem complete_last (h : KeysetWalk K n after seen) (hpage : KeysetPage (K n) after keys none)
    {k : κ} (hk : ∀ i ≤ n, k ∈ K i) : k ∈ seen ++ keys := by
  by_cases hafter : IsAfter after k
  · exact List.mem_append_right _ (hpage.complete k (hk n (Nat.le_refl n)) hafter
      (fun m hm => by cases hm))
  · exact List.mem_append_left _ (h.complete (fun i hi => hk i (Nat.le_of_lt hi)) hafter)

end KeysetWalk

/-! ## Termination -/

/-- The keys that are still to come. -/
def remaining (K : Set κ) (after : Option κ) : Set κ := {k ∈ K | IsAfter after k}

/-- A page that names a key leaves fewer keys to come, if none are added. -/
theorem KeysetPage.remaining_ssubset {K K' : Set κ} {after : Option κ} {keys : List κ} {m : κ}
    (h : KeysetPage K after keys (some m)) (hsub : K' ⊆ K) :
    remaining K' (some m) ⊂ remaining K after := by
  obtain ⟨hmem, -⟩ := h.last m rfl
  obtain ⟨hm, hafter⟩ := h.sound m hmem
  refine Set.ssubset_iff_exists.mpr ⟨fun k hk => ⟨hsub hk.1, fun a ha => ?_⟩, m, ⟨hm, hafter⟩, ?_⟩
  · exact lt_trans (hafter a ha) (hk.2 m rfl)
  · exact fun hmore => lt_irrefl m (hmore.2 m rfl)

/-- No sequence of pages names a key for ever once no keys are added. -/
theorem exists_last_page {K : Nat → Set κ} {after : Nat → Option κ} {keys : Nat → List κ} {N : Nat}
    (hpages : ∀ n, KeysetPage (K n) (after n) (keys n) (after (n + 1)))
    (hfinite : (K N).Finite) (hK : ∀ n ≥ N, K (n + 1) ⊆ K n) : ∃ n, after (n + 1) = none := by
  by_contra hnever
  have hnext : ∀ n, ∃ m, after (n + 1) = some m := fun n =>
    Option.ne_none_iff_exists'.mp fun h => hnever ⟨n, h⟩
  have hsub : ∀ i, K (N + i) ⊆ K N := by
    intro i
    induction i with
    | zero => exact subset_rfl
    | succ i ih => exact (hK (N + i) (Nat.le_add_right N i)).trans ih
  -- The number of keys to come would decrease for ever.
  have hless : ∀ i, (remaining (K (N + i)) (after (N + i))).ncard + i
      ≤ (remaining (K N) (after N)).ncard := by
    intro i
    induction i with
    | zero => exact le_rfl
    | succ i ih =>
        obtain ⟨m, hm⟩ := hnext (N + i)
        have hfin : (remaining (K (N + i)) (after (N + i))).Finite :=
          (hfinite.subset (hsub i)).subset fun k hk => hk.1
        have hpage := hpages (N + i)
        rw [hm] at hpage
        have hlt := Set.ncard_lt_ncard
          (hpage.remaining_ssubset (hK (N + i) (Nat.le_add_right N i))) hfin
        rw [← hm] at hlt
        show (remaining (K (N + i + 1)) (after (N + i + 1))).ncard + (i + 1) ≤ _
        omega
  have := hless ((remaining (K N) (after N)).ncard + 1)
  omega

end Relational
