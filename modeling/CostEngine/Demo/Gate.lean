import CostEngine.Demo.Coordinator

/-! # What holds at the gate

Every operation waits for operations that were admitted before it, directly or through the
exclusive operation they were admitted behind. The queue of a session counts the operations
that hold a slot, and exists while there are any. -/

namespace CostEngine

open Relational (Table)

/-! ## Slots -/

/-- What the queue of a session has to know of an operation. -/
structure Slot where
  held : Bool
  sessionId : String
  parallel : Bool
  queue : Nat

def Operation.slot (o : Operation) : Slot where
  held := o.admitted
  sessionId := o.session.sessionId
  parallel := o.parallel
  queue := o.queue

/-- The slot is held by an operation of the session. -/
def Slot.heldIn (x : Slot) (s : String) : Bool := x.held ∧ x.sessionId = s

/-- It is a parallel one. -/
def Slot.parallelIn (x : Slot) (s : String) : Bool := x.heldIn s ∧ x.parallel

/-- The queue of the session `s` is the one that its slots ask for. -/
structure Queue.Fits (queue : Queue) (slots : List Slot) (s : String) : Prop where
  size : queue.size = slots.countP (·.heldIn s)
  parallel_length : queue.parallel.length = slots.countP (·.parallelIn s)
  parallel_nodup : queue.parallel.Nodup
  parallel : ∀ n, n ∈ queue.parallel ↔ ∃ x, slots[n]? = some x ∧ x.parallelIn s = true
  tail : ∀ (n : Nat) (x : Slot), slots[n]? = some x → x.heldIn s = true → x.parallel = false →
    ∃ k, queue.tail = some k ∧ n ≤ k
  tail_exclusive : ∀ k, queue.tail = some k → ∃ x, slots[k]? = some x ∧ x.parallel = false
    ∧ x.sessionId = s

section Slots

variable {slots : List Slot} {queue : Queue} {s : String} {n : Nat} {x : Slot}

/-- The slot without its holder. -/
def Slot.free (x : Slot) : Slot := { x with held := false }

theorem getElem?_set_free (hx : slots[n]? = some x) (k : Nat) (y : Slot) :
    (slots.set n x.free)[k]? = some y ↔
      (k = n ∧ y = x.free) ∨ (k ≠ n ∧ slots[k]? = some y) := by
  obtain ⟨hn, -⟩ := List.getElem?_eq_some_iff.mp hx
  rw [List.getElem?_set]
  by_cases hk : n = k
  · subst hk
    simp [hn, eq_comm]
  · simp [hk, Ne.symm hk]

/-! ### Counting slots -/

theorem countP_set_free {p : Slot → Bool} (hx : slots[n]? = some x) (hp : p x.free = false) :
    (slots.set n x.free).countP p = slots.countP p - if p x then 1 else 0 := by
  obtain ⟨hn, hget⟩ := List.getElem?_eq_some_iff.mp hx
  rw [List.countP_set hn, hget]
  simp [hp]

theorem countP_pos_of_getElem? {p : Slot → Bool} (hx : slots[n]? = some x) (hp : p x = true) :
    0 < slots.countP p :=
  List.countP_pos_iff.mpr ⟨x, List.mem_of_getElem? hx, hp⟩

theorem Queue.Fits.empty (h : slots.countP (·.heldIn s) = 0) :
    (⟨none, 0, []⟩ : Queue).Fits slots s := by
  have hnone : ∀ x ∈ slots, x.heldIn s = false := by
    simpa [List.countP_eq_zero] using h
  refine ⟨h.symm, ?_, List.nodup_nil, fun n => ?_, fun n x hx hheld => ?_, fun k hk => by cases hk⟩
  · refine (List.countP_eq_zero.mpr fun x hx => ?_).symm
    simp [Slot.parallelIn, hnone x hx]
  · refine ⟨fun hn => absurd hn List.not_mem_nil, fun ⟨x, hx, hp⟩ => ?_⟩
    simp [Slot.parallelIn, hnone x (List.mem_of_getElem? hx)] at hp
  · rw [hnone x (List.mem_of_getElem? hx)] at hheld
    cases hheld

/-! ### A slot is given back -/

/-- One of its operations lets go of its slot. -/
theorem Queue.Fits.release (h : queue.Fits slots s) (hx : slots[n]? = some x)
    (hheld : x.heldIn s = true) :
    ({ queue with
        size := queue.size - 1
        parallel := if x.parallel then queue.parallel.erase n else queue.parallel } : Queue).Fits
      (slots.set n x.free) s := by
  have hfree : x.free.heldIn s = false := by simp [Slot.heldIn, Slot.free]
  have hfree' : x.free.parallelIn s = false := by simp [Slot.parallelIn, hfree]
  have hpar : x.parallelIn s = x.parallel := by simp [Slot.parallelIn, hheld]
  refine ⟨?_, ?_, ?_, fun k => ?_, fun k y hy hyheld hex => ?_, fun k hk => ?_⟩
  · rw [countP_set_free hx hfree, hheld, if_pos rfl, h.size]
  · rw [countP_set_free hx hfree', hpar, ← h.parallel_length]
    cases hp : x.parallel with
    | false => rfl
    | true =>
        have hmem : n ∈ queue.parallel := (h.parallel n).mpr ⟨x, hx, hpar.trans hp⟩
        exact List.length_erase_of_mem hmem
  · split
    · exact h.parallel_nodup.erase n
    · exact h.parallel_nodup
  · have hold := h.parallel k
    simp only [getElem?_set_free hx]
    have hk : (∃ y, (k = n ∧ y = x.free ∨ k ≠ n ∧ slots[k]? = some y) ∧ y.parallelIn s = true) ↔
        k ≠ n ∧ k ∈ queue.parallel := by
      rw [hold]
      constructor
      · rintro ⟨y, ⟨-, rfl⟩ | ⟨hne, hy⟩, hp⟩
        · rw [hfree'] at hp
          cases hp
        · exact ⟨hne, y, hy, hp⟩
      · rintro ⟨hne, y, hy, hp⟩
        exact ⟨y, .inr ⟨hne, hy⟩, hp⟩
    rw [hk]
    cases hp : x.parallel with
    | true => exact h.parallel_nodup.mem_erase_iff
    | false =>
        refine ⟨fun hmem => ⟨?_, hmem⟩, And.right⟩
        rintro rfl
        obtain ⟨y, hy, hyp⟩ := hold.mp hmem
        obtain rfl := Option.some.inj (hx.symm.trans hy)
        rw [hpar, hp] at hyp
        cases hyp
  · rcases (getElem?_set_free hx k y).mp hy with ⟨rfl, rfl⟩ | ⟨-, hy⟩
    · rw [hfree] at hyheld
      cases hyheld
    · exact h.tail k y hy hyheld hex
  · obtain ⟨y, hy, hex, hys⟩ := h.tail_exclusive k hk
    by_cases hkn : k = n
    · subst hkn
      obtain rfl := Option.some.inj (hx.symm.trans hy)
      exact ⟨x.free, (getElem?_set_free hx k _).mpr (.inl ⟨rfl, rfl⟩), hex, hys⟩
    · exact ⟨y, (getElem?_set_free hx k y).mpr (.inr ⟨hkn, hy⟩), hex, hys⟩

/-- An operation of another session lets go of its slot. -/
theorem Queue.Fits.release_other (h : queue.Fits slots s) (hx : slots[n]? = some x)
    (hne : x.sessionId ≠ s) : queue.Fits (slots.set n x.free) s := by
  have hnot : x.heldIn s = false := by simp [Slot.heldIn, hne]
  have hnot' : x.parallelIn s = false := by simp [Slot.parallelIn, hnot]
  have hfree : x.free.heldIn s = false := by simp [Slot.heldIn, Slot.free]
  have hfree' : x.free.parallelIn s = false := by simp [Slot.parallelIn, hfree]
  refine ⟨?_, ?_, h.parallel_nodup, fun k => ?_, fun k y hy hyheld hex => ?_, fun k hk => ?_⟩
  · rw [countP_set_free hx hfree, hnot]
    exact h.size
  · rw [countP_set_free hx hfree', hnot']
    exact h.parallel_length
  · rw [h.parallel k]
    simp only [getElem?_set_free hx]
    constructor
    · rintro ⟨y, hy, hp⟩
      refine ⟨y, .inr ⟨?_, hy⟩, hp⟩
      rintro rfl
      obtain rfl := Option.some.inj (hx.symm.trans hy)
      rw [hnot'] at hp
      cases hp
    · rintro ⟨y, ⟨-, rfl⟩ | ⟨-, hy⟩, hp⟩
      · rw [hfree'] at hp
        cases hp
      · exact ⟨y, hy, hp⟩
  · rcases (getElem?_set_free hx k y).mp hy with ⟨-, rfl⟩ | ⟨-, hy⟩
    · rw [hfree] at hyheld
      cases hyheld
    · exact h.tail k y hy hyheld hex
  · obtain ⟨y, hy, hex, hys⟩ := h.tail_exclusive k hk
    refine ⟨y, (getElem?_set_free hx k y).mpr (.inr ⟨?_, hy⟩), hex, hys⟩
    rintro rfl
    obtain rfl := Option.some.inj (hx.symm.trans hy)
    exact hne hys

theorem getElem?_concat (k : Nat) (y : Slot) :
    (slots ++ [x])[k]? = some y ↔ slots[k]? = some y ∨ (k = slots.length ∧ y = x) := by
  rw [List.getElem?_append]
  by_cases hk : k < slots.length
  · simp [hk, Nat.ne_of_lt hk]
  · rw [if_neg hk, List.getElem?_eq_none (Nat.not_lt.mp hk), List.getElem?_singleton]
    by_cases he : k = slots.length
    · simp [he, eq_comm]
    · have : k - slots.length ≠ 0 := by omega
      simp [this, he]

/-! ### A slot is taken -/

/-- An operation of another session is admitted. -/
theorem Queue.Fits.concat_other (h : queue.Fits slots s) (hne : x.sessionId ≠ s) :
    queue.Fits (slots ++ [x]) s := by
  have hnot : x.heldIn s = false := by simp [Slot.heldIn, hne]
  have hnot' : x.parallelIn s = false := by simp [Slot.parallelIn, hnot]
  refine ⟨?_, ?_, h.parallel_nodup, fun k => ?_, fun k y hy hyheld hex => ?_, fun k hk => ?_⟩
  · rw [List.countP_append, List.countP_singleton, hnot]
    exact h.size
  · rw [List.countP_append, List.countP_singleton, hnot']
    exact h.parallel_length
  · rw [h.parallel k]
    simp only [getElem?_concat]
    constructor
    · rintro ⟨y, hy, hp⟩
      exact ⟨y, .inl hy, hp⟩
    · rintro ⟨y, hy | ⟨-, rfl⟩, hp⟩
      · exact ⟨y, hy, hp⟩
      · rw [hnot'] at hp
        cases hp
  · rcases (getElem?_concat k y).mp hy with hy | ⟨-, rfl⟩
    · exact h.tail k y hy hyheld hex
    · rw [hnot] at hyheld
      cases hyheld
  · obtain ⟨y, hy, hex, hys⟩ := h.tail_exclusive k hk
    exact ⟨y, (getElem?_concat k y).mpr (.inl hy), hex, hys⟩

/-- An exclusive operation is admitted, and becomes the tail. -/
theorem Queue.Fits.concat_exclusive (h : queue.Fits slots s) (hheld : x.heldIn s = true)
    (hex : x.parallel = false) :
    ({ queue with size := queue.size + 1, tail := some slots.length } : Queue).Fits
      (slots ++ [x]) s := by
  have hnot' : x.parallelIn s = false := by simp [Slot.parallelIn, hex]
  refine ⟨?_, ?_, h.parallel_nodup, fun k => ?_, fun k y hy hyheld hyex => ?_, fun k hk => ?_⟩
  · rw [List.countP_append, List.countP_singleton, hheld, if_pos rfl, h.size]
  · rw [List.countP_append, List.countP_singleton, hnot']
    exact h.parallel_length
  · rw [h.parallel k]
    simp only [getElem?_concat]
    constructor
    · rintro ⟨y, hy, hp⟩
      exact ⟨y, .inl hy, hp⟩
    · rintro ⟨y, hy | ⟨-, rfl⟩, hp⟩
      · exact ⟨y, hy, hp⟩
      · rw [hnot'] at hp
        cases hp
  · refine ⟨slots.length, rfl, ?_⟩
    rcases (getElem?_concat k y).mp hy with hy | ⟨rfl, -⟩
    · exact Nat.le_of_lt (List.getElem?_eq_some_iff.mp hy).1
    · exact Nat.le_refl _
  · cases hk
    refine ⟨x, (getElem?_concat _ x).mpr (.inr ⟨rfl, rfl⟩), hex, ?_⟩
    simp only [Slot.heldIn, Bool.decide_and, Bool.decide_eq_true, Bool.and_eq_true,
      decide_eq_true_eq] at hheld
    exact hheld.2

/-- A parallel operation is admitted. -/
theorem Queue.Fits.concat_parallel (h : queue.Fits slots s) (hheld : x.heldIn s = true)
    (hpar : x.parallel = true) :
    ({ queue with
        size := queue.size + 1
        parallel := queue.parallel ++ [slots.length] } : Queue).Fits (slots ++ [x]) s := by
  have hp : x.parallelIn s = true := by simp [Slot.parallelIn, hheld, hpar]
  have hnew : slots.length ∉ queue.parallel := by
    intro hmem
    obtain ⟨y, hy, -⟩ := (h.parallel _).mp hmem
    exact absurd (List.getElem?_eq_some_iff.mp hy).1 (Nat.lt_irrefl _)
  refine ⟨?_, ?_, ?_, fun k => ?_, fun k y hy hyheld hyex => ?_, fun k hk => ?_⟩
  · rw [List.countP_append, List.countP_singleton, hheld, if_pos rfl, h.size]
  · rw [List.countP_append, List.countP_singleton, hp, if_pos rfl, List.length_append,
      h.parallel_length]
    rfl
  · exact List.nodup_append.mpr ⟨h.parallel_nodup, List.nodup_singleton _, by
      intro a ha b hb hab
      rw [List.mem_singleton.mp hb] at hab
      exact hnew (hab ▸ ha)⟩
  · rw [List.mem_append, h.parallel k, List.mem_singleton]
    simp only [getElem?_concat]
    constructor
    · rintro (⟨y, hy, hyp⟩ | rfl)
      · exact ⟨y, .inl hy, hyp⟩
      · exact ⟨x, .inr ⟨rfl, rfl⟩, hp⟩
    · rintro ⟨y, hy | ⟨rfl, -⟩, hyp⟩
      · exact .inl ⟨y, hy, hyp⟩
      · exact .inr rfl
  · rcases (getElem?_concat k y).mp hy with hy | ⟨-, rfl⟩
    · exact h.tail k y hy hyheld hyex
    · rw [hpar] at hyex
      cases hyex
  · obtain ⟨y, hy, hex, hys⟩ := h.tail_exclusive k hk
    exact ⟨y, (getElem?_concat k y).mpr (.inl hy), hex, hys⟩

end Slots

namespace Coordinator

variable {c c' : Coordinator} {s : String} {n m q : Nat} {o o' : Operation}

def slots (c : Coordinator) : List Slot := c.operations.map Operation.slot

/-- The operations of a session that hold a slot. -/
def admittedTo (c : Coordinator) (s : String) : Nat := c.slots.countP (·.heldIn s)

/-- The parallel ones among them. -/
def parallelIn (c : Coordinator) (s : String) : Nat := c.slots.countP (·.parallelIn s)

/-- An operation with a later phase. -/
structure Succeeds (o o' : Operation) : Prop where
  session : o'.session = o.session
  parallel : o'.parallel = o.parallel
  queue : o'.queue = o.queue
  awaits : o'.awaits = o.awaits
  started : o'.phase = .waiting → o.phase = .waiting
  admitted : o'.admitted = true → o.admitted = true
  completed : o.phase = .completed → o'.phase = .completed

theorem Succeeds.refl : Succeeds o o :=
  ⟨rfl, rfl, rfl, rfl, fun h => h, fun h => h, fun h => h⟩

/-! ## The order of admission -/

/-- What is known of the promises that operations wait for. -/
structure Ordered (ops : List Operation) : Prop where
  earlier : ∀ (n : Nat) (o : Operation), ops[n]? = some o → ∀ k ∈ o.awaits, k < n
  /-- Around an exclusive operation, the earlier one is over, or it is awaited, directly or
  through a later exclusive operation. -/
  covered : ∀ (n m : Nat) (o o' : Operation), n < m → ops[n]? = some o → ops[m]? = some o' →
    o.session.sessionId = o'.session.sessionId → o.parallel = false ∨ o'.parallel = false →
    o.admitted = true → n ∈ o'.awaits ∨ ∃ k ∈ o'.awaits, n < k ∧
      ∃ x : Operation, ops[k]? = some x ∧ x.parallel = false
        ∧ x.session.sessionId = o.session.sessionId
  waited : ∀ (n : Nat) (o : Operation), ops[n]? = some o → o.phase ≠ .waiting → ∀ k ∈ o.awaits,
    ∃ x : Operation, ops[k]? = some x ∧ x.phase = .completed

/-- **No overtaking.** An operation that has started has left behind every earlier one of its
session, if one of the two is exclusive. -/
theorem Ordered.before {ops : List Operation} (h : Ordered ops) (hnm : n < m)
    (hn : ops[n]? = some o) (hm : ops[m]? = some o')
    (hs : o.session.sessionId = o'.session.sessionId)
    (hx : o.parallel = false ∨ o'.parallel = false) (hstarted : o'.phase ≠ .waiting) :
    o.admitted = false := by
  -- Through the last exclusive operation before `m`, if it is not awaited itself.
  induction m using Nat.strongRecOn generalizing o' with
  | ind m ih =>
      by_contra hadmitted
      have hadmitted : o.admitted = true := by simpa using hadmitted
      rcases h.covered n m o o' hnm hn hm hs hx hadmitted with hk | ⟨k, hk, hnk, x, hx', hpar, hxs⟩
      · obtain ⟨x, hx', hcompleted⟩ := h.waited m o' hm hstarted n hk
        obtain rfl := Option.some.inj (hn.symm.trans hx')
        simp [Operation.admitted, hcompleted] at hadmitted
      · obtain ⟨y, hy, hcompleted⟩ := h.waited m o' hm hstarted k hk
        obtain rfl := Option.some.inj (hx'.symm.trans hy)
        have hfalse := ih k (h.earlier m o' hm k hk) hnk hx' hxs.symm (.inr hpar)
          (by rw [hcompleted]; decide)
        rw [hfalse] at hadmitted
        cases hadmitted

/-- The phases of some operations have advanced. -/
theorem Ordered.succeeds {ops ops' : List Operation} (h : Ordered ops)
    (hforth : ∀ (n : Nat) (o : Operation), ops[n]? = some o → ∃ o', ops'[n]? = some o' ∧ Succeeds o o')
    (hback : ∀ (n : Nat) (o' : Operation), ops'[n]? = some o' → ∃ o, ops[n]? = some o ∧ Succeeds o o')
    (hstart : ∀ (n : Nat) (o o' : Operation), ops[n]? = some o → ops'[n]? = some o' → o.phase = .waiting →
      o'.phase ≠ .waiting → ∀ k ∈ o.awaits,
        ∃ x : Operation, ops[k]? = some x ∧ x.phase = .completed) :
    Ordered ops' := by
  refine ⟨fun n o' ho' k hk => ?_, fun n m o₁' o₂' hnm h₁' h₂' hs hx hadmitted => ?_,
    fun n o' ho' hphase k hk => ?_⟩
  · obtain ⟨o, ho, hsucc⟩ := hback n o' ho'
    exact h.earlier n o ho k (hsucc.awaits ▸ hk)
  · obtain ⟨o₁, h₁, hs₁⟩ := hback n o₁' h₁'
    obtain ⟨o₂, h₂, hs₂⟩ := hback m o₂' h₂'
    rw [hs₁.session, hs₂.session] at hs
    rw [hs₁.parallel, hs₂.parallel] at hx
    rw [hs₂.awaits, hs₁.session]
    refine (h.covered n m o₁ o₂ hnm h₁ h₂ hs hx (hs₁.admitted hadmitted)).imp_right ?_
    rintro ⟨k, hk, hnk, x, hxk, hpar, hxs⟩
    obtain ⟨x', hx', hsx⟩ := hforth k x hxk
    exact ⟨k, hk, hnk, x', hx', hsx.parallel.trans hpar, (congrArg _ hsx.session).trans hxs⟩
  · obtain ⟨o, ho, hsucc⟩ := hback n o' ho'
    rw [hsucc.awaits] at hk
    have hdone : ∃ x : Operation, ops[k]? = some x ∧ x.phase = .completed := by
      by_cases hwaiting : o.phase = .waiting
      · exact hstart n o o' ho ho' hwaiting hphase k hk
      · exact h.waited n o ho hwaiting k hk
    obtain ⟨x, hx, hcompleted⟩ := hdone
    obtain ⟨x', hx', hsx⟩ := hforth k x hx
    exact ⟨x', hx', hsx.completed hcompleted⟩

/-- A new operation waits, for enough of the earlier ones. -/
theorem Ordered.concat {ops : List Operation} (h : Ordered ops) (hwaiting : o.phase = .waiting)
    (hearlier : ∀ k ∈ o.awaits, k < ops.length)
    (hcovered : ∀ (n : Nat) (x : Operation), ops[n]? = some x → x.session.sessionId = o.session.sessionId →
      x.parallel = false ∨ o.parallel = false → x.admitted = true → n ∈ o.awaits ∨
        ∃ k ∈ o.awaits, n < k ∧ ∃ y : Operation, ops[k]? = some y
          ∧ y.parallel = false ∧ y.session.sessionId = x.session.sessionId) :
    Ordered (ops ++ [o]) := by
  have hget : ∀ {n : Nat} {x : Operation}, (ops ++ [o])[n]? = some x →
      ops[n]? = some x ∨ n = ops.length ∧ x = o := by
    intro n x hx
    rw [List.getElem?_append] at hx
    split at hx
    · exact .inl hx
    · rw [List.getElem?_singleton] at hx
      split at hx
      · exact .inr ⟨by omega, (Option.some.inj hx).symm⟩
      · cases hx
  have hold : ∀ {n : Nat} {x : Operation}, ops[n]? = some x → (ops ++ [o])[n]? = some x := by
    intro n x hx
    rw [List.getElem?_append_left (List.getElem?_eq_some_iff.mp hx).1, hx]
  refine ⟨fun n x hx k hk => ?_, fun n m x y hnm hx hy hs hxy hadmitted => ?_,
    fun n x hx hphase k hk => ?_⟩
  · rcases hget hx with hx' | ⟨rfl, rfl⟩
    · exact h.earlier n x hx' k hk
    · exact hearlier k hk
  · rcases hget hx with hx' | ⟨rfl, rfl⟩
    · rcases hget hy with hy' | ⟨rfl, rfl⟩
      · refine (h.covered n m x y hnm hx' hy' hs hxy hadmitted).imp_right ?_
        rintro ⟨k, hk, hnk, z, hz, hrest⟩
        exact ⟨k, hk, hnk, z, hold hz, hrest⟩
      · refine (hcovered n x hx' hs hxy hadmitted).imp_right ?_
        rintro ⟨k, hk, hnk, z, hz, hrest⟩
        exact ⟨k, hk, hnk, z, hold hz, hrest⟩
    · rcases hget hy with hy' | ⟨rfl, rfl⟩
      · have := (List.getElem?_eq_some_iff.mp hy').1
        omega
      · omega
  · rcases hget hx with hx' | ⟨rfl, rfl⟩
    · obtain ⟨y, hy, hcompleted⟩ := h.waited n x hx' hphase k hk
      exact ⟨y, hold hy, hcompleted⟩
    · exact absurd hwaiting hphase

end Coordinator

end CostEngine
