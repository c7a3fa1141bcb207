import Mathlib.Data.Finset.Card
import Mathlib.Data.Finset.Dedup
import CostEngine.Deployment.PublicDemoHttp

/-! # The rate limiter is its specification -/

namespace CostEngine

open Relational (Table)

/-! ## One limiter

It is charged for a key in a window; `charges` are those so far. -/

namespace WindowLimit

variable {limit : WindowLimit} {charges : List (String × Int)} {key : String} {now window : Int}

/-! ## One limiter -/

/-- The limiter knows what was charged in its window, and it is not ahead of the time. -/
structure Reflects (limit : WindowLimit) (charges : List (String × Int)) (now : Int) : Prop where
  count : ∀ key, limit.countOf key = charges.count (key, limit.window)
  entries : ∀ key, limit.counts.get? key ≠ none ↔ (key, limit.window) ∈ charges
  past : ∀ charge ∈ charges, charge.2 ≤ limit.window
  ahead : limit.window ≤ now ∨ charges = []

/-- The keys that were charged in a window. -/
def keysIn (charges : List (String × Int)) (window : Int) : Finset String :=
  ((charges.filter (·.2 = window)).map (·.1)).toFinset

theorem mem_keysIn : key ∈ keysIn charges window ↔ (key, window) ∈ charges := by
  simp [keysIn]

/-! ### A new window -/

theorem new_reflects (maximum maxKeys : Nat) (now : Int) :
    (new maximum maxKeys).Reflects [] now where
  count key := by simp [countOf, new]
  entries key := by simp [new]
  past := nofun
  ahead := .inr rfl

theorem Reflects.later (h : limit.Reflects charges now) (hle : now ≤ window) :
    limit.Reflects charges window :=
  { h with ahead := h.ahead.imp_left fun hw => Int.le_trans hw hle }

theorem Reflects.enter (h : limit.Reflects charges window) :
    (limit.enter window).Reflects charges window ∧ (limit.enter window).window = window := by
  unfold WindowLimit.enter
  split
  · -- The window was entered by no request: what was charged is in earlier ones.
    rename_i hne
    have hnone : ∀ key, (key, window) ∉ charges := by
      intro key hmem
      rcases h.ahead with hle | rfl
      · have := h.past _ hmem
        exact hne (Int.le_antisymm this hle)
      · cases hmem
    refine ⟨⟨fun key => ?_, fun key => ?_, fun charge hmem => ?_, .inl (Int.le_refl _)⟩, rfl⟩
    · rw [List.count_eq_zero_of_not_mem (hnone key)]
      rfl
    · exact iff_of_false (fun hsome => hsome rfl) (hnone key)
    · rcases h.ahead with hle | rfl
      · exact Int.le_trans (h.past charge hmem) hle
      · cases hmem
  · rename_i hsame
    exact ⟨h, (not_not.mp hsame).symm⟩

/-! ### Counting the keys -/

/-- There is one entry for each key that was charged. -/
theorem Reflects.length (h : limit.Reflects charges now) :
    limit.counts.rows.length = (keysIn charges limit.window).card := by
  have hset : (limit.counts.rows.map (·.key)).toFinset = keysIn charges limit.window := by
    ext key
    rw [mem_keysIn, ← h.entries, List.mem_toFinset, List.mem_map, Option.ne_none_iff_exists']
    constructor
    · -- The table has one row per key that was charged in the window.
      rintro ⟨entry, hentry, rfl⟩
      exact ⟨entry, Table.get?_of_mem hentry⟩
    · rintro ⟨entry, hentry⟩
      exact ⟨entry, Table.get?_mem hentry, Table.get?_key hentry⟩
  rw [← hset, List.toFinset_card_of_nodup limit.counts.nodup, List.length_map]

/-- A key is within the limit, and there is room for it. -/
def Allows (limit : WindowLimit) (charges : List (String × Int)) (key : String) (window : Int) :
    Prop :=
  charges.count (key, window) < limit.maximum
    ∧ ((key, window) ∈ charges ∨ (keysIn charges window).card < limit.maxKeys)

theorem enter_limits : (limit.enter window).maximum = limit.maximum
    ∧ (limit.enter window).maxKeys = limit.maxKeys := by
  unfold WindowLimit.enter
  split
  · exact ⟨rfl, rfl⟩
  · exact ⟨rfl, rfl⟩

/-! ### Availability and charges -/

theorem Reflects.available_iff (h : limit.Reflects charges window) (key : String) :
    (limit.available key window).1 = true ↔ limit.Allows charges key window := by
  obtain ⟨hentered, hwindow⟩ := h.enter
  obtain ⟨hmaximum, hmaxKeys⟩ := enter_limits
  show (decide (_ < _) && _) = true ↔ _
  rw [Bool.and_eq_true, Bool.or_eq_true, decide_eq_true_eq, decide_eq_true_eq, decide_eq_true_eq,
    hentered.count, hentered.length, hwindow, hmaximum, hmaxKeys]
  exact and_congr_right fun _ => or_congr_left List.count_pos_iff

theorem Reflects.consume (h : limit.Reflects charges now) (hnow : limit.window ≤ now)
    (key : String) : (limit.consume key).Reflects (charges ++ [(key, limit.window)]) now := by
  have hget : ∀ k, (limit.consume key).counts.get? k
      = if key = k then some ⟨key, limit.countOf key + 1⟩ else limit.counts.get? k :=
    fun k => Table.get?_set
  refine ⟨fun k => ?_, fun k => ?_, fun charge hmem => ?_, .inl hnow⟩
  · show (((limit.consume key).counts.get? k).map (·.count)).getD 0
      = (charges ++ [(key, limit.window)]).count (k, limit.window)
    -- The row of the key counts one more.
    rw [hget, List.count_append, List.count_singleton, ← h.count]
    split
    · rename_i hk
      simp [hk]
    · rename_i hk
      simp [hk, WindowLimit.countOf]
  · show _ ↔ (k, limit.window) ∈ charges ++ [(key, limit.window)]
    rw [hget, List.mem_append, List.mem_singleton, ← h.entries]
    split
    · rename_i hk
      simp [hk]
    · rename_i hk
      simp [Ne.symm hk]
  · rcases List.mem_append.mp hmem with hmem | hmem
    · exact h.past charge hmem
    · -- What is charged is in the window of the limiter.
      cases List.mem_singleton.mp hmem
      exact Int.le_refl _

end WindowLimit

/-! ## Mutations -/

/-- A `POST` that is let through, or would be within the budgets. -/
structure Mutation where
  address : String
  /-- The minute. -/
  window : Int
  creation : Bool
  deriving DecidableEq

/-- The addresses of some mutations. -/
def addresses (mutations : List Mutation) : Finset String := (mutations.map (·.address)).toFinset

/-- `m` is within the budgets after the mutations that were let through. -/
def Admissible (config : PublicDemoConfig) (earlier : List Mutation) (m : Mutation) : Prop :=
  let sameWindow := earlier.filter (·.window = m.window)
  let creations := sameWindow.filter (·.creation)
  (sameWindow.filter (·.address = m.address)).length < config.mutationsPerMinute
    ∧ sameWindow.length < config.globalMutationsPerMinute
    ∧ (m.address ∈ addresses sameWindow ∨ (addresses sameWindow).card < 4096)
    ∧ (m.creation = true →
      (creations.filter (·.address = m.address)).length < config.createsPerMinute
        ∧ (m.address ∈ addresses creations ∨ (addresses creations).card < 4096))

namespace PublicDemoLimits

variable {config : PublicDemoConfig} {limits : PublicDemoLimits} {earlier : List Mutation}
  {window : Int} {address : String} {creation : Bool} {now : Int}

/-! ### The budgets together -/

def charges (earlier : List Mutation) : List (String × Int) :=
  earlier.map fun m => (m.address, m.window)

def globalCharges (earlier : List Mutation) : List (String × Int) :=
  earlier.map fun m => ("all", m.window)

structure Reflects (config : PublicDemoConfig) (limits : PublicDemoLimits)
    (earlier : List Mutation) (now : Int) : Prop where
  creates : limits.creates.Reflects (charges (earlier.filter (·.creation))) now
  mutations : limits.mutations.Reflects (charges earlier) now
  global : limits.global.Reflects (globalCharges earlier) now
  createsPerMinute : limits.creates.maximum = config.createsPerMinute ∧ limits.creates.maxKeys = 4096
  mutationsPerMinute : limits.mutations.maximum = config.mutationsPerMinute
    ∧ limits.mutations.maxKeys = 4096
  globalMutationsPerMinute : limits.global.maximum = config.globalMutationsPerMinute
    ∧ limits.global.maxKeys = 1

theorem new_reflects (config : PublicDemoConfig) (now : Int) :
    (new config).Reflects config [] now where
  creates := WindowLimit.new_reflects _ _ now
  mutations := WindowLimit.new_reflects _ _ now
  global := WindowLimit.new_reflects _ _ now
  createsPerMinute := ⟨rfl, rfl⟩
  mutationsPerMinute := ⟨rfl, rfl⟩
  globalMutationsPerMinute := ⟨rfl, rfl⟩

theorem Reflects.later (h : limits.Reflects config earlier now) (hle : now ≤ window) :
    limits.Reflects config earlier window where
  creates := h.creates.later hle
  mutations := h.mutations.later hle
  global := h.global.later hle
  createsPerMinute := h.createsPerMinute
  mutationsPerMinute := h.mutationsPerMinute
  globalMutationsPerMinute := h.globalMutationsPerMinute

/-! ### Counts and keys of the mutations -/

theorem count_charges : (charges earlier).count (address, window)
    = ((earlier.filter (·.window = window)).filter (·.address = address)).length := by
  rw [charges, List.count_eq_length_filter, List.filter_map, List.length_map, List.filter_filter]
  rfl

theorem keysIn_charges : WindowLimit.keysIn (charges earlier) window
    = addresses (earlier.filter (·.window = window)) := by
  rw [WindowLimit.keysIn, charges, addresses, List.filter_map, List.map_map]
  rfl

theorem count_globalCharges : (globalCharges earlier).count ("all", window)
    = (earlier.filter (·.window = window)).length := by
  rw [globalCharges, List.count_eq_length_filter, List.filter_map, List.length_map]
  rfl

/-! ### What each budget allows -/

/-- The limiter of the addresses. -/
theorem allows_charges {limit : WindowLimit} {maximum : Nat}
    (hmaximum : limit.maximum = maximum ∧ limit.maxKeys = 4096) :
    limit.Allows (charges earlier) address window ↔
      ((earlier.filter (·.window = window)).filter (·.address = address)).length < maximum
        ∧ (address ∈ addresses (earlier.filter (·.window = window))
          ∨ (addresses (earlier.filter (·.window = window))).card < 4096) := by
  rw [WindowLimit.Allows, count_charges, ← WindowLimit.mem_keysIn, keysIn_charges, hmaximum.1,
    hmaximum.2]

/-- The limiter of all together has one key. -/
theorem allows_global {limit : WindowLimit} {maximum : Nat}
    (hmaximum : limit.maximum = maximum ∧ limit.maxKeys = 1) :
    limit.Allows (globalCharges earlier) "all" window ↔
      (earlier.filter (·.window = window)).length < maximum := by
  rw [WindowLimit.Allows, count_globalCharges, hmaximum.1, hmaximum.2]
  refine and_iff_left ?_
  by_cases hmem : ("all", window) ∈ globalCharges earlier
  · exact .inl hmem
  · refine .inr ?_
    -- There is one key, so with no charge there is room for it.
    have hempty : WindowLimit.keysIn (globalCharges earlier) window = ∅ := by
      refine Finset.eq_empty_of_forall_notMem fun key hkey => hmem ?_
      obtain ⟨m, hm, heq⟩ := List.mem_map.mp (WindowLimit.mem_keysIn.mp hkey)
      refine List.mem_map.mpr ⟨m, hm, ?_⟩
      rw [(Prod.mk.inj heq).2]
    simp [hempty]

section Mutate

variable (h : limits.Reflects config earlier (now / 60000))

include h

/-! ### One mutation -/

/-- All budgets are consulted in the window of the mutation. -/
theorem Reflects.enter : Reflects config ⟨limits.creates.enter (now / 60000),
    limits.mutations.enter (now / 60000), limits.global.enter (now / 60000)⟩ earlier
    (now / 60000) := by
  -- Entering a window leaves the limits as they were.
  have hmaxima : ∀ {limit : WindowLimit} {a b : Nat}, limit.maximum = a ∧ limit.maxKeys = b →
      (limit.enter (now / 60000)).maximum = a ∧ (limit.enter (now / 60000)).maxKeys = b := by
    intro limit a b hlimit
    obtain ⟨h₁, h₂⟩ := WindowLimit.enter_limits
    exact ⟨h₁.trans hlimit.1, h₂.trans hlimit.2⟩
  exact ⟨h.creates.enter.1, h.mutations.enter.1, h.global.enter.1, hmaxima h.createsPerMinute,
    hmaxima h.mutationsPerMinute, hmaxima h.globalMutationsPerMinute⟩

theorem Reflects.admissible_iff : Admissible config earlier ⟨address, now / 60000, creation⟩ ↔
    (creation = true → (limits.creates.available address (now / 60000)).1 = true)
      ∧ (limits.mutations.available address (now / 60000)).1 = true
      ∧ (limits.global.available "all" (now / 60000)).1 = true := by
  have hswap : (earlier.filter (·.creation)).filter (·.window = now / 60000)
      = (earlier.filter (·.window = now / 60000)).filter (·.creation) := by
    rw [List.filter_filter, List.filter_filter]
    exact List.filter_congr fun m _ => Bool.and_comm _ _
  rw [h.creates.available_iff, h.mutations.available_iff, h.global.available_iff,
    allows_charges h.createsPerMinute, allows_charges h.mutationsPerMinute,
    allows_global h.globalMutationsPerMinute, hswap]
  exact ⟨fun ⟨hmutations, hglobal, hkeys, hcreates⟩ => ⟨hcreates, ⟨hmutations, hkeys⟩, hglobal⟩,
    fun ⟨hcreates, ⟨hmutations, hkeys⟩, hglobal⟩ => ⟨hmutations, hglobal, hkeys, hcreates⟩⟩

/-- What is let through is charged to all budgets that were consulted. -/
theorem Reflects.consume {creates : WindowLimit}
    (hcreates : creates = if creation then (limits.creates.enter (now / 60000)).consume address
      else limits.creates) :
    Reflects config ⟨creates, (limits.mutations.enter (now / 60000)).consume address,
      (limits.global.enter (now / 60000)).consume "all"⟩
      (earlier ++ [⟨address, now / 60000, creation⟩]) (now / 60000) := by
  have hentered := h.enter
  have hmutations := hentered.mutations.consume (Int.le_of_eq h.mutations.enter.2) address
  have hglobal := hentered.global.consume (Int.le_of_eq h.global.enter.2) "all"
  rw [h.mutations.enter.2] at hmutations
  rw [h.global.enter.2] at hglobal
  refine ⟨?_, ?_, ?_, ?_, hentered.mutationsPerMinute, hentered.globalMutationsPerMinute⟩
  · -- Only a creation is charged to the budget of the creations.
    subst hcreates
    cases creation with
    | true =>
        have hcreate := hentered.creates.consume (Int.le_of_eq h.creates.enter.2) address
        rw [h.creates.enter.2] at hcreate
        simpa [charges] using hcreate
    | false => simpa using h.creates
  · simpa [charges] using hmutations
  · simpa [globalCharges] using hglobal
  · subst hcreates
    cases creation with
    | true => exact hentered.createsPerMinute
    | false => exact h.createsPerMinute

/-- The mutation is let through when all budgets allow it. -/
theorem Reflects.mutate : let answer := limits.mutate creation address now
    (answer.1 = .through ↔ Admissible config earlier ⟨address, now / 60000, creation⟩)
      ∧ (answer.1 ≠ .through → answer.1 = .rateLimited)
      ∧ answer.2.Reflects config (earlier
        ++ if answer.1 = .through then [⟨address, now / 60000, creation⟩] else []) (now / 60000) := by
  have hentered := h.enter
  rw [h.admissible_iff]
  -- The three answers are read off the budgets in the order they are consulted.
  have hrejected : ∀ {limits' : PublicDemoLimits} {p : Prop}, limits'.Reflects config earlier
      (now / 60000) → ¬ p →
      (HookAnswer.rateLimited = .through ↔ p)
        ∧ (HookAnswer.rateLimited ≠ .through → HookAnswer.rateLimited = .rateLimited)
        ∧ limits'.Reflects config (earlier ++ if HookAnswer.rateLimited = .through
          then [⟨address, now / 60000, creation⟩] else []) (now / 60000) :=
    fun hreflects hnot => ⟨⟨nofun, fun hp => absurd hp hnot⟩, fun _ => rfl,
      (List.append_nil earlier).symm ▸ hreflects⟩
  have hpair : ∀ {limit : WindowLimit} {key : String} {allowed : Bool},
      (limit.available key (now / 60000)).1 = allowed →
      limit.available key (now / 60000) = (allowed, limit.enter (now / 60000)) :=
    fun hallowed => Prod.ext hallowed rfl
  unfold PublicDemoLimits.mutate
  dsimp only
  by_cases hcreate : creation = true → (limits.creates.available address (now / 60000)).1 = true
  -- The budget of the creations is exhausted.
  swap
  · obtain ⟨rfl, hdenied⟩ := Classical.not_imp.mp hcreate
    rw [if_pos rfl, hpair (Bool.eq_false_iff.mpr hdenied)]
    exact hrejected ⟨hentered.creates, h.mutations, h.global, hentered.createsPerMinute,
      h.mutationsPerMinute, h.globalMutationsPerMinute⟩ fun hall => Bool.false_ne_true (hall.1 rfl)
  have hfirst : (if creation = true then limits.creates.available address (now / 60000)
      else (true, limits.creates)) = (true, if creation = true
        then limits.creates.enter (now / 60000) else limits.creates) := by
    split
    · exact hpair (hcreate ‹_›)
    · rfl
  have hentered' : Reflects config ⟨if creation = true then limits.creates.enter (now / 60000)
      else limits.creates, limits.mutations.enter (now / 60000),
      limits.global.enter (now / 60000)⟩ earlier (now / 60000) := by
    split
    · exact hentered
    · exact ⟨h.creates, hentered.mutations, hentered.global, h.createsPerMinute,
        hentered.mutationsPerMinute, hentered.globalMutationsPerMinute⟩
  rw [hfirst]
  dsimp only
  rw [Bool.not_true, if_neg Bool.false_ne_true]
  -- The budget of the address, then the one of all together.
  cases hmutation : (limits.mutations.available address (now / 60000)).1 with
  | false =>
      rw [hpair hmutation]
      exact hrejected ⟨hentered'.creates, hentered'.mutations, h.global,
        hentered'.createsPerMinute, hentered'.mutationsPerMinute, h.globalMutationsPerMinute⟩
        fun hall => Bool.false_ne_true hall.2.1
  | true =>
      rw [hpair hmutation]
      dsimp only
      rw [Bool.not_true, if_neg Bool.false_ne_true]
      cases hglobal : (limits.global.available "all" (now / 60000)).1 with
      | false =>
          rw [hpair hglobal]
          exact hrejected hentered' fun hall => Bool.false_ne_true hall.2.2
      | true =>
          rw [hpair hglobal]
          refine ⟨⟨fun _ => ⟨hcreate, rfl, rfl⟩, fun _ => rfl⟩, fun hnot => absurd rfl hnot, ?_⟩
          refine h.consume ?_
          cases creation with
          | true => rfl
          | false => rfl

end Mutate

end PublicDemoLimits

/-! ## The hook -/

section Hook

variable (isIP : String → Bool) (config : PublicDemoConfig)

/-- The mutation that a request is, if it passes the checks before the budgets. -/
def mutation? (request : HttpRequest) (now : Int) : Option Mutation :=
  match request.checked isIP config with
  | .ok (some address) =>
      if request.method = "POST" then some ⟨address, now / 60000, request.path = "/demo/sessions"⟩
      else none
  | _ => none

/-! ### The mutations of a run -/

/-- The mutations that are let through. -/
def admitted : PublicDemoLimits → List (HttpRequest × Int) → List Mutation
  | _, [] => []
  | limits, (request, now) :: rest =>
      (if (onRequest isIP config limits request now).1 = .through
          then (mutation? isIP config request now).toList else [])
        ++ admitted (onRequest isIP config limits request now).2 rest

structure ExactLimits (requests : List (HttpRequest × Int)) : Prop where
  decision : ∀ earlier request now later m, requests = earlier ++ (request, now) :: later →
    mutation? isIP config request now = some m →
    ((onRequest isIP config (limitsAfter isIP config (.new config) earlier) request now).1 = .through
      ↔ Admissible config (admitted isIP config (.new config) earlier) m)
  /-- Without a request that is rejected, the later ones are answered the same. -/
  rejection : ∀ earlier request now later, requests = earlier ++ (request, now) :: later →
    (onRequest isIP config (limitsAfter isIP config (.new config) earlier) request now).1 ≠ .through →
    answers isIP config (limitsAfter isIP config (.new config) (earlier ++ [(request, now)])) later
      = answers isIP config (limitsAfter isIP config (.new config) earlier) later

variable {isIP config} {limits limits' : PublicDemoLimits} {requests : List (HttpRequest × Int)}
  {request : HttpRequest} {earlier : List Mutation} {now window : Int} {m : Mutation}

/-! ### Requests that are no mutation -/

/-- A request that is no mutation does not touch the budgets, nor do they touch its answer. -/
theorem onRequest_of_none (h : mutation? isIP config request now = none) :
    ∃ answer, ∀ limits, onRequest isIP config limits request now = (answer, limits) := by
  unfold mutation? at h
  unfold onRequest
  cases hchecked : request.checked isIP config with
  | error answer => exact ⟨answer, fun _ => rfl⟩
  | ok address =>
      rw [hchecked] at h
      cases address with
      | none => exact ⟨.through, fun _ => rfl⟩
      | some address =>
          dsimp only at h ⊢
          split at h
          · cases h
          · rename_i hmethod
            exact ⟨.through, fun _ => if_neg hmethod⟩

theorem onRequest_of_some (h : mutation? isIP config request now = some m) :
    m.window = now / 60000 ∧ ∀ limits, onRequest isIP config limits request now
      = limits.mutate m.creation m.address now := by
  unfold mutation? at h
  unfold onRequest
  cases hchecked : request.checked isIP config with
  | error answer =>
      rw [hchecked] at h
      cases h
  | ok address =>
      rw [hchecked] at h
      cases address with
      | none => cases h
      | some address =>
          dsimp only at h ⊢
          split at h
          · rename_i hmethod
            cases h
            exact ⟨rfl, fun _ => if_pos hmethod⟩
          · cases h

/-! ### One request -/

/-- One request, whatever it is. -/
theorem onRequest_reflects (h : limits.Reflects config earlier (now / 60000)) :
    (∀ m, mutation? isIP config request now = some m →
        ((onRequest isIP config limits request now).1 = .through ↔ Admissible config earlier m)
          ∧ ((onRequest isIP config limits request now).1 ≠ .through →
            (onRequest isIP config limits request now).1 = .rateLimited))
      ∧ (onRequest isIP config limits request now).2.Reflects config (earlier
        ++ if (onRequest isIP config limits request now).1 = .through
          then (mutation? isIP config request now).toList else []) (now / 60000) := by
  cases hm : mutation? isIP config request now with
  | none =>
      obtain ⟨answer, hanswer⟩ := onRequest_of_none hm
      refine ⟨nofun, ?_⟩
      rw [hanswer]
      -- Nothing is charged, whatever the answer is.
      split
      · rw [Option.toList_none, List.append_nil]
        exact h
      · rw [List.append_nil]
        exact h
  | some m =>
      obtain ⟨hwindow, hanswer⟩ := onRequest_of_some hm
      obtain ⟨address, _, creation⟩ := m
      obtain rfl := hwindow
      obtain ⟨hiff, hlimited, hreflects⟩ := h.mutate
      rw [hanswer]
      exact ⟨fun m' hm' => by cases hm'; exact ⟨hiff, hlimited⟩, hreflects⟩

/-! ### The run -/

theorem sorted_head {requests : List (HttpRequest × Int)}
    (h : ((request, now) :: requests).Pairwise (·.2 ≤ ·.2)) :
    ∀ r ∈ requests, now / 60000 ≤ r.2 / 60000 :=
  fun r hr => Int.ediv_le_ediv (by decide) ((List.pairwise_cons.mp h).1 r hr)

theorem reflects_after (hsorted : requests.Pairwise (·.2 ≤ ·.2)) : ∀ {limits earlier},
    limits.Reflects config earlier window → (∀ r ∈ requests, window ≤ r.2 / 60000) →
    (∀ r ∈ requests, r.2 / 60000 ≤ now / 60000) → window ≤ now / 60000 →
    (limitsAfter isIP config limits requests).Reflects config
      (earlier ++ admitted isIP config limits requests) (now / 60000) := by
  induction requests generalizing window with
  -- Induction on the requests: the windows only grow.
  | nil =>
      intro limits earlier h _ _ hnow
      rw [admitted, List.append_nil]
      exact h.later hnow
  | cons r requests ih =>
      obtain ⟨request, time⟩ := r
      intro limits earlier h hwindow hlast hnow
      obtain ⟨-, hstep⟩ := onRequest_reflects
        (h.later (hwindow _ List.mem_cons_self))
      have hrest := ih (List.pairwise_cons.mp hsorted).2 hstep (sorted_head hsorted)
        (fun r hr => hlast r (List.mem_cons_of_mem _ hr)) (hlast _ List.mem_cons_self)
      rw [admitted, ← List.append_assoc]
      exact hrest

/-- Limiters that reflect the same mutations answer the same. -/
theorem answers_congr (hsorted : requests.Pairwise (·.2 ≤ ·.2)) : ∀ {limits limits' earlier},
    limits.Reflects config earlier window → limits'.Reflects config earlier window →
    (∀ r ∈ requests, window ≤ r.2 / 60000) →
    answers isIP config limits requests = answers isIP config limits' requests := by
  induction requests generalizing window with
  | nil => exact fun _ _ _ => rfl
  | cons r requests ih =>
      obtain ⟨request, time⟩ := r
      intro limits limits' earlier h h' hwindow
      have hle := hwindow _ List.mem_cons_self
      obtain ⟨hiff, hstep⟩ := onRequest_reflects (h.later hle)
      obtain ⟨hiff', hstep'⟩ := onRequest_reflects (h'.later hle)
      have hsame : (onRequest isIP config limits request time).1
          = (onRequest isIP config limits' request time).1 := by
        cases hm : mutation? isIP config request time with
        -- Not a mutation: the answer does not depend on the budgets.
        | none =>
            obtain ⟨answer, hanswer⟩ := onRequest_of_none hm
            rw [hanswer, hanswer]
        | some m =>
            obtain ⟨hthrough, hlimited⟩ := hiff m hm
            obtain ⟨hthrough', hlimited'⟩ := hiff' m hm
            -- Both let it through, or both do not.
            by_cases hadmissible : Admissible config earlier m
            · rw [hthrough.mpr hadmissible, hthrough'.mpr hadmissible]
            · rw [hlimited (hthrough.not.mpr hadmissible), hlimited' (hthrough'.not.mpr hadmissible)]
      rw [answers, answers, hsame]
      congr 1
      rw [← hsame] at hstep'
      exact ih (List.pairwise_cons.mp hsorted).2 hstep hstep' (sorted_head hsorted)

/-! ### The result -/

theorem limitsAfter_append (limits : PublicDemoLimits) (requests later : List (HttpRequest × Int)) :
    limitsAfter isIP config limits (requests ++ later)
      = limitsAfter isIP config (limitsAfter isIP config limits requests) later := by
  induction requests generalizing limits with
  | nil => rfl
  | cons r requests ih =>
      obtain ⟨request, now⟩ := r
      rw [List.cons_append, limitsAfter, limitsAfter]
      exact ih _

/-- The hook keeps to its budgets, over every sequence of requests in the order of their times. -/
theorem rate_limits_exact (hsorted : requests.Pairwise (·.2 ≤ ·.2)) :
    ExactLimits isIP config requests := by
  have hreflects : ∀ {earlier request now later}, requests = earlier ++ (request, now) :: later →
      (limitsAfter isIP config (.new config) earlier).Reflects config
        (admitted isIP config (.new config) earlier) (now / 60000) := by
    rintro earlier request now later rfl
    obtain ⟨hearlier, -, hle⟩ := List.pairwise_append.mp hsorted
    obtain ⟨window, hwindow, hnow⟩ : ∃ window : Int, (∀ r ∈ earlier, window ≤ r.2 / 60000)
        ∧ window ≤ now / 60000 := by
      -- The limits begin in the window of the first request, or in this one.
      cases earlier with
      | nil => exact ⟨now / 60000, fun _ hr => absurd hr List.not_mem_nil, Int.le_refl _⟩
      | cons r earlier =>
          refine ⟨r.2 / 60000, fun r' hr' => ?_,
            Int.ediv_le_ediv (by decide) (hle r List.mem_cons_self _ List.mem_cons_self)⟩
          rcases List.mem_cons.mp hr' with rfl | hr'
          · exact Int.le_refl _
          · exact sorted_head hearlier r' hr'
    have hafter : (limitsAfter isIP config (.new config) earlier).Reflects config
        ([] ++ admitted isIP config (.new config) earlier) (now / 60000) :=
      reflects_after hearlier (PublicDemoLimits.new_reflects config window) hwindow
        (fun r hr => Int.ediv_le_ediv (by decide) (hle r hr _ List.mem_cons_self)) hnow
    rwa [List.nil_append] at hafter
  refine ⟨fun earlier request now later m heq hm => ?_, fun earlier request now later heq hnot => ?_⟩
  · exact ((onRequest_reflects (hreflects heq)).1 m hm).1
  · -- A rejected request is not charged, so the limits reflect the same mutations.
    have h := hreflects heq
    obtain ⟨-, hstep⟩ := onRequest_reflects h
    rw [if_neg hnot, List.append_nil] at hstep
    rw [limitsAfter_append, limitsAfter, limitsAfter]
    subst heq
    have hrest := (List.pairwise_append.mp hsorted).2.1
    exact answers_congr (List.pairwise_cons.mp hrest).2 hstep h (sorted_head hrest)

/-! ### A sample -/

/-- Two mutations of an address whose budget is one, and another address in the same minute. -/
def sampleRequest (url address : String) : HttpRequest where
  method := "POST"
  url := url
  remoteAddress := none
  proxyKey := .single "secret"
  clientIp := .single address
  secFetchSite := .absent
  origin := .single "https://demo.example"
  demoSession := .single "1"

theorem rate_limits_exact_sample : ∃ config requests,
    answers (fun _ => true) config (.new config) requests
        = [.through, .rateLimited, .through, .through]
      ∧ ExactLimits (fun _ => true) config requests := by
  refine ⟨⟨"secret", "https://demo.example", 1, 1, 2⟩,
    [(sampleRequest "/demo/sessions" "192.0.2.1", 60000),
      (sampleRequest "/demo/operation" "192.0.2.1", 60001),
      (sampleRequest "/demo/operation" "192.0.2.2", 60002),
      (sampleRequest "/demo/operation" "192.0.2.1", 120000)], by decide +kernel,
    rate_limits_exact (by simp)⟩

end Hook

end CostEngine
