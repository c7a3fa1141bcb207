import CostEngine.Store.Schema

/-! # The history of a job

The status of a job is a summary of its attempts. `jobStatusOf` is that summary, and
`History` says which lists of attempts are possible: numbered from one in the order they
were created, with every attempt before the newest over without success. The lemmas below
are the steps of a job's life in these terms: prepare an attempt, and move the newest one
on. -/

namespace CostEngine

/-- An attempt that ended without success, so that another may follow. -/
def ExecutionAttemptStatus.isDead : ExecutionAttemptStatus → Bool
  | .failed | .dispatchFailed => true
  | _ => false

def jobStatusOf (statuses : List ExecutionAttemptStatus) : CalculationJobStatus :=
  match statuses.getLast? with
  | some .accepted => .running
  | some .succeeded => .succeeded
  | _ => if .failed ∈ statuses then .failed else .pending

structure History (attempts : List ExecutionAttempt) (status : CalculationJobStatus) :
    Prop where
  numbered : attempts.map (·.attemptNumber) = List.range' 1 attempts.length
  closed : ∀ a ∈ attempts.dropLast, a.status.isDead = true
  status : status = jobStatusOf (attempts.map (·.status))

/-! ## Reading a history -/

/-! ### The status that a list of attempts asks for -/

theorem jobStatusOf_append (xs : List ExecutionAttemptStatus) (x : ExecutionAttemptStatus) :
    jobStatusOf (xs ++ [x]) = match x with
      | .accepted => .running
      | .succeeded => .succeeded
      | .failed => .failed
      | _ => if .failed ∈ xs then .failed else .pending := by
  cases x <;> simp [jobStatusOf]

/-- Between attempts the job waits, having failed before or not. -/
theorem jobStatusOf_dead {xs : List ExecutionAttemptStatus}
    (h : ∀ x ∈ xs, x.isDead = true) :
    jobStatusOf xs = if .failed ∈ xs then .failed else .pending := by
  rcases List.eq_nil_or_concat xs with rfl | ⟨init, x, rfl⟩
  · rfl
  · rw [List.concat_eq_append] at h ⊢
    -- A dead last attempt has failed or was rejected, and only the first shows in the job.
    have hx := h x (by simp)
    rw [jobStatusOf_append]
    cases x <;> simp_all [ExecutionAttemptStatus.isDead]

theorem jobStatusOf_eq_running {xs : List ExecutionAttemptStatus} :
    jobStatusOf xs = .running ↔ xs.getLast? = some .accepted := by
  unfold jobStatusOf
  split
  · simp [*]
  · simp [*]
  · -- The last attempt decides, unless it says nothing of the job.
    rename_i h₁ h₂
    refine ⟨fun h => ?_, fun h => absurd h h₁⟩
    split at h <;> cases h

theorem jobStatusOf_eq_succeeded {xs : List ExecutionAttemptStatus} :
    jobStatusOf xs = .succeeded ↔ xs.getLast? = some .succeeded := by
  unfold jobStatusOf
  split
  · simp [*]
  · simp [*]
  · rename_i h₁ h₂
    refine ⟨fun h => ?_, fun h => absurd h h₂⟩
    split at h <;> cases h

namespace History

variable {attempts : List ExecutionAttempt} {a b : ExecutionAttempt}
variable {status : CalculationJobStatus}

theorem nil : History [] .pending := ⟨rfl, by simp, rfl⟩

/-! ### The newest attempt -/

/-- Only the newest attempt can be anything but dead. -/
theorem eq_append_of_not_dead (h : History attempts status) (ha : a ∈ attempts)
    (hdead : a.status.isDead = false) : ∃ init, attempts = init ++ [a] := by
  rcases List.eq_nil_or_concat attempts with rfl | ⟨init, x, rfl⟩
  · cases ha
  · rw [List.concat_eq_append] at ha h ⊢
    rcases List.mem_append.mp ha with ha | ha
    · -- An earlier attempt is dead.
      have := h.closed a (by simpa using ha)
      rw [this] at hdead
      cases hdead
    · exact ⟨init, by rw [List.mem_singleton.mp ha]⟩

theorem init_dead {init : List ExecutionAttempt} (h : History (init ++ [a]) status) :
    ∀ b ∈ init, b.status.isDead = true := fun b hb => h.closed b (by simpa using hb)

theorem last_number {init : List ExecutionAttempt} (h : History (init ++ [a]) status) :
    a.attemptNumber = init.length + 1 := by
  have := congrArg List.getLast? h.numbered
  rw [List.map_append, List.map_singleton, List.getLast?_append, List.length_append,
    List.length_singleton, List.range'_concat] at this
  simpa [Nat.add_comm] using this

theorem init_numbered {init : List ExecutionAttempt} (h : History (init ++ [a]) status) :
    init.map (·.attemptNumber) = List.range' 1 init.length := by
  have := congrArg List.dropLast h.numbered
  rw [List.map_append, List.map_singleton, List.dropLast_concat, List.length_append,
    List.length_singleton, List.range'_concat, List.dropLast_concat] at this
  exact this

/-! ### Numbers -/

theorem number_pos (h : History attempts status) (ha : a ∈ attempts) :
    1 ≤ a.attemptNumber ∧ a.attemptNumber ≤ attempts.length := by
  have : a.attemptNumber ∈ List.range' 1 attempts.length := by
    rw [← h.numbered]
    exact List.mem_map_of_mem ha
  rw [List.mem_range'_1] at this
  omega

/-- `COALESCE(MAX(attempt_number), 0) + 1` is the next number. -/
theorem max_number (h : History attempts status) :
    (attempts.map (·.attemptNumber)).foldr max 0 = attempts.length := by
  rw [h.numbered]
  -- On the run of numbers the maximum is the last, by induction on its length.
  generalize attempts.length = n
  suffices ∀ k, 0 < n → (List.range' k n).foldr max 0 = k + n - 1 by
    cases n with
    | zero => rfl
    | succ n => rw [this 1 (Nat.succ_pos n)]; omega
  clear h
  induction n with
  | zero => intro k hk; cases hk
  | succ n ih =>
      intro k _
      rw [List.range'_succ, List.foldr_cons]
      rcases Nat.eq_zero_or_pos n with rfl | hn
      · simp
      · rw [ih (k + 1) hn]; omega

/-- The newest attempt is the one with the highest number. -/
theorem newer_iff {init : List ExecutionAttempt} (h : History (init ++ [a]) status)
    (hb : b ∈ init ++ [a]) :
    (∃ c ∈ init ++ [a], b.attemptNumber < c.attemptNumber) ↔ b ∈ init := by
  have hlast := h.last_number
  constructor
  · -- A number above that of the newest would be above the count.
    rintro ⟨c, hc, hlt⟩
    have hmax := (h.number_pos hc).2
    rcases List.mem_append.mp hb with hb | hb
    · exact hb
    · rw [List.mem_singleton.mp hb, hlast] at hlt
      rw [List.length_append, List.length_singleton] at hmax
      omega
  · intro hb
    refine ⟨a, by simp, ?_⟩
    have : b.attemptNumber ∈ List.range' 1 init.length := by
      rw [← h.init_numbered]
      exact List.mem_map_of_mem hb
    rw [List.mem_range'_1] at this
    omega

/-! ## The status of the job and of its attempts -/

theorem last_status (h : History attempts status) {x : ExecutionAttemptStatus}
    (hx : x.isDead = false) :
    (attempts.map (·.status)).getLast? = some x ↔ ∃ a ∈ attempts, a.status = x := by
  constructor
  · intro hl
    rw [List.getLast?_map, Option.map_eq_some_iff] at hl
    obtain ⟨a, ha, hax⟩ := hl
    exact ⟨a, List.mem_of_getLast? ha, hax⟩
  · rintro ⟨a, ha, rfl⟩
    obtain ⟨init, rfl⟩ := h.eq_append_of_not_dead ha hx
    simp

theorem running_iff (h : History attempts status) :
    status = .running ↔ ∃ a ∈ attempts, a.status = .accepted := by
  rw [h.status, jobStatusOf_eq_running, h.last_status rfl]

theorem succeeded_iff (h : History attempts status) :
    status = .succeeded ↔ ∃ a ∈ attempts, a.status = .succeeded := by
  rw [h.status, jobStatusOf_eq_succeeded, h.last_status rfl]

/-- With an attempt on its way to the executor, the job still shows how the earlier
attempts ended. -/
theorem status_of_waiting {init : List ExecutionAttempt} (h : History (init ++ [a]) status)
    (ha : a.status = .prepared ∨ a.status = .dispatching ∨ a.status = .dispatchFailed) :
    status = if .failed ∈ init.map (·.status) then .failed else .pending := by
  rw [h.status, List.map_append, List.map_singleton, jobStatusOf_append]
  rcases ha with ha | ha | ha <;> rw [ha]

/-- A job that never ran has no attempt that the executor accepted. -/
theorem of_pending (h : History attempts .pending) (ha : a ∈ attempts) :
    a.status = .prepared ∨ a.status = .dispatching ∨ a.status = .dispatchFailed := by
  cases hs : a.status with
  | prepared => exact .inl rfl
  | dispatching => exact .inr (.inl rfl)
  | dispatchFailed => exact .inr (.inr rfl)
  | accepted => cases h.running_iff.mpr ⟨a, ha, hs⟩
  | succeeded => cases h.succeeded_iff.mpr ⟨a, ha, hs⟩
  -- One failure in the list, and the job would be failed.
  | failed =>
      have hmem : ExecutionAttemptStatus.failed ∈ attempts.map (·.status) :=
        List.mem_map.mpr ⟨a, ha, hs⟩
      have hst := h.status
      unfold jobStatusOf at hst
      split at hst
      · cases hst
      · cases hst
      · rw [if_pos hmem] at hst
        cases hst

theorem of_failed (h : History attempts .failed) : ∃ a ∈ attempts, a.status = .failed := by
  have hst := h.status
  unfold jobStatusOf at hst
  split at hst
  · cases hst
  · cases hst
  · split at hst
    · rename_i hmem
      obtain ⟨a, ha, hs⟩ := List.mem_map.mp hmem
      exact ⟨a, ha, hs⟩
    · cases hst

/-- No active attempt and no success: every attempt is dead. -/
theorem all_dead (h : History attempts status) (hs : status ≠ .succeeded)
    (hactive : ∀ a ∈ attempts, a.status.isActive = false) :
    ∀ a ∈ attempts, a.status.isDead = true := by
  intro a ha
  have := hactive a ha
  cases hx : a.status with
  -- The succeeded attempt would have made the job succeed.
  | succeeded => exact absurd (h.succeeded_iff.mpr ⟨a, ha, hx⟩) hs
  | _ => rw [hx] at this; first | rfl | cases this

/-! ## The steps -/

/-- A new attempt after the others are dead. -/
theorem prepare (h : History attempts status)
    (hdead : ∀ a ∈ attempts, a.status.isDead = true)
    (hnumber : a.attemptNumber = attempts.length + 1) (hstatus : a.status = .prepared) :
    History (attempts ++ [a]) status where
  numbered := by
    rw [List.map_append, List.map_singleton, h.numbered, hnumber, List.length_append,
      List.length_singleton, List.range'_concat, Nat.one_mul, Nat.add_comm]
  closed b hb := hdead b (by simpa using hb)
  status := by
    rw [h.status, jobStatusOf_dead (by simpa using hdead), List.map_append,
      List.map_singleton, hstatus, jobStatusOf_append]

/-- The newest attempt moves on. -/
theorem move {init : List ExecutionAttempt} (h : History (init ++ [a]) status)
    (hnumber : b.attemptNumber = a.attemptNumber) :
    History (init ++ [b]) (jobStatusOf (init.map (·.status) ++ [b.status])) where
  numbered := by
    have := h.numbered
    rw [List.map_append, List.map_singleton] at this ⊢
    rw [hnumber, this, List.length_append, List.length_append]
    rfl
  closed c hc := h.init_dead c (by simpa using hc)
  status := by rw [List.map_append, List.map_singleton]

end History

end CostEngine
