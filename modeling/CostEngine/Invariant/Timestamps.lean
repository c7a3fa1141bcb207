import CostEngine.Invariant.Changes
import CostEngine.Versioned.Timeline

/-! # The timestamps of a row

The timestamps of a version or an attempt, in the order of its life. Every guarded update
notes its own time, when none of the later columns is set. The time is when the transaction
began, so a later column can have an earlier time; `Caused` are the timestamps for which this
cannot be, since a transaction that sets the later one has read the earlier one before it
began. -/

namespace CostEngine

open Relation (ReflTransGen)
open Versioned (AtMost InOrderUpTo Fills)

variable {now c d : Time}

/-! ## Attempts -/

def ExecutionAttempt.times (a : ExecutionAttempt) : List (Option Time) :=
  [some a.createdAt, a.dispatchStartedAt, a.acceptedAt, a.finishedAt]

/-- Which timestamps of an attempt are set, by its status. -/
structure ExecutionAttempt.Timed (a : ExecutionAttempt) : Prop where
  dispatched : a.dispatchStartedAt.isSome ↔ a.status ≠ .prepared
  accepted : a.acceptedAt.isSome ↔
    a.status = .accepted ∨ a.status = .succeeded ∨ a.status = .failed
  finished : a.finishedAt.isSome ↔ a.status.isActive = false

/-- The timestamps that are in order whatever the interleaving was. -/
structure ExecutionAttempt.Caused (a : ExecutionAttempt) : Prop where
  accepted : InOrderUpTo 0 [some a.createdAt, a.dispatchStartedAt, a.acceptedAt]
  finished : InOrderUpTo 0 [some a.createdAt, a.dispatchStartedAt, a.finishedAt]

theorem ExecutionAttempt.PreparedAt.timed {a : ExecutionAttempt} (h : a.PreparedAt now) :
    a.Timed := by
  obtain ⟨hs, -, hd, ha, hf⟩ := h
  refine ⟨?_, ?_, ?_⟩ <;> simp [hs, hd, ha, hf, ExecutionAttemptStatus.isActive]

theorem ExecutionAttempt.PreparedAt.times {a : ExecutionAttempt} (h : a.PreparedAt now) :
    a.times = [some now, none, none, none] := by
  rw [ExecutionAttempt.times, h.createdAt, h.dispatchStartedAt, h.acceptedAt, h.finishedAt]

theorem ExecutionAttempt.PreparedAt.caused {a : ExecutionAttempt} (h : a.PreparedAt now) :
    a.Caused := by
  refine ⟨?_, ?_⟩ <;> simp [InOrderUpTo, h.dispatchStartedAt, h.acceptedAt, h.finishedAt]

namespace AttemptStepAt

variable {a a' : ExecutionAttempt}

theorem timed (h : AttemptStepAt now a a') (ha : a.Timed) : a'.Timed := by
  obtain ⟨hd, hac, hf⟩ := ha
  cases h with
  | dispatching hs | acceptedByDispatch hs | dispatchFailed message hs | diagnosed message hs
  | acceptedByReconciliation hs =>
      rw [hs] at hd hac hf
      refine ⟨?_, ?_, ?_⟩ <;>
        simp_all [ExecutionAttempt.dispatching, ExecutionAttempt.acceptedByDispatch,
          ExecutionAttempt.dispatchFailed, ExecutionAttempt.diagnosed,
          ExecutionAttempt.acceptedByReconciliation, ExecutionAttemptStatus.isActive]
  | finished target hs ht =>
      rcases hs with hs | hs <;> rcases ht with rfl | rfl <;> rw [hs] at hd hac hf <;>
        refine ⟨?_, ?_, ?_⟩ <;>
        simp_all [ExecutionAttempt.finished, ExecutionAttemptStatus.isActive]

/-- What is not set yet is what comes later. -/
theorem fills (h : AttemptStepAt now a a') (ha : a.Timed) : Fills now a.times a'.times := by
  have hnone : ∀ {x : Option Time} {p : Prop}, (x.isSome ↔ p) → ¬ p → x = none :=
    fun hx hp => Option.not_isSome_iff_eq_none.mp fun h => hp (hx.mp h)
  -- A timestamp is set by its own update only, and acceptance also by the end.
  have hdispatching : a.status = .dispatching → a.acceptedAt = none ∧ a.finishedAt = none :=
    fun hs => ⟨hnone ha.accepted (by simp [hs]), hnone ha.finished (by rw [hs]; decide)⟩
  cases h with
  | dispatching hs =>
      have hd := hnone ha.dispatched (by simp [hs])
      have hac := hnone ha.accepted (by simp [hs])
      have hf := hnone ha.finished (by rw [hs]; decide)
      exact .set 1 .refl (by simp [ExecutionAttempt.times, hd, hac, hf])
  | acceptedByDispatch hs =>
      obtain ⟨hac, hf⟩ := hdispatching hs
      exact .set 2 .refl (by simp [ExecutionAttempt.times, hac, hf])
  | dispatchFailed message hs =>
      exact .set 3 .refl (by simp [ExecutionAttempt.times, hdispatching hs])
  | diagnosed message hs => exact .refl
  | acceptedByReconciliation hs =>
      obtain ⟨hac, hf⟩ := hdispatching hs
      have htimes : (a.acceptedByReconciliation now).times = a.times.set 2 (some now) := by
        simp [ExecutionAttempt.times, ExecutionAttempt.acceptedByReconciliation, hac]
      rw [htimes]
      exact .set 2 .refl (by simp [ExecutionAttempt.times, hac, hf])
  | finished target hs ht =>
      rcases hs with hs | hs
      · -- An attempt that is overtaken is accepted and finished at once.
        obtain ⟨hac, hf⟩ := hdispatching hs
        have htimes : (a.finished now target).times
            = (a.times.set 2 (some now)).set 3 (some now) := by
          simp [ExecutionAttempt.times, ExecutionAttempt.finished, hac]
        rw [htimes]
        exact .set 3 (.set 2 .refl (by simp [ExecutionAttempt.times, hac, hf]))
          (by simp [ExecutionAttempt.times, hf])
      · have hf := hnone ha.finished (by rw [hs]; decide)
        obtain ⟨t, hac⟩ := Option.isSome_iff_exists.mp (ha.accepted.mpr (.inl hs))
        have htimes : (a.finished now target).times = a.times.set 3 (some now) := by
          simp [ExecutionAttempt.times, ExecutionAttempt.finished, hac]
        rw [htimes]
        exact .set 3 .refl (by simp [ExecutionAttempt.times, hf])

/-- An update whose transaction began after the attempt was inserted, and after its dispatch
began unless it is this update. -/
theorem caused (h : AttemptStepAt now a a') (ha : a.Timed) (hc : a.Caused)
    (hcreated : a.createdAt ≤ now) (hdispatched : ∀ t ∈ a.dispatchStartedAt, t ≤ now) :
    a'.Caused := by
  obtain ⟨haccepted, hfinished⟩ := hc
  -- What is set now comes after the insert and the dispatch.
  have hnow : ∀ {x y : Option Time}, InOrderUpTo 0 [some a.createdAt, a.dispatchStartedAt, x] →
      y = x ∨ y = some now → InOrderUpTo 0 [some a.createdAt, a.dispatchStartedAt, y] := by
    rintro x y hx (rfl | rfl)
    · exact hx
    · simp only [InOrderUpTo, List.pairwise_cons, List.mem_cons, List.not_mem_nil, or_false,
        forall_eq_or_imp, forall_eq, Option.mem_some_iff, forall_eq'] at hx ⊢
      exact ⟨⟨hx.1.1, hcreated⟩, hdispatched, by simp⟩
  have hcoalesce : ∀ x : Option Time, (x <|> some now) = x ∨ (x <|> some now) = some now := by
    rintro (_ | t)
    · exact .inr rfl
    · exact .inl rfl
  cases h with
  | dispatching hs =>
      have hac : a.acceptedAt = none := Option.not_isSome_iff_eq_none.mp fun h =>
        absurd (ha.accepted.mp h) (by simp [hs])
      have hf : a.finishedAt = none := Option.not_isSome_iff_eq_none.mp fun h =>
        absurd (ha.finished.mp h) (by rw [hs]; decide)
      refine ⟨?_, ?_⟩ <;> simp [InOrderUpTo, ExecutionAttempt.dispatching, hac, hf, hcreated]
  | acceptedByDispatch hs => exact ⟨hnow haccepted (.inr rfl), hfinished⟩
  | dispatchFailed message hs => exact ⟨haccepted, hnow hfinished (.inr rfl)⟩
  | diagnosed message hs => exact ⟨haccepted, hfinished⟩
  | acceptedByReconciliation hs => exact ⟨hnow haccepted (hcoalesce _), hfinished⟩
  | finished target hs ht =>
      exact ⟨hnow haccepted (hcoalesce _), hnow hfinished (.inr rfl)⟩

end AttemptStepAt

/-- Once the dispatch has begun, the time of its begin stays. -/
theorem attempt_dispatched {a a' : ExecutionAttempt} (h : ReflTransGen AttemptStep a a')
    (ha : a.status ≠ .prepared) : a'.dispatchStartedAt = a.dispatchStartedAt := by
  induction h with
  | refl => rfl
  | tail hsteps hs ih =>
      rw [← ih]
      obtain ⟨now, hs⟩ := hs
      cases hs with
      | dispatching hprepared => exact absurd hprepared (attempt_not_prepared hsteps ha)
      | _ => rfl

/-! ## Versions -/

/-- A version is published or rejected, or it is abandoned. -/
def DatasetVersion.times (v : DatasetVersion) : List (Option Time) :=
  [some v.createdAt, v.buildingStartedAt, v.validatingAt, v.publishedAt, v.rejectedAt,
    v.abandonedAt]

theorem DatasetVersion.Timed.times {v : DatasetVersion} (h : v.Timed) (hs : v.status = .draft) :
    v.times = [some v.createdAt, none, none, none, none, none] := by
  have hb := h.draft (by rw [hs]; rfl)
  have hv := h.validating
  have hp := h.published
  have hr := h.rejected
  have ha := h.abandoned
  simp [hs, DatasetVersionStatus.phase] at hv hp hr ha
  rw [DatasetVersion.times, hb, hv, hp, hr, ha]

theorem VersionStepAt.fills {v v' : DatasetVersion} (h : VersionStepAt now v v')
    (hv : v.Timed) : Fills now v.times v'.times := by
  cases h with
  | building hs => exact .set 1 .refl (by rw [hv.times hs]; simp)
  | lifecycle target hs =>
      have hvalidating := hv.validating
      have hpublished := hv.published
      have hrejected := hv.rejected
      have habandoned := hv.abandoned
      cases target with
      | validating =>
          rw [List.mem_singleton.mp hs] at hvalidating hpublished hrejected habandoned
          refine .set 2 .refl ?_
          simp_all [DatasetVersion.times, DatasetVersionStatus.phase]
      | published =>
          rw [List.mem_singleton.mp hs] at hpublished hrejected habandoned
          refine .set 3 .refl ?_
          simp_all [DatasetVersion.times]
      | rejected =>
          rw [List.mem_singleton.mp hs] at hrejected habandoned
          refine .set 4 .refl ?_
          simp_all [DatasetVersion.times]
      | abandoned =>
          refine .set 5 .refl ?_
          rcases List.mem_cons.mp hs with hs | hs
          · simp_all [DatasetVersion.times]
          · simp_all [DatasetVersion.times]

/-- Publication, rejection and abandonment, whose transactions have read the version before they
began. -/
def DatasetVersion.Caused (v : DatasetVersion) : Prop :=
  ∀ x ∈ [v.publishedAt, v.rejectedAt, v.abandonedAt], InOrderUpTo 0 [some v.createdAt, x]

theorem DatasetVersion.Timed.caused {v : DatasetVersion} (h : v.Timed) (hs : v.status = .draft) :
    v.Caused := by
  have htimes := h.times hs
  simp only [DatasetVersion.times, List.cons.injEq, and_true] at htimes
  obtain ⟨-, -, -, hp, hr, ha⟩ := htimes
  simp [DatasetVersion.Caused, InOrderUpTo, hp, hr, ha]

theorem VersionStepAt.caused {v v' : DatasetVersion} (h : VersionStepAt now v v') (hc : v.Caused)
    (hcreated : v'.status.isFinal = true → v.createdAt ≤ now) : v'.Caused := by
  have hnow : v.createdAt ≤ now → InOrderUpTo 0 [some v.createdAt, some now] := by
    intro hle
    simpa [InOrderUpTo] using hle
  simp only [DatasetVersion.Caused, List.mem_cons, List.not_mem_nil, or_false, forall_eq_or_imp,
    forall_eq] at hc ⊢
  obtain ⟨hp, hr, ha⟩ := hc
  cases h with
  | building hs => exact ⟨hp, hr, ha⟩
  | lifecycle target hs =>
      cases target with
      | validating => exact ⟨hp, hr, ha⟩
      | published => exact ⟨hnow (hcreated rfl), hr, ha⟩
      | rejected => exact ⟨hp, hnow (hcreated rfl), ha⟩
      | abandoned => exact ⟨hp, hr, hnow (hcreated rfl)⟩

/-! ## The rows of a store -/

namespace Store

variable {s s' : Store}

/-- No timestamp is later than `c`, and those of an attempt are the ones of its status. -/
structure Stamped (c : Time) (s : Store) : Prop where
  attempts : ∀ id a, s.executionAttempts.get? id = some a → a.Timed ∧ AtMost c a.times
  versions : ∀ id v, s.datasetVersions.get? id = some v → AtMost c v.times

/-- Every timestamp is at most `d` later than those after it. -/
structure Ordered (d : Time) (s : Store) : Prop where
  attempts : ∀ id a, s.executionAttempts.get? id = some a → InOrderUpTo d a.times
  versions : ∀ id v, s.datasetVersions.get? id = some v → InOrderUpTo d v.times

/-- The timestamps that no interleaving disorders are in order. -/
structure Caused (s : Store) : Prop where
  attempts : ∀ id a, s.executionAttempts.get? id = some a → a.Caused
  versions : ∀ id v, s.datasetVersions.get? id = some v → v.Caused

theorem Stamped.mono {c' : Time} (h : s.Stamped c) (hc : c ≤ c') : s.Stamped c' where
  attempts id a ha := ⟨(h.attempts id a ha).1, (h.attempts id a ha).2.mono hc⟩
  versions id v hv := (h.versions id v hv).mono hc

namespace Single

/-- An attempt is new, or it was there before. -/
theorem attempt (h : s.Single now s') {id : Uuid} {a' : ExecutionAttempt}
    (ha' : s'.executionAttempts.get? id = some a') : a'.PreparedAt now ∨
      ∃ a, s.executionAttempts.get? id = some a ∧ (a' = a ∨ AttemptStepAt now a a') := by
  cases ha : s.executionAttempts.get? id with
  | none => exact .inl (h.newAttempts id a' ha ha')
  | some a =>
      obtain ⟨w, hw, hstep⟩ := h.attempts id a ha
      obtain rfl := Option.some.inj (hw.symm.trans ha')
      exact .inr ⟨a, rfl, hstep⟩

theorem version (h : s.Single now s') {id : Uuid} {v' : DatasetVersion}
    (hv' : s'.datasetVersions.get? id = some v') : (v'.status = .draft ∧ v'.createdAt = now) ∨
      ∃ v, s.datasetVersions.get? id = some v ∧ (v' = v ∨ VersionStepAt now v v') := by
  cases hv : s.datasetVersions.get? id with
  | none => exact .inl (h.newVersions id v' hv hv')
  | some v =>
      obtain ⟨w, hw, hstep⟩ := h.versions id v hv
      obtain rfl := Option.some.inj (hw.symm.trans hv')
      exact .inr ⟨v, rfl, hstep⟩

variable (hsingle : s.Single now s') (hs : s.Consistent) (hs' : s'.Consistent)
  (hstamped : s.Stamped c) (hnow : now ≤ c)
include hsingle hs hs' hstamped hnow

/-- A transaction that has begun by `c` writes no later time. -/
theorem stamped : s'.Stamped c where
  attempts id a' ha' := by
    rcases hsingle.attempt ha' with hnew | ⟨a, ha, rfl | hstep⟩
    · refine ⟨hnew.timed, ?_⟩
      rw [hnew.times]
      simpa [AtMost] using hnow
    · exact hstamped.attempts id a' ha
    · obtain ⟨htimed, htimes⟩ := hstamped.attempts id a ha
      exact ⟨hstep.timed htimed, htimes.fills (hstep.fills htimed) hnow⟩
  versions id v' hv' := by
    rcases hsingle.version hv' with ⟨hdraft, hcreated⟩ | ⟨v, hv, rfl | hstep⟩
    · rw [(hs'.version id v' hv').timed.times hdraft, hcreated]
      simpa [AtMost] using hnow
    · exact hstamped.versions id v' hv
    · exact (hstamped.versions id v hv).fills (hstep.fills (hs.version id v hv).timed) hnow

/-- A transaction that has been open for at most `d` notes a time that is at most `d` too
early. -/
theorem ordered (hordered : s.Ordered d) (hlag : c ≤ now + d) : s'.Ordered d where
  attempts id a' ha' := by
    rcases hsingle.attempt ha' with hnew | ⟨a, ha, rfl | hstep⟩
    · rw [hnew.times]
      simp [InOrderUpTo]
    · exact hordered.attempts id a' ha
    · obtain ⟨htimed, htimes⟩ := hstamped.attempts id a ha
      exact (hordered.attempts id a ha).fills htimes (hstep.fills htimed) hnow hlag
  versions id v' hv' := by
    rcases hsingle.version hv' with ⟨hdraft, -⟩ | ⟨v, hv, rfl | hstep⟩
    · rw [(hs'.version id v' hv').timed.times hdraft]
      simp [InOrderUpTo]
    · exact hordered.versions id v' hv
    · exact (hordered.versions id v hv).fills (hstamped.versions id v hv)
        (hstep.fills (hs.version id v hv).timed) hnow hlag

end Single

end Store

end CostEngine
