import CostEngine.Concurrency.Script
import CostEngine.RawIngestion.Transaction

/-! # The batches of a raw ingestion series have no gaps -/

namespace CostEngine

open Relational (Table)
open Concurrency (Action Stage play playWhile)

/-- What holds of the committed tables. -/
structure RawIngestionStore.GapFree (s : RawIngestionStore) : Prop where
  numbers : ∀ r ∈ s.series.rows,
    (s.batchesOf r.id).map (·.batchSequence) = List.range' 1 r.lastBatchSequence
  series : ∀ batch ∈ s.batches.rows, ∃ r ∈ s.series.rows, r.id = batch.ingestionSeriesId
    ∧ ∀ r' ∈ s.series.rows, r'.key = r.key → r' = r
  active : ∀ r ∈ s.series.rows, ((s.batchesOf r.id).filter (·.status.isActive)).length ≤ 1

namespace RawIngestionSystem

/-- A run leads from `st` to `st'` in which the thread `i` serves one call, which is rejected. -/
structure Rejects (i : Nat) (st st' : RawIngestionSystem) : Prop where
  call : ∃ input, st.threads i = .running input [] (allocateRawIngestionBatch input)
  run : rawIngestion.RunWhere (fun st _ => st.threads i ≠ .idle) st st'
  rejected : ∃ input log, st'.threads i
    = .running input log (.ret (.error .activeRawIngestionBatchExists))

variable {st st' : RawIngestionSystem} {i : Nat}

theorem Reachable.gapFree (h : st.Reachable) : st.shared.db.GapFree where
  numbers r hr := h.safe.inv.numbers (Table.get?_of_mem hr)
  series batch hbatch := by
    obtain ⟨r, hr⟩ := Option.ne_none_iff_exists'.mp (h.safe.inv.owned hbatch)
    exact ⟨r, Table.get?_mem hr, Table.get?_key hr,
      fun r' hr' hkey => h.safe.inv.keys hr' (Table.get?_mem hr) hkey⟩
  active r _ := h.safe.inv.active r.id

/-- The batches of a series are numbered without gaps, and a call that is rejected leaves the
tables as they were in each of its steps. -/
theorem raw_ingestion_gapFree (h : st.Reachable) : st.shared.db.GapFree
    ∧ ∀ st' i, Rejects i st st' → rawIngestion.Throughout (fun st _ => st.threads i ≠ .idle)
      (fun a b => b.threads i ≠ a.threads i → b.shared = a.shared) st st' := by
  refine ⟨h.gapFree, fun st' i hrejects => ?_⟩
  obtain ⟨-, hrun, input, log, hrejected⟩ := hrejects
  have hreachable : st'.Reachable := Concurrency.Machine.Run.trans h hrun.run
  obtain ⟨r, hlog, hr⟩ := (hreachable.safe.returns hrejected).once
  obtain ⟨e, rfl⟩ := hr.mp ⟨_, rfl⟩
  have hevents : (st'.threads i).events = [.ended input (.error e)] := by
    rw [hrejected]
    exact hlog
  refine Concurrency.Machine.throughout_unchanged (by rw [hrejected]; exact nofun)
    (fun t x hmem => ?_) fun m => nomatch m
  rw [hevents] at hmem
  cases List.mem_singleton.mp hmem

/-! ## A rejected call -/

instance : DecidableRel rawIngestion.conflict :=
  inferInstanceAs (DecidableRel fun l m : RawIngestionLock => l = m)

instance (w : Unit) (env : TxEnv) : Decidable (rawIngestion.begins w env) := isTrue trivial

instance (q : Empty) (w : Unit) (a : Empty) : Decidable (rawIngestion.answers q w a) :=
  isTrue trivial

abbrev RawIngestionStage := Stage RawIngestionStore RawIngestionLock RawIngestionWrite
  RawIngestionError TxEnv AllocateRawIngestionBatchInput
  (fun _ => AllocateRawIngestionBatchResult) Empty Empty (fun _ => Empty) Unit
  AllocateRawIngestionBatchInput AllocateRawIngestionBatchResult

def sampleBatch : AllocateRawIngestionBatchInput := ⟨.dprRaw, "acme:2026:Q1"⟩

/-- The thread `i` makes `n` steps, with UUIDs of its own. -/
def ingestionSteps (i n : Nat) : List (Action rawIngestion) :=
  List.replicate n (.advance i ⟨0, fun k => toString i ++ toString k⟩)

def RawIngestionStage.empty : RawIngestionStage where
  shared := ⟨⟨.empty, .empty⟩, ()⟩

/-- Another call arrives. -/
def RawIngestionStage.called (S : RawIngestionStage) : RawIngestionStage :=
  { S with threads := S.threads ++ [.running sampleBatch [] (allocateRawIngestionBatch sampleBatch)] }

def RawIngestionStage.busy (i : Nat) (S : RawIngestionStage) : Bool :=
  match S.thread i with
  | .idle => false
  | _ => true

def RawIngestionStage.rejected (i : Nat) (S : RawIngestionStage) : Bool :=
  match S.thread i with
  | .running _ _ (.ret (.error .activeRawIngestionBatchExists)) => true
  | _ => false

theorem RawIngestionStage.busy_ne {S : RawIngestionStage} (h : S.busy i = true) :
    S.state.threads i ≠ .idle := by
  intro hidle
  have hidle : S.thread i = .idle := hidle
  rw [busy, hidle] at h
  cases h

theorem RawIngestionStage.rejected_eq {S : RawIngestionStage} (h : S.rejected i = true) :
    ∃ input log, S.state.threads i
      = .running input log (.ret (.error .activeRawIngestionBatchExists)) := by
  unfold rejected at h
  split at h
  · rename_i input log hthread
    exact ⟨input, log, hthread⟩
  · cases h

/-- One call has allocated a batch, and another is rejected. -/
theorem raw_ingestion_gapFree_rejected : ∃ st st', st.shared.db.batches.rows.length = 1
    ∧ Rejects 1 st st' ∧ st.shared.db.GapFree
    ∧ rawIngestion.Throughout (fun st _ => st.threads 1 ≠ .idle)
        (fun a b => b.threads 1 ≠ a.threads 1 → b.shared = a.shared) st st' := by
  obtain ⟨⟨S, S'⟩, hplay, hp⟩ := (Option.any_eq_true _ _).mp
    (show ((play rawIngestion ([.spawn sampleBatch] ++ ingestionSteps 0 11)
      RawIngestionStage.empty).bind fun S => (playWhile rawIngestion (RawIngestionStage.busy 1)
        (ingestionSteps 1 8) (RawIngestionStage.called S)).map fun S' => (S, S')).any (fun (S, S') =>
          S.threads.length = 1 && S.shared.db.batches.rows.length = 1 && RawIngestionStage.rejected 1 S') = true by
      decide +kernel)
  obtain ⟨S, hfirst, hsecond⟩ := Option.bind_eq_some_iff.mp hplay
  obtain ⟨S', hsecond, ⟨⟩⟩ := Option.map_eq_some_iff.mp hsecond
  rw [Bool.and_eq_true, Bool.and_eq_true, decide_eq_true_eq, decide_eq_true_eq] at hp
  obtain ⟨⟨hthreads, hbatches⟩, hrejected⟩ := hp
  let called := RawIngestionStage.called S
  have hcalled : rawIngestion.Step S.state called.state :=
    Concurrency.Action.act_step (a := .spawn sampleBatch) rfl
  have hreachable : Reachable called.state := .step (Concurrency.play_run hfirst) hcalled
  have hthread : called.state.threads 1
      = .running sampleBatch [] (allocateRawIngestionBatch sampleBatch) := by
    show Stage.thread ⟨S.shared, S.threads ++ [_]⟩ 1 = _
    rw [Stage.thread_append, hthreads]
    rfl
  have hrejects : Rejects 1 called.state S'.state :=
    ⟨⟨sampleBatch, hthread⟩,
      Concurrency.playWhile_run (fun _ _ hbusy => RawIngestionStage.busy_ne hbusy) hsecond,
      RawIngestionStage.rejected_eq hrejected⟩
  obtain ⟨hgapFree, hunchanged⟩ := raw_ingestion_gapFree hreachable
  exact ⟨_, _, hbatches, hrejects, hgapFree, hunchanged _ _ hrejects⟩

end RawIngestionSystem

end CostEngine
