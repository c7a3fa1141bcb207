import CostEngine.Frontend.ConversationSpecs

/-! # `refresh` shows complete reads

The loop of `refresh` collects the replies of one read. What it has collected (`Collected`) is
in the log, and once it is done the read is complete. It is shown if no later read has begun:
the numbers of the reads that were shown never go back. -/

namespace CostEngine.Frontend

open EventLoop
open EventLoop.Async (returning)

variable {α β : Type} {strict : Prop} {born number : Nat} {m m' : PageMoment}
  {datasets done : List Dataset} {jobs : StringRecord (List Job)}
  {attempts : StringRecord (List Attempt)} {list : List Job}

section

variable (strict : Prop) (born number : Nat)

/-! ## What a read has collected -/

/-- An overtaken conversation does not go on with a reply that completes the newest read. -/
def Quiet (m : PageMoment) : Prop :=
  strict → Overtaken born m → number = m.page.generation →
    ∀ r : PageRead, r.number = number → ¬ r.Complete m.log

/-- What `refresh` has collected for the datasets `done` so far. -/
structure Collected (datasets done : List Dataset)
    (read : StringRecord (List Job) × StringRecord (List Attempt)) (m : PageMoment) : Prop where
  datasets : Listed m.log number .datasets (.datasets datasets)
  jobs : ∀ x ∈ read.1, Listed m.log number (.jobs x.1) (.jobs x.2)
  attempts : ∀ x ∈ read.2, Listed m.log number (.attempts x.1) (.attempts x.2)
  everyDataset : ∀ d ∈ done, ∃ list, (d.datasetVersionId, list) ∈ read.1
  everyJob : ∀ x ∈ read.1, ∀ j ∈ x.2, ∃ list, (j.jobId, list) ∈ read.2
  quiet : Quiet strict born number m

end

theorem Collected.later {read : StringRecord (List Job) × StringRecord (List Attempt)}
    (h : Collected strict born number datasets done read m) (hm : Later m m')
    (hq : Quiet strict born number m') : Collected strict born number datasets done read m' :=
  ⟨h.datasets.mono hm.log, fun x hx => (h.jobs x hx).mono hm.log,
    fun x hx => (h.attempts x hx).mono hm.log, h.everyDataset, h.everyJob, hq⟩

/-- The attempts of one more job. -/
theorem Collected.setAttempts (h : Collected strict born number datasets done (jobs, attempts) m)
    {jobId : String} {rows : List Attempt}
    (hrows : Listed m.log number (.attempts jobId) (.attempts rows)) :
    Collected strict born number datasets done (jobs, attempts.set jobId rows) m where
  datasets := h.datasets
  jobs := h.jobs
  attempts := by
    intro x hx
    rcases StringRecord.mem_set hx with rfl | hx
    · exact hrows
    · exact h.attempts x hx
  everyDataset := h.everyDataset
  everyJob := by
    intro x hx j hj
    obtain ⟨rows', hmem⟩ := h.everyJob x hx j hj
    exact StringRecord.exists_mem_set hmem
  quiet := h.quiet

/-- The jobs of one more dataset, whose attempts are there. -/
theorem Collected.setJobs (h : Collected strict born number datasets done (jobs, attempts) m)
    {d : Dataset} (hlist : Listed m.log number (.jobs d.datasetVersionId) (.jobs list))
    (hattempts : ∀ j ∈ list, ∃ rows, (j.jobId, rows) ∈ attempts) :
    Collected strict born number datasets (done ++ [d])
      (jobs.set d.datasetVersionId list, attempts) m where
  datasets := h.datasets
  jobs := by
    intro x hx
    rcases StringRecord.mem_set hx with rfl | hx
    · exact hlist
    · exact h.jobs x hx
  attempts := h.attempts
  everyDataset := by
    intro d' hd'
    rcases List.mem_append.mp hd' with hd' | hd'
    · obtain ⟨list', hmem⟩ := h.everyDataset d' hd'
      exact StringRecord.exists_mem_set hmem
    · obtain rfl := List.mem_singleton.mp hd'
      exact ⟨list, StringRecord.set_mem _ _ _⟩
  everyJob := by
    intro x hx
    rcases StringRecord.mem_set hx with rfl | hx
    · exact hattempts
    · exact h.everyJob x hx
  quiet := h.quiet

theorem Collected.complete {read : StringRecord (List Job) × StringRecord (List Attempt)}
    (h : Collected strict born number datasets datasets read m) :
    PageRead.Complete m.log ⟨number, datasets, read.1, read.2⟩ :=
  ⟨h.datasets, h.jobs, h.attempts, h.everyDataset, h.everyJob⟩

/-! ## The loops -/

/-- One listing of the read. -/
theorem wp_listing {listing : Listing} {read : Data → Option α} {f : α → Page β}
    {Q : β → PageMoment → Prop}
    (h : ∀ m' status data a, Later m m' →
      (.list number listing, .ok ⟨status, data⟩) ∈ m'.log → Quiet strict born number m' →
      read data = some a → (f a).Wp (contract strict) born (returning Q) m') :
    (do
      let data ← Page.ask (.list number listing)
      let a ← Page.required (read data)
      f a : Page β).Wp (contract strict) born (returning Q) m := by
  refine Async.wp_bind.mpr (wp_ask fun m' answer hm hlog hharmless => ?_)
  cases answer with
  | error e => trivial
  | ok reply =>
      show ((Page.required (read reply.data)).bind f).Wp _ _ _ _
      cases hread : read reply.data with
      | none => trivial
      | some a =>
          refine h m' reply.status reply.data a hm hlog (fun hs ho hn r hr => ?_) hread
          exact (hharmless hs ho).listing number listing rfl ⟨reply, rfl⟩ hn r hr

theorem attempts?_eq_some {data : Data} {rows : List Attempt} (h : data.attempts? = some rows) :
    data = .attempts rows := by
  cases data <;> cases h
  rfl

theorem jobs?_eq_some {data : Data} {list : List Job} (h : data.jobs? = some list) :
    data = .jobs list := by
  cases data <;> cases h
  rfl

theorem datasets?_eq_some {data : Data} (h : data.datasets? = some datasets) :
    data = .datasets datasets := by
  cases data <;> cases h
  rfl

/-- What holds while the attempts of `list` are read. -/
def CollectedJobs (strict : Prop) (born number : Nat) (datasets done : List Dataset)
    (jobs : StringRecord (List Job)) (d : Dataset) (list doneJobs : List Job)
    (attempts : StringRecord (List Attempt)) (m : PageMoment) : Prop :=
  Collected strict born number datasets done (jobs, attempts) m
    ∧ Listed m.log number (.jobs d.datasetVersionId) (.jobs list)
    ∧ ∀ j ∈ doneJobs, ∃ rows, (j.jobId, rows) ∈ attempts

theorem wp_readAttempts {d : Dataset} {doneJobs : List Job} {j : Job}
    (h : CollectedJobs strict born number datasets done jobs d list doneJobs attempts m) :
    (readAttempts number attempts j).Wp (contract strict) born
      (returning (CollectedJobs strict born number datasets done jobs d list (doneJobs ++ [j]))) m := by
  refine wp_listing fun m' status data rows hm hlog hq hread => ?_
  obtain rfl := attempts?_eq_some hread
  obtain ⟨hcollected, hlist, hdone⟩ := h
  refine ⟨(hcollected.later hm hq).setAttempts ⟨status, hlog⟩, hlist.mono hm.log, fun j' hj' => ?_⟩
  rcases List.mem_append.mp hj' with hj' | hj'
  · obtain ⟨rows', hmem⟩ := hdone j' hj'
    exact StringRecord.exists_mem_set hmem
  · obtain rfl := List.mem_singleton.mp hj'
    exact ⟨rows, StringRecord.set_mem _ _ _⟩

theorem wp_readJobs {d : Dataset} {read : StringRecord (List Job) × StringRecord (List Attempt)}
    (h : Collected strict born number datasets done read m) :
    (readJobs number read d).Wp (contract strict) born
      (returning (Collected strict born number datasets (done ++ [d]))) m := by
  refine wp_listing fun m' status data list hm hlog hq hread => ?_
  obtain rfl := jobs?_eq_some hread
  have hstart : CollectedJobs strict born number datasets done read.1 d list [] read.2 m' :=
    ⟨h.later hm hq, ⟨status, hlog⟩, fun _ hj => nomatch hj⟩
  have hloop := Async.wp_foldlM
    (fun doneJobs j attempts m hI => wp_readAttempts (d := d) (j := j) hI) list hstart
  refine Async.wp_bind.mpr (hloop.mono fun r m' hr => ?_)
  cases r with
  | error e => trivial
  | ok attempts => exact hr.1.setJobs hr.2.1 hr.2.2

/-! ## Showing a read -/

/-- A complete read is shown while its number is the newest. -/
theorem wp_showIfNewest {read : StringRecord (List Job) × StringRecord (List Attempt)}
    (h : Collected strict born number datasets datasets read m) :
    (showIfNewest ⟨number, datasets, read.1, read.2⟩).Wp (contract strict) born
      (fun _ _ => True) m := by
  show (if number = m.page.generation then
    Async.modify (·.show ⟨number, datasets, read.1, read.2⟩) else (pure () : Page Unit)).Wp _ _ _ m
  split
  · rename_i hnumber
    refine ⟨⟨⟨Nat.le_refl _, Nat.le_refl _, List.suffix_cons _ _, fun _ hx => hx, fun hm => ?_⟩,
      fun hs ho => ?_⟩, trivial⟩
    · refine ⟨.inr ⟨_, _, rfl, rfl, rfl, rfl⟩, ?_, ?_, ?_⟩
      · exact List.forall_mem_cons.mpr ⟨h.complete, hm.complete⟩
      · refine List.pairwise_cons.mpr ⟨fun older ho => ?_, hm.ordered⟩
        exact (hm.numbers older ho).trans hnumber.ge
      · exact List.forall_mem_cons.mpr ⟨hnumber.le, hm.numbers⟩
    · exact absurd h.complete (h.quiet hs ho hnumber _ rfl)
  · trivial

theorem free_readPage (number : Nat) : Free strict born (readPage number) := by
  intro m
  refine (wp_listing (Q := fun _ _ => True) fun m' status data datasets hm hlog hq hread => ?_).mono
    fun _ _ _ => trivial
  obtain rfl := datasets?_eq_some hread
  have hstart : Collected strict born number datasets [] ([], []) m' :=
    ⟨⟨status, hlog⟩, by simp, by simp, by simp, by simp, hq⟩
  have hloop := Async.wp_foldlM (fun done d read m hI => wp_readJobs (d := d) hI)
    datasets hstart
  refine Async.wp_bind.mpr (hloop.mono fun r m' hr => ?_)
  cases r with
  | error e => trivial
  | ok read => exact (wp_showIfNewest hr).mono fun r _ _ => by cases r <;> trivial

theorem free_refresh : Free strict born refresh := by
  intro m
  have hnumbers : Ordinary m.page { m.page with generation := m.page.generation + 1 } :=
    ⟨Nat.le_refl _, Nat.le_succ _, rfl, .inl ⟨rfl, rfl, rfl⟩⟩
  exact ⟨change_of hnumbers fun _ _ => rfl, free_readPage _ _⟩

theorem free_tryRefresh : Free strict born tryRefresh :=
  free_refresh.attempt fun _ => free_pure ()

end CostEngine.Frontend
