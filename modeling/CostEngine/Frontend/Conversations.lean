import CostEngine.Frontend.DemoController

/-! # What a page conversation may do

A page read is complete when the log has all its replies. Every conversation shows complete
reads only, and one that was overtaken writes nothing more of the session's data, as long as
the replies it goes on with are harmless. -/

namespace CostEngine.Frontend

open EventLoop

/-- The moments of the page. -/
abbrev PageMoment : Type := Moment DemoController Request Answer

/-- The listing was read, with this result. -/
def Listed (log : Log Request Answer) (number : Nat) (listing : Listing) (data : Data) : Prop :=
  ∃ status, (.list number listing, .ok ⟨status, data⟩) ∈ log

/-- Every part of the read is what its own `refresh` was answered. -/
structure PageRead.Complete (log : Log Request Answer) (r : PageRead) : Prop where
  datasets : Listed log r.number .datasets (.datasets r.datasets)
  jobs : ∀ x ∈ r.jobs, Listed log r.number (.jobs x.1) (.jobs x.2)
  attempts : ∀ x ∈ r.attempts, Listed log r.number (.attempts x.1) (.attempts x.2)
  everyDataset : ∀ d ∈ r.datasets, ∃ list, (d.datasetVersionId, list) ∈ r.jobs
  everyJob : ∀ x ∈ r.jobs, ∀ j ∈ x.2, ∃ list, (j.jobId, list) ∈ r.attempts

/-- The page shows nothing, or what the newest of its reads gave. -/
def DemoController.Shows (c : DemoController) : Prop :=
  (c.state.datasets = [] ∧ c.state.jobs = [] ∧ c.state.attempts = [])
    ∨ ∃ r rest, c.reads = r :: rest ∧ c.state.datasets = r.datasets ∧ c.state.jobs = r.jobs
      ∧ c.state.attempts = r.attempts

/-- The page shows whole reads, and never an older one after a newer one. -/
structure Consistent (m : PageMoment) : Prop where
  shows : m.page.Shows
  complete : ∀ r ∈ m.page.reads, r.Complete m.log
  ordered : m.page.reads.Pairwise fun newer older => older.number ≤ newer.number
  numbers : ∀ r ∈ m.page.reads, r.number ≤ m.page.generation

/-- What every event does. -/
structure Later (m m' : PageMoment) : Prop where
  epoch : m.page.epoch ≤ m'.page.epoch
  generation : m.page.generation ≤ m'.page.generation
  reads : m.page.reads <:+ m'.page.reads
  log : ∀ x ∈ m.log, x ∈ m'.log
  consistent : Consistent m → Consistent m'

theorem Later.refl (m : PageMoment) : Later m m :=
  ⟨Nat.le_refl _, Nat.le_refl _, List.suffix_rfl, fun _ h => h, fun h => h⟩

theorem Later.trans {m m' m'' : PageMoment} (h : Later m m') (h' : Later m' m'') : Later m m'' :=
  ⟨h.epoch.trans h'.epoch, h.generation.trans h'.generation, h.reads.trans h'.reads,
    fun x hx => h'.log x (h.log x hx), fun hm => h'.consistent (h.consistent hm)⟩

/-- The conversation began before the last session end, clear, stop or start. -/
def Overtaken (born : Nat) (m : PageMoment) : Prop := born < m.page.epoch

/-- An answer that an overtaken conversation may go on with. -/
structure Harmless (request : Request) (answer : Answer) (m : PageMoment) : Prop where
  command : request.command? = none
  session : request = .createSession → ∃ e, answer = .error e
  reset : request = .reset → ∃ e, answer = .error e ∧ e.status? = some 401
  listing : ∀ number listing, request = .list number listing → (∃ reply, answer = .ok reply) →
    number = m.page.generation → ∀ r : PageRead, r.number = number → ¬ r.Complete m.log

/-- The contract of the page conversations. `strict` says that the overtaken ones go on with
harmless answers only. -/
def contract (strict : Prop) : Contract DemoController Request Answer where
  later := Later
  change born m m' := Later m m'
    ∧ (strict → Overtaken born m → m'.page.state.data = m.page.state.data)
  resumes born requests answers m := ∀ request answer, requests = [request] →
    answers = [answer] → strict → Overtaken born m → Harmless request answer m
  later_refl := Later.refl
  later_trans := Later.trans
  later_log h := h.log
  change_refl _ m := ⟨.refl m, fun _ _ => rfl⟩
  change_trans {born m m' m''} h h' := by
    refine ⟨h.1.trans h'.1, fun hs ho => ?_⟩
    have ho' : Overtaken born m' := Nat.lt_of_lt_of_le ho h.1.epoch
    exact (h'.2 hs ho').trans (h.2 hs ho)
  change_later h := h.1
  resumes_nil _ _ := by
    intro _ _ h
    cases h

end CostEngine.Frontend
