import CostEngine.Frontend.Conversations

/-! # The programs of the page keep the contract

A program may begin at any moment (`Free`), or only while its conversation is live (`Begun`),
and some keep it so (`Steady`). A check of `live()` is what turns the one into the other. -/

namespace CostEngine.Frontend

open EventLoop
open EventLoop.Async (returning)

variable {α β : Type} {strict : Prop} {born : Nat} {m m' : PageMoment}

/-! ## Changes of the page -/

/-- The part of the state that a page read replaces is the same. -/
def SameRows (s s' : DemoState) : Prop :=
  s'.datasets = s.datasets ∧ s'.jobs = s.jobs ∧ s'.attempts = s.attempts

theorem SameRows.trans {s s' s'' : DemoState} (h : SameRows s s') (h' : SameRows s' s'') :
    SameRows s s'' :=
  ⟨h'.1.trans h.1, h'.2.1.trans h.2.1, h'.2.2.trans h.2.2⟩

/-- The counters do not go back, the reads stay, and so do the rows or they are gone. -/
structure Ordinary (c c' : DemoController) : Prop where
  epoch : c.epoch ≤ c'.epoch
  generation : c.generation ≤ c'.generation
  reads : c'.reads = c.reads
  rows : SameRows c.state c'.state
    ∨ c'.state.datasets = [] ∧ c'.state.jobs = [] ∧ c'.state.attempts = []

theorem Ordinary.refl (c : DemoController) : Ordinary c c :=
  ⟨Nat.le_refl _, Nat.le_refl _, rfl, .inl ⟨rfl, rfl, rfl⟩⟩

/-- Of a change that leaves counters, reads and rows alone. -/
theorem ordinary_same {c c' : DemoController}
    (h : (c'.epoch, c'.generation, c'.reads, c'.state.datasets, c'.state.jobs, c'.state.attempts)
      = (c.epoch, c.generation, c.reads, c.state.datasets, c.state.jobs, c.state.attempts)) :
    Ordinary c c' := by
  simp only [Prod.mk.injEq] at h
  obtain ⟨he, hg, hr, hd, hj, ha⟩ := h
  exact ⟨he.ge, hg.ge, hr, .inl ⟨hd, hj, ha⟩⟩

theorem Ordinary.trans {c c' c'' : DemoController} (h : Ordinary c c') (h' : Ordinary c' c'') :
    Ordinary c c'' where
  epoch := h.epoch.trans h'.epoch
  generation := h.generation.trans h'.generation
  reads := h'.reads.trans h.reads
  rows := by
    rcases h'.rows with hsame | hempty
    · rcases h.rows with hsame' | ⟨hd, hj, ha⟩
      · exact .inl (hsame'.trans hsame)
      · exact .inr ⟨hsame.1.trans hd, hsame.2.1.trans hj, hsame.2.2.trans ha⟩
    · exact .inr hempty

theorem Ordinary.shows {c c' : DemoController} (h : Ordinary c c') (hc : c.Shows) : c'.Shows := by
  rcases h.rows with ⟨hd, hj, ha⟩ | hempty
  · unfold DemoController.Shows
    rw [hd, hj, ha, h.reads]
    exact hc
  · exact .inl hempty

theorem Listed.mono {log log' : Log Request Answer} {number : Nat} {listing : Listing}
    {data : Data} (h : Listed log number listing data) (hlog : ∀ x ∈ log, x ∈ log') :
    Listed log' number listing data :=
  ⟨h.choose, hlog _ h.choose_spec⟩

theorem PageRead.Complete.mono {log log' : Log Request Answer} {r : PageRead}
    (h : r.Complete log) (hlog : ∀ x ∈ log, x ∈ log') : r.Complete log' :=
  ⟨h.datasets.mono hlog, fun x hx => (h.jobs x hx).mono hlog,
    fun x hx => (h.attempts x hx).mono hlog, h.everyDataset, h.everyJob⟩

theorem Ordinary.later {c c' : DemoController} {log log' : Log Request Answer}
    (h : Ordinary c c') (hlog : ∀ x ∈ log, x ∈ log') : Later ⟨c, log⟩ ⟨c', log'⟩ where
  epoch := h.epoch
  generation := h.generation
  reads := h.reads ▸ List.suffix_rfl
  log := hlog
  consistent hc := by
    refine ⟨h.shows hc.shows, ?_, ?_, ?_⟩ <;> dsimp only <;> rw [h.reads]
    · exact fun r hr => (hc.complete r hr).mono hlog
    · exact hc.ordered
    · exact fun r hr => (hc.numbers r hr).trans h.generation

/-- A change by a live conversation, or one that leaves the data alone. -/
theorem change_of {c' : DemoController} (h : Ordinary m.page c')
    (hdata : strict → Overtaken born m → c'.state.data = m.page.state.data) :
    (contract strict).change born m { m with page := c' } :=
  ⟨h.later fun _ hx => hx, hdata⟩

theorem ordinary_patch {c : DemoController} {change : DemoState → DemoState}
    (h : ∀ s, SameRows s (change s)) : Ordinary c (c.patch change) :=
  ⟨Nat.le_refl _, Nat.le_refl _, rfl, .inl (h _)⟩

theorem not_overtaken (h : m.page.epoch = born) : ¬ Overtaken born m :=
  fun ho => Nat.lt_irrefl _ (h ▸ ho)

/-! ## Where a program may begin -/

section

variable (strict born)

/-- The program may begin at any moment. -/
def Free (p : Page α) : Prop := ∀ m, p.Wp (contract strict) born (fun _ _ => True) m

/-- The program may begin while its conversation is live. -/
def Begun (p : Page α) : Prop :=
  ∀ m, m.page.epoch = born → p.Wp (contract strict) born (fun _ _ => True) m

/-- The program does not wait, and its conversation stays live. -/
def Steady (p : Page α) : Prop :=
  ∀ m, m.page.epoch = born →
    p.Wp (contract strict) born (returning fun _ m => m.page.epoch = born) m

/-- The program may begin while its conversation is live, and `ok` results say that it still is. -/
def Checked (ok : α → Prop) (p : Page α) : Prop :=
  ∀ m, m.page.epoch = born →
    p.Wp (contract strict) born (returning fun a m => ok a → m.page.epoch = born) m

end

variable {p : Page α} {f : α → Page β}

theorem Free.begun (h : Free strict born p) : Begun strict born p := fun m _ => h m

theorem Steady.begun (h : Steady strict born p) : Begun strict born p :=
  fun m hm => (h m hm).mono fun _ _ _ => trivial

theorem free_pure (a : α) : Free strict born (.pure a : Page α) := fun _ => trivial

theorem free_throw (e : Failure) : Free strict born (.throw e : Page α) := fun _ => trivial

theorem Free.bind (hp : Free strict born p) (hf : ∀ a, Free strict born (f a)) :
    Free strict born (p >>= f) := by
  intro m
  refine Async.wp_bind.mpr ((hp m).mono fun r m' _ => ?_)
  cases r with
  | ok a => exact hf a m'
  | error e => trivial

theorem Begun.bind (hp : Begun strict born p) (hf : ∀ a, Free strict born (f a)) :
    Begun strict born (p >>= f) := by
  intro m hm
  refine Async.wp_bind.mpr ((hp m hm).mono fun r m' _ => ?_)
  cases r with
  | ok a => exact hf a m'
  | error e => trivial

theorem Steady.then (hp : Steady strict born p) (hf : ∀ a, Begun strict born (f a)) :
    Begun strict born (p >>= f) := by
  intro m hm
  refine Async.wp_bind.mpr ((hp m hm).mono fun r m' hr => ?_)
  cases r with
  | ok a => exact hf a m' hr
  | error e => trivial

theorem Steady.bind (hp : Steady strict born p) (hf : ∀ a, Steady strict born (f a)) :
    Steady strict born (p >>= f) := by
  intro m hm
  refine Async.wp_bind.mpr ((hp m hm).mono fun r m' hr => ?_)
  cases r with
  | ok a => exact hf a m' hr
  | error e => trivial

theorem Free.attempt {g : Failure → Page α} (hp : Free strict born p)
    (hg : ∀ e, Free strict born (g e)) : Free strict born (p.attempt g) := by
  intro m
  refine Async.wp_attempt.mpr ((hp m).mono fun r m' _ => ?_)
  cases r with
  | ok a => trivial
  | error e => exact hg e m'

theorem Begun.attempt {g : Failure → Page α} (hp : Begun strict born p)
    (hg : ∀ e, Free strict born (g e)) : Begun strict born (p.attempt g) := by
  intro m hm
  refine Async.wp_attempt.mpr ((hp m hm).mono fun r m' _ => ?_)
  cases r with
  | ok a => trivial
  | error e => exact hg e m'

theorem free_read {f : DemoController → Page β} (hf : ∀ c, Free strict born (f c)) :
    Free strict born (Async.read >>= f) :=
  fun m => hf m.page m

theorem begun_read {f : DemoController → Page β} (hf : ∀ c, Begun strict born (f c)) :
    Begun strict born (Async.read >>= f) :=
  fun m hm => hf m.page m hm

/-- Behind a check of `live()`, the conversation is live. -/
theorem free_live {f : Bool → Page β} (hlive : Begun strict born (f true))
    (hover : Free strict born (f false)) : Free strict born (Page.live born >>= f) := by
  intro m
  show (f (decide (m.page.epoch = born))).Wp _ _ _ m
  by_cases h : m.page.epoch = born
  · rw [decide_eq_true h]
    exact hlive m h
  · rw [decide_eq_false h]
    exact hover m

/-- `if (!live()) return x; …`. -/
theorem free_guard {x q : Page β} (hq : Begun strict born q) (hx : Free strict born x) :
    Free strict born (Page.live born >>= fun b => if !b then x else q) :=
  free_live hq hx

/-- `if (live()) …`. -/
theorem free_whenLive {x q : Page β} (hq : Begun strict born q) (hx : Free strict born x) :
    Free strict born (Page.live born >>= fun b => if b then q else x) :=
  free_live hq hx

theorem checked_pure {ok : α → Prop} (a : α) : Checked strict born ok (.pure a : Page α) :=
  fun _ hm _ => hm

theorem Steady.checked {ok : β → Prop} (hp : Steady strict born p)
    (hf : ∀ a, Checked strict born ok (f a)) : Checked strict born ok (p >>= f) := by
  intro m hm
  refine Async.wp_bind.mpr ((hp m hm).mono fun r m' hr => ?_)
  cases r with
  | ok a => exact hf a m' hr
  | error e => trivial

/-- After a wait, the result is that of a check of `live()`. -/
theorem checked_live (hp : Free strict born p) :
    Checked strict born (· = true) (p >>= fun _ => Page.live born) := by
  intro m _
  refine Async.wp_bind.mpr ((hp m).mono fun r m' _ => ?_)
  cases r with
  | ok a => exact fun h => of_decide_eq_true h
  | error e => trivial

/-- After a wait, an overtaken conversation returns something else than `ok` results. -/
theorem checked_guard {ok : β → Prop} {x : β} {q : Page β} (hp : Free strict born p)
    (hx : ¬ ok x) (hq : Checked strict born ok q) :
    Checked strict born ok
      (p >>= fun _ => Page.live born >>= fun b => if !b then pure x else q) := by
  intro m _
  refine Async.wp_bind.mpr ((hp m).mono fun r m' _ => ?_)
  cases r with
  | error e => trivial
  | ok a =>
      show (if !decide (m'.page.epoch = born) then pure x else q).Wp _ _ _ m'
      by_cases h : m'.page.epoch = born
      · rw [decide_eq_true h]
        exact hq m' h
      · rw [decide_eq_false h]
        exact fun hok => absurd hok hx

theorem Checked.begun {ok : α → Prop} (hp : Checked strict born ok p)
    (hf : ∀ a, ok a → Begun strict born (f a)) (hf' : ∀ a, ¬ ok a → Free strict born (f a)) :
    Begun strict born (p >>= f) := by
  intro m hm
  refine Async.wp_bind.mpr ((hp m hm).mono fun r m' hr => ?_)
  cases r with
  | error e => trivial
  | ok a =>
      by_cases h : ok a
      · exact hf a h m' (hr h)
      · exact hf' a h m'

/-! ## Patches -/

theorem steady_modify {g : DemoController → DemoController} (h : ∀ c, Ordinary c (g c))
    (hepoch : ∀ c, (g c).epoch = c.epoch) : Steady strict born (Async.modify g : Page Unit) :=
  fun _ hm => ⟨change_of (h _) fun _ ho => absurd ho (not_overtaken hm), (hepoch _).trans hm⟩

theorem steady_patch {change : DemoState → DemoState} (h : ∀ s, SameRows s (change s)) :
    Steady strict born (Page.patch change) :=
  steady_modify (fun _ => ordinary_patch h) fun _ => rfl

theorem steady_patchPlayback (change : PlaybackState → PlaybackState) :
    Steady strict born (Page.patchPlayback change) :=
  steady_patch fun _ => ⟨rfl, rfl, rfl⟩

theorem steady_patchManual (change : ManualState → ManualState) :
    Steady strict born (Page.patchManual change) :=
  steady_patch fun _ => ⟨rfl, rfl, rfl⟩

/-- A live conversation patches the page and goes on. -/
theorem begun_patch {change : DemoState → DemoState} {q : Page β} (hq : Begun strict born q)
    (h : ∀ s, SameRows s (change s)) : Begun strict born (Page.patch change >>= fun _ => q) :=
  (steady_patch h).then fun _ => hq

theorem begun_patchPlayback {change : PlaybackState → PlaybackState} {q : Page β}
    (hq : Begun strict born q) : Begun strict born (Page.patchPlayback change >>= fun _ => q) :=
  (steady_patchPlayback change).then fun _ => hq

/-- A patch that leaves the data alone needs no check. -/
theorem free_patch {change : DemoState → DemoState} (h : ∀ s, SameRows s (change s))
    (hdata : ∀ s, (change s).data = s.data) : Free strict born (Page.patch change) :=
  fun _ => ⟨change_of (ordinary_patch h) fun _ _ => hdata _, trivial⟩

/-! ## Waits -/

/-- What is known when a request is answered. -/
theorem wp_ask {request : Request} {Q : Except Failure Data → PageMoment → Prop}
    (h : ∀ m' answer, Later m m' → (request, answer) ∈ m'.log →
      (strict → Overtaken born m' → Harmless request answer m') →
      Q (answer.map (·.data)) m') :
    (Page.ask request).Wp (contract strict) born Q m := by
  intro answers m' hm hans hr
  obtain ⟨answer, rest, hanswer, hrest, rfl⟩ := List.forall₂_cons_left_iff.mp hans
  obtain rfl := List.forall₂_nil_left_iff.mp hrest
  exact Async.wp_ofExcept.mpr (h m' answer hm hanswer fun hs => hr _ _ rfl rfl hs)

theorem free_ask (request : Request) : Free strict born (Page.ask request) :=
  fun _ => wp_ask fun _ _ _ _ _ => trivial

theorem free_required (a : Option α) : Free strict born (Page.required a) := by
  cases a with
  | none => exact free_throw _
  | some a => exact free_pure a

/-- A script does nothing to the page. -/
theorem free_onPage (script : Script α) : Free strict born script.onPage := by
  induction script with
  | pure a => exact free_pure a
  | throw e => exact free_throw e
  | get k ih => exact ih ()
  | set s k ih => exact ih
  | all requests k ih => exact fun _ answers m' _ _ _ => ih answers m'

theorem free_sleep : Free strict born Page.sleep :=
  (free_ask .sleep).bind fun _ => free_pure ()

theorem free_gate : Free strict born Page.gate := by
  refine free_read fun c => Free.bind (fun m => ⟨change_of ?_ fun _ _ => rfl, trivial⟩) fun _ =>
    (free_ask _).bind fun _ => free_pure ()
  exact ⟨Nat.le_refl _, Nat.le_refl _, rfl, .inl ⟨rfl, rfl, rfl⟩⟩

end CostEngine.Frontend
