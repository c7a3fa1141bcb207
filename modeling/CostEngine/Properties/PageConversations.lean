import CostEngine.Frontend.Clearing

/-! # An overtaken page conversation writes nothing

The staleness checks of `DemoController` cover what a conversation does after it waited for a
read. They do not cover the callbacks of a reply: a 401 empties the page for whoever gets it,
a command puts its call on the page, and the replies to a session creation and to a clear are
used without a check; nor does a start draw a number for the page reads. `Spared` admits the
replies that reach none of this, and in every run of such replies an overtaken conversation
writes nothing (`overtaken_writes_nothing`). Without it, four parallel commands of one step
that come back 401 wipe the dialog that the first of them opened (`second_401_wipes_dialog`). -/

namespace CostEngine.Frontend

open EventLoop

abbrev PageEvent : Type := Event Action Signal

section

variable (messages : Lang → Messages) (scenarios : List ScenarioDefinition)

/-- A reply for an overtaken conversation is not a 401, and if it answers the request it is
harmless. -/
def Spared (st : PageState) : PageEvent → Prop
  | .act _ => True
  | .arrive i j signal => ∀ c request progress, st.conversations[i]? = some c →
      c.pending[j]? = some (request, .inl progress) → c.born < st.page.epoch →
      signal ≠ .head 401 ∧ ∀ page answer,
        arrive messages request progress signal st.page = some (page, .inr answer) →
          Harmless request answer ⟨st.page, st.log ++ [(request, answer)]⟩

/-- The event ends the session or clears it, or it is a stop or a new start. -/
def Point (st : PageState) : PageEvent → Prop
  | .act (.start scenarioId _) => (∃ definition, scenarios.find? (·.id = scenarioId) = some definition)
      ∧ ¬ (st.page.isActive = true ∨ st.page.state.clearing = true)
  | .act .stop => st.page.state.playback.map (·.status) = some .waiting
  | .act _ => False
  | .arrive i j signal => ∃ c request progress, st.conversations[i]? = some c
      ∧ c.pending[j]? = some (request, .inl progress)
      ∧ (signal = .head 401 ∨ request = .reset ∧ ∃ page reply,
          arrive messages request progress signal st.page = some (page, .inr (.ok reply)))

/-- The data of a page whose session has ended. -/
def endedData (lang : Lang) : SessionData :=
  { (empty lang).data with
    dialog :=
      let error := errorMessage (messages lang) (.api ⟨401, "DEMO_SESSION_UNAVAILABLE"⟩)
      some (.error (messages lang).sessionEnded error.2 (some error.1) none) }

/-- The session of the page has ended with the event. -/
def EndsSession (st : PageState) (ev : PageEvent) : Prop :=
  (∃ i j, ev = .arrive i j (.head 401)) ∧ st.page.state.session.isSome

/-- The viewer does nothing. -/
def Arrival (ev : PageEvent) : Prop := ∃ i j signal, ev = .arrive i j signal

end

variable {messages : Lang → Messages} {scenarios : List ScenarioDefinition} {strict : Prop}
  {lang : Lang} {st st' st'' : PageState} {ev : PageEvent} {i j : Nat} {signal : Signal}
  {P : PageState → PageEvent → Prop}

/-! ## The admitted replies -/

theorem finish_counters (request : Request) (answer : Answer) (c : DemoController) :
    (finish request answer c).1.epoch = c.epoch
      ∧ (finish request answer c).1.generation = c.generation := by
  unfold finish finishPost
  split
  · dsimp only
    split
    · split
      · split <;> exact ⟨rfl, rfl⟩
      · exact ⟨rfl, rfl⟩
    · exact ⟨rfl, rfl⟩
    · exact ⟨rfl, rfl⟩
  · exact ⟨rfl, rfl⟩

/-- An answer leaves the counters alone. -/
theorem Arrives.answer_epoch {request : Request} {progress : Progress} {c c' : DemoController}
    {answer : Answer} (h : Arrives messages request progress signal c c' (.inr answer)) :
    c'.epoch = c.epoch := by
  generalize hout : (.inr answer : Progress ⊕ Answer) = outcome at h
  cases h with
  | ended next hsignal hsent => cases hout
  | answered answer' hsignal => exact (finish_counters request answer' c).1
  | goesOn next hsignal hsent => cases hout

theorem Arrives.of_401 {request : Request} {progress : Progress} {c c' : DemoController}
    {outcome : Progress ⊕ Answer} (h : Arrives messages request progress signal c c' outcome)
    (hsignal : signal = .head 401) :
    c' = c.sessionEnded messages ∧ ∃ next, outcome = .inl next := by
  cases h with
  | ended next h hsent => exact ⟨rfl, next, rfl⟩
  | answered answer h => exact absurd hsignal h
  | goesOn next h hsent => exact absurd hsignal h

/-- A request that goes on was sent before, or just now. -/
theorem Arrives.sent {request : Request} {progress next : Progress} {c c' : DemoController}
    {outcome : Progress ⊕ Answer}
    (h : Arrives messages request progress signal c c' outcome) (hout : outcome = .inl next) :
    next.sent = progress.sent ∨ next.sent = c.epoch := by
  cases h with
  | ended next' hsignal hsent =>
      cases hout
      exact .inl hsent
  | answered answer hsignal =>
      unfold finish at hout
      split at hout <;> cases hout
  | goesOn next' hsignal hsent =>
      cases hout
      exact hsent

/-- A reply that is spared leaves the page to the conversation as it is. -/
theorem Spared.page_eq (h : Spared messages st (.arrive i j signal))
    (a : (loop messages scenarios).Arrival i j signal st st')
    (ho : a.conversation.born < st.page.epoch) : a.page = st.page := by
  obtain ⟨hsignal, hharmless⟩ := h _ _ _ a.conversation_eq a.pending_eq ho
  refine (arrives_arrive a.arrive_eq).unchanged hsignal fun answer hanswer => ?_
  exact (hharmless a.page answer (hanswer ▸ a.arrive_eq)).command

theorem admits_spared : (loop messages scenarios).Admits (contract True) (Spared messages) := by
  intro st st' i j signal a answers hspared hanswers request answer hrequests hanswer _ ho
  subst hanswer
  obtain ⟨rfl, hout⟩ := a.single hrequests hanswers
  have harrives := arrives_arrive a.arrive_eq
  rw [hout] at harrives
  have ho' : a.conversation.born < st.page.epoch := harrives.answer_epoch ▸ ho
  have hharmless := (hspared _ _ _ a.conversation_eq a.pending_eq ho').2 a.page answer
    (hout ▸ a.arrive_eq)
  have hmoment : a.moment = ⟨st.page, st.log ++ [(a.op, answer)]⟩ := by
    unfold Loop.Arrival.moment
    rw [hspared.page_eq a ho', hout]
    rfl
  exact hmoment ▸ hharmless

theorem admits_any : (loop messages scenarios).Admits (contract False) P := by
  intro st st' i j signal a answers _ _ request answer _ _ hstrict
  exact hstrict.elim

/-! ## The invariant of a run -/

/-- The conversation is no younger than its requests, and these are no younger than the page. -/
def Dated (epoch : Nat) (c : Conversation DemoController Request Progress Answer Failure) :
    Prop :=
  c.born ≤ epoch ∧ ∀ request progress, (request, .inl progress) ∈ c.pending →
    c.born ≤ progress.sent ∧ progress.sent ≤ epoch

theorem dated_waiting {born : Nat} {c : DemoController}
    {status : Status DemoController Request Answer Failure Unit} (h : born ≤ c.epoch) :
    Dated c.epoch ((loop messages scenarios).waiting born c status) := by
  refine ⟨Loop.waiting_born.trans_le h, fun request progress hmem => ?_⟩
  obtain rfl := Sum.inl.inj (Loop.mem_waiting hmem)
  exact ⟨Loop.waiting_born.trans_le h, Nat.le_refl _⟩

structure Invariant (messages : Lang → Messages) (strict : Prop) (st : PageState) : Prop where
  sound : Loop.Sound (contract strict) st
  consistent : Consistent st.moment
  dated : ∀ c ∈ st.conversations, Dated st.page.epoch c
  clears : ∀ c ∈ st.conversations, ClearsOnly messages c.ops c.rest

theorem invariant_opened : Invariant messages strict (opened lang) where
  sound := nofun
  consistent := ⟨.inl ⟨rfl, rfl, rfl⟩, nofun, .nil, nofun⟩
  dated := nofun
  clears := nofun

theorem dated_step (hst : Invariant messages strict st)
    (hlater : Later st.moment st'.moment)
    (h : (loop messages scenarios).step ev st = some st') :
    ∀ c ∈ st'.conversations, Dated st'.page.epoch c := by
  intro c hc
  rcases Loop.step_conversation h hc with
    hc | ⟨action, rfl, rfl⟩ | ⟨i, j, signal, rfl, a, ⟨hpage, rfl⟩ | ⟨answers, rfl⟩⟩
  · obtain ⟨hborn, hsent⟩ := hst.dated c hc
    exact ⟨hborn.trans hlater.epoch, fun request progress hmem =>
      ⟨(hsent request progress hmem).1, (hsent request progress hmem).2.trans hlater.epoch⟩⟩
  · cases h
    have hkeeps : (loop messages scenarios).Keeps (contract strict) := keeps
    exact dated_waiting (hkeeps.act action st.moment).2.run.1.1.epoch
  · obtain ⟨hborn, hsent⟩ := hst.dated _ a.mem
    refine ⟨hborn.trans hlater.epoch, fun request progress hmem => ?_⟩
    rcases List.mem_or_eq_of_mem_set hmem with hmem | hmem
    · exact ⟨(hsent request progress hmem).1, (hsent request progress hmem).2.trans hlater.epoch⟩
    · obtain ⟨rfl, hout⟩ := Prod.mk.inj hmem
      have harrives := arrives_arrive a.arrive_eq
      have hsent' := hsent _ _ (List.mem_of_getElem? a.pending_eq)
      have hsent_eq := harrives.sent hout.symm
      have hepoch : st.page.epoch ≤ st'.page.epoch := hlater.epoch
      show a.conversation.born ≤ progress.sent ∧ progress.sent ≤ st'.page.epoch
      omega
  · exact dated_waiting ((hst.dated _ a.mem).1.trans hlater.epoch)

theorem Invariant.step (hP : (loop messages scenarios).Admits (contract strict) P)
    (hst : Invariant messages strict st) (h : (loop messages scenarios).StepWhere P st st') :
    Invariant messages strict st' := by
  have hlater : Later st.moment st'.moment := hst.sound.later keeps hP h
  obtain ⟨ev, hev, hstep⟩ := h
  exact
    { sound := hst.sound.step keeps hP ⟨ev, hev, hstep⟩
      consistent := hlater.consistent hst.consistent
      dated := dated_step hst hlater hstep
      clears := clearsOnly_step hst.clears hstep }

theorem Invariant.run (hP : (loop messages scenarios).Admits (contract strict) P)
    (hst : Invariant messages strict st) (h : (loop messages scenarios).RunWhere P st st') :
    Invariant messages strict st' := by
  induction h with
  | refl => exact hst
  | tail _ hs ih => exact ih.step hP hs

/-! ## What one event does -/

/-- A reply that is spared does not let an overtaken conversation write. -/
theorem overtaken_unchanged (hst : Invariant messages True st)
    (hspared : Spared messages st (.arrive i j signal))
    (a : (loop messages scenarios).Arrival i j signal st st')
    (ho : a.conversation.born < st.page.epoch) : st'.page.state.data = st.page.state.data := by
  have hpage := hspared.page_eq a ho
  have hchange := (hst.sound.arrive keeps a fun answers => admits_spared a hspared).2
  have ho' : Overtaken a.conversation.born a.moment := by
    show a.conversation.born < a.page.epoch
    rw [hpage]
    exact ho
  have hdata : st'.page.state.data = a.page.state.data := hchange.2 trivial ho'
  rw [hdata, hpage]

theorem start_epoch {scenarioId : String} {mode : Mode} {c : DemoController}
    {definition : ScenarioDefinition}
    (hfind : scenarios.find? (·.id = scenarioId) = some definition)
    (hfree : ¬ (c.isActive = true ∨ c.state.clearing = true)) :
    (start messages scenarios scenarioId mode c).1.epoch = c.epoch + 1 := by
  unfold start
  rw [hfind]
  dsimp only
  rw [if_neg hfree]
  unfold beginPlay
  dsimp only
  split <;> rfl

theorem stop_epoch {c : DemoController} (h : c.state.playback.map (·.status) = some .waiting) :
    (stop c).epoch = c.epoch + 1 := by
  unfold stop
  rw [if_pos h]
  rfl

/-- A 401 ends the session at once. -/
theorem page_of_401 (a : (loop messages scenarios).Arrival i j (.head 401) st st') :
    st'.page = st.page.sessionEnded messages := by
  obtain ⟨hpage, next, hout⟩ := (arrives_arrive a.arrive_eq).of_401 rfl
  rw [a.page_of_inl hout, hpage]

/-- A good reply to a reset empties the page. -/
theorem page_of_reset (hst : Invariant messages strict st)
    (a : (loop messages scenarios).Arrival i j signal st st') (hop : a.op = .reset)
    {reply : Reply} (hout : a.outcome = .inr (.ok reply)) : st'.page = a.page.cleared := by
  have hmem : .reset ∈ a.conversation.ops :=
    List.mem_map.mpr ⟨_, List.mem_of_getElem? a.pending_eq, hop⟩
  obtain ⟨hops, hrest⟩ := (hst.clears _ a.mem).1 hmem
  have hm := a.moment_eq
  rw [a.answers_single hops hout, hrest] at hm
  exact congrArg Moment.page hm

/-- Every point is counted. -/
theorem point_epoch (hst : Invariant messages strict st) (hpoint : Point messages scenarios st ev)
    (h : (loop messages scenarios).step ev st = some st') : st.page.epoch < st'.page.epoch := by
  cases ev with
  | act action =>
      cases h
      have hkeeps : (loop messages scenarios).Keeps (contract strict) := keeps
      have hrun : (act messages scenarios action st.page).1.epoch
          ≤ ((loop messages scenarios).actOn action st).page.epoch :=
        (hkeeps.act action st.moment).2.run.1.1.epoch
      cases action with
      | start scenarioId mode =>
          obtain ⟨⟨definition, hfind⟩, hfree⟩ := hpoint
          have hstart : (start messages scenarios scenarioId mode st.page).1.epoch = _ :=
            start_epoch hfind hfree
          exact Nat.lt_of_succ_le (hstart.ge.trans hrun)
      | stop => exact Nat.lt_of_succ_le ((stop_epoch hpoint).ge.trans hrun)
      | _ => exact hpoint.elim
  | arrive i j signal =>
      obtain ⟨c, request, progress, hc, hp, hpoint⟩ := hpoint
      obtain ⟨a⟩ := Loop.arriveAt_eq_some h
      obtain rfl : a.conversation = c := Option.some.inj (a.conversation_eq.symm.trans hc)
      have hopen := Option.some.inj (a.pending_eq.symm.trans hp)
      obtain ⟨hop, hprogress⟩ := Prod.mk.inj hopen
      obtain rfl := Sum.inl.inj hprogress
      rcases hpoint with rfl | ⟨hreset, page, reply, harrive⟩
      · rw [page_of_401 a]
        exact Nat.lt_succ_self _
      · have heq := Option.some.inj (a.arrive_eq.symm.trans (hop ▸ harrive))
        obtain ⟨hpage, hout⟩ := Prod.mk.inj heq
        have harrives := arrives_arrive a.arrive_eq
        rw [hout] at harrives
        rw [page_of_reset hst a (hop.trans hreset) hout]
        exact Nat.lt_succ_of_le harrives.answer_epoch.ge

/-! ## After the session's end -/

/-- Every conversation is overtaken, and the page shows `data`. -/
structure Silent (data : SessionData) (st : PageState) : Prop where
  overtaken : ∀ c ∈ st.conversations, c.born < st.page.epoch
  data : st.page.state.data = data

theorem Silent.step {data : SessionData} (hsilent : Silent data st)
    (hst : Invariant messages True st)
    (h : (loop messages scenarios).StepWhere
      (fun st ev => Spared messages st ev ∧ Arrival ev) st st') : Silent data st' := by
  obtain ⟨ev, ⟨hspared, i, j, signal, rfl⟩, hstep⟩ := h
  obtain ⟨a⟩ := Loop.arriveAt_eq_some hstep
  have hlater : Later st.moment st'.moment :=
    hst.sound.later keeps admits_spared ⟨_, hspared, hstep⟩
  refine ⟨fun c hc => ?_, ?_⟩
  · obtain ⟨c₀, hc₀, hborn⟩ := Loop.arriveAt_born hstep hc
    rw [hborn]
    exact Nat.lt_of_lt_of_le (hsilent.overtaken c₀ hc₀) hlater.epoch
  · rw [overtaken_unchanged hst hspared a (hsilent.overtaken _ a.mem)]
    exact hsilent.data

theorem Silent.run {data : SessionData} (hsilent : Silent data st)
    (hst : Invariant messages True st)
    (h : (loop messages scenarios).RunWhere
      (fun st ev => Spared messages st ev ∧ Arrival ev) st st') : Silent data st' := by
  have hP : (loop messages scenarios).Admits (contract True)
      (fun st ev => Spared messages st ev ∧ Arrival ev) :=
    fun a _ hev => admits_spared a hev.1
  induction h with
  | refl => exact hsilent
  | tail hrun hs ih => exact ih.step (hst.run hP hrun) hs

/-- With the session, the page is emptied, and every conversation is overtaken. -/
theorem silent_of_ended (hst : Invariant messages strict st) (hended : EndsSession st ev)
    (h : (loop messages scenarios).step ev st = some st') :
    Silent (endedData messages st.page.state.lang) st' := by
  obtain ⟨⟨i, j, rfl⟩, hsession⟩ := hended
  obtain ⟨a⟩ := Loop.arriveAt_eq_some h
  have hpage := page_of_401 a
  refine ⟨fun c hc => ?_, ?_⟩
  · obtain ⟨c₀, hc₀, hborn⟩ := Loop.arriveAt_born h hc
    rw [hborn, hpage]
    exact Nat.lt_succ_of_le (hst.dated c₀ hc₀).1
  · rw [hpage]
    simp only [DemoController.sessionEnded, DemoState.data, hsession, if_true]
    rfl

/-! ## The theorem -/

/-- In a run whose replies are all spared: the page shows whole reads and never an older one
after a newer one; after a point, no reply to a request sent before changes the session's data;
and a page whose session has ended stays so until the viewer acts. -/
theorem overtaken_writes_nothing
    (hrun : (loop messages scenarios).RunWhere (Spared messages) (opened lang) st)
    (hev : Spared messages st ev) (hstep : (loop messages scenarios).step ev st = some st') :
    (Consistent st'.moment ∧ st.page.reads <:+ st'.page.reads)
      ∧ (Point messages scenarios st ev →
          (∀ c ∈ st.conversations, ∀ request progress, (request, .inl progress) ∈ c.pending →
            progress.sent ≤ st.page.epoch)
          ∧ ∀ st₁ st₂ i j signal, (loop messages scenarios).RunWhere (Spared messages) st' st₁ →
            Spared messages st₁ (.arrive i j signal) →
            (loop messages scenarios).step (.arrive i j signal) st₁ = some st₂ →
            ∀ c request progress, st₁.conversations[i]? = some c →
              c.pending[j]? = some (request, .inl progress) → progress.sent ≤ st.page.epoch →
              st₂.page.state.data = st₁.page.state.data)
      ∧ (EndsSession st ev → ∀ st₁, (loop messages scenarios).RunWhere
          (fun st ev => Spared messages st ev ∧ Arrival ev) st' st₁ →
          st₁.page.state.data = endedData messages st.page.state.lang) := by
  have hst : Invariant messages True st := invariant_opened.run admits_spared hrun
  have hst' : Invariant messages True st' := hst.step admits_spared ⟨ev, hev, hstep⟩
  have hlater : Later st.moment st'.moment :=
    hst.sound.later keeps admits_spared ⟨ev, hev, hstep⟩
  refine ⟨⟨hst'.consistent, hlater.reads⟩, fun hpoint => ⟨?_, ?_⟩, fun hended st₁ hrun₁ => ?_⟩
  · exact fun c hc request progress hmem => ((hst.dated c hc).2 request progress hmem).2
  · intro st₁ st₂ i j signal hrun₁ hspared hstep₁ c request progress hc hp hsent
    obtain ⟨a⟩ := Loop.arriveAt_eq_some hstep₁
    obtain rfl : a.conversation = c := Option.some.inj (a.conversation_eq.symm.trans hc)
    have hst₁ : Invariant messages True st₁ := hst'.run admits_spared hrun₁
    have hborn := ((hst₁.dated _ a.mem).2 request progress (List.mem_of_getElem? hp)).1
    have hlater₁ : Later st'.moment st₁.moment :=
      hst'.sound.run_later keeps admits_spared hrun₁
    have hepoch : st'.page.epoch ≤ st₁.page.epoch := hlater₁.epoch
    have hpoint := point_epoch hst hpoint hstep
    exact overtaken_unchanged hst₁ hspared a (by omega)
  · exact ((silent_of_ended hst hended hstep).run hst' hrun₁).data

/-- Whatever replies come, the page shows whole reads, and never an older one after a newer. -/
theorem consistent_run
    (h : (loop messages scenarios).RunWhere (fun _ _ => True) (opened lang) st) :
    Consistent st.moment :=
  (invariant_opened.run (admits_any (P := fun _ _ => True)) h).consistent

/-! ## A page that loads twice -/

/-- The page with one scenario. -/
def sampleLoop : Loop DemoController Request Progress Answer Signal Action Failure :=
  loop (fun _ => en) [⟨"conflicting-requests", "Conflicting requests", conflictingRequests⟩]

def sampleSessionBody : Body :=
  .json none (.session ⟨"0b9f", "DEMO", "2026-01-01T00:00:00.000Z", "ACTIVE"⟩) none

/-- A good reply to the request of conversation `i`. -/
def replies (i : Nat) (body : Body) : List PageEvent :=
  [.arrive i 0 (.head 200), .arrive i 0 (.body body)]

/-- A test for `Harmless`. -/
def harmless (request : Request) (answer : Answer) (generation : Nat) : Bool :=
  request.command?.isNone && match request, answer with
    | .createSession, .ok _ => false
    | .reset, .ok _ => false
    | .reset, .error e => e.status? = some 401
    | .list number _, .ok _ => number ≠ generation
    | _, _ => true

def isArrival : PageEvent → Bool
  | .act _ => false
  | .arrive _ _ _ => true

theorem isArrival_sound {ev : PageEvent} (h : isArrival ev = true) : Arrival ev := by
  cases ev with
  | act action => cases h
  | arrive i j signal => exact ⟨i, j, signal, rfl⟩

/-- A test for `Spared`. -/
def spared (messages : Lang → Messages) (st : PageState) : PageEvent → Bool
  | .act _ => true
  | .arrive i j signal =>
      match (st.conversations[i]?).bind fun c => (c.pending[j]?).map fun p => (c.born, p) with
      | some (born, request, .inl progress) =>
          st.page.epoch ≤ born || signal ≠ .head 401 &&
            match arrive messages request progress signal st.page with
            | some (_, .inr answer) => harmless request answer st.page.generation
            | _ => true
      | _ => true

theorem harmless_sound {request : Request} {answer : Answer} {m : PageMoment}
    (h : harmless request answer m.page.generation = true) : Harmless request answer m := by
  obtain ⟨hcommand, h⟩ := Bool.and_eq_true_iff.mp h
  refine ⟨Option.isNone_iff_eq_none.mp hcommand, ?_, ?_, ?_⟩
  · rintro rfl
    cases answer with
    | ok reply => cases h
    | error e => exact ⟨e, rfl⟩
  · rintro rfl
    cases answer with
    | ok reply => cases h
    | error e => exact ⟨e, rfl, of_decide_eq_true h⟩
  · rintro number listing rfl ⟨reply, rfl⟩ hnumber
    exact absurd hnumber (of_decide_eq_true h)

theorem spared_sound {ev : PageEvent} (h : spared messages st ev = true) :
    Spared messages st ev := by
  cases ev with
  | act action => trivial
  | arrive i j signal =>
      intro c request progress hc hp ho
      simp only [spared, hc, hp, Option.bind_some, Option.map_some, Bool.or_eq_true,
        decide_eq_true_eq, Bool.and_eq_true] at h
      obtain ⟨hsignal, h⟩ := h.resolve_left (by omega)
      refine ⟨hsignal, fun page answer harrive => ?_⟩
      rw [harrive] at h
      exact harmless_sound h

/-- Two reads of the session; the second comes back 401 while the first one's page read is on
its way, which still brings a dataset and its jobs. -/
theorem overtaken_writes_nothing_loaded :
    ∃ st st' st₁, sampleLoop.RunWhere (Spared fun _ => en) (opened .en) st
      ∧ st.page.state.session.isSome
      ∧ sampleLoop.step (.arrive 1 0 (.head 401)) st = some st'
      ∧ sampleLoop.RunWhere (fun st ev => Spared (fun _ => en) st ev ∧ Arrival ev) st' st₁
      ∧ st₁.log.length = 4 ∧ st₁.page.state.data = endedData (fun _ => en) .en := by
  have hplayed : ∃ st, sampleLoop.script (spared fun _ => en)
      ([.act .load, .act .load] ++ replies 0 sampleSessionBody) (opened .en) = some st
      ∧ ((sampleLoop.step (.arrive 1 0 (.head 401)) st).any fun st' =>
        st.page.state.session.isSome && decide (st.page.state.lang = .en)
          && spared (fun _ => en) st (.arrive 1 0 (.head 401))
          && (sampleLoop.script (fun st ev => spared (fun _ => en) st ev && isArrival ev)
            (replies 0 (.json none (.datasets
                [⟨"d", "s", "CAPEX", 2026, "Q1", 1, "DRAFT", "2026-01-01T00:00:00.000Z"⟩]) none)
              ++ replies 0 (.json none (.jobs []) none)
              ++ [.arrive 1 0 (.body (.json (some "DEMO_SESSION_UNAVAILABLE") .void none))]) st').any
            fun st₁ => st₁.log.length = 4) = true :=
    (Option.any_eq_true _ _).mp (show (_ : Option PageState).any _ = true by decide +kernel)
  obtain ⟨st, hscript, h⟩ := hplayed
  obtain ⟨st', hstep, h⟩ := (Option.any_eq_true _ _).mp h
  simp only [Bool.and_eq_true, decide_eq_true_eq] at h
  obtain ⟨⟨⟨hsession, hlang⟩, hspared⟩, h⟩ := h
  obtain ⟨st₁, hscript₁, hlog⟩ := (Option.any_eq_true _ _).mp h
  have hrun : sampleLoop.RunWhere (Spared fun _ => en) (opened .en) st :=
    Loop.script_run (fun _ _ => spared_sound) hscript
  have hrun₁ : sampleLoop.RunWhere (fun st ev => Spared (fun _ => en) st ev ∧ Arrival ev) st' st₁ :=
    Loop.script_run (fun st ev hev => ⟨spared_sound (Bool.and_eq_true_iff.mp hev).1,
      isArrival_sound (Bool.and_eq_true_iff.mp hev).2⟩) hscript₁
  refine ⟨st, st', st₁, hrun, hsession, hstep, hrun₁, of_decide_eq_true hlog, ?_⟩
  have hdata := (overtaken_writes_nothing hrun (spared_sound hspared) hstep).2.2
    ⟨⟨1, 0, rfl⟩, hsession⟩ st₁ hrun₁
  rwa [hlang] at hdata

/-! ## Four commands at once -/

/-- A visitor with a session plays 'conflicting-requests', up to its four commands. -/
def fourCommands : List PageEvent :=
  [.act .load] ++ replies 0 sampleSessionBody ++ replies 0 (.json none (.datasets []) none)
    ++ replies 0 (.json none (.workflow ⟨[]⟩) none)
    ++ [.act (.start "conflicting-requests" .auto)] ++ replies 1 (.json none (.workflow ⟨[]⟩) none)
    ++ replies 1 (.json none (.datasets []) none)

/-- The first 401 ends the session and opens the dialog. The second one, to a request that was
sent by then, wipes it. -/
theorem second_401_wipes_dialog :
    ∃ st st' st'', sampleLoop.RunWhere (fun _ _ => True) (opened .en) st
      ∧ st.page.state.session.isSome
      ∧ (st.conversations.map fun c => c.pending.map (·.1))
          = [[], List.replicate 4 (.scenario (.post
              (ScenarioApi.createDataset ⟨some 2026, some "Q1"⟩ "CAPEX")))]
      ∧ sampleLoop.step (.arrive 1 0 (.head 401)) st = some st'
      ∧ st'.page.state.data = endedData (fun _ => en) .en
      ∧ sampleLoop.step (.arrive 1 1 (.head 401)) st' = some st''
      ∧ st''.page.state.dialog = none := by
  have hplayed : ∃ st, sampleLoop.script (fun _ _ => true) fourCommands (opened .en) = some st
      ∧ ((sampleLoop.step (.arrive 1 0 (.head 401)) st).any fun st' =>
        (sampleLoop.step (.arrive 1 1 (.head 401)) st').any fun st'' =>
          st.page.state.session.isSome
            && decide ((st.conversations.map fun c => c.pending.map (·.1))
              = [[], List.replicate 4 (.scenario (.post
                  (ScenarioApi.createDataset ⟨some 2026, some "Q1"⟩ "CAPEX")))])
            && decide (st'.page.state.data = endedData (fun _ => en) .en)
            && decide (st''.page.state.dialog = none)) = true :=
    (Option.any_eq_true _ _).mp (show (_ : Option PageState).any _ = true by decide +kernel)
  obtain ⟨st, hscript, h⟩ := hplayed
  obtain ⟨st', hstep, h⟩ := (Option.any_eq_true _ _).mp h
  obtain ⟨st'', hstep', h⟩ := (Option.any_eq_true _ _).mp h
  simp only [Bool.and_eq_true, decide_eq_true_eq] at h
  obtain ⟨⟨⟨hsession, hpending⟩, hended⟩, hwiped⟩ := h
  exact ⟨st, st', st'', Loop.script_run (fun _ _ _ => trivial) hscript, hsession, hpending, hstep,
    hended, hstep', hwiped⟩

end CostEngine.Frontend
