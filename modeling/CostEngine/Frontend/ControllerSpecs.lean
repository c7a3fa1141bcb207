import CostEngine.Frontend.PageReads

/-! # The conversations of `DemoController` keep the contract

One lemma for each function of the controller, and from them `keeps`: every action begins a
conversation that keeps the contract, and what arrives changes the page as every event may. -/

namespace CostEngine.Frontend

open EventLoop
open EventLoop.Async (returning)

variable {strict : Prop} {born : Nat} {m : PageMoment} {messages : Lang → Messages}

/-! ## Sessions and links -/

/-- A good reply to an overtaken session creation is not harmless. -/
theorem free_openSession : Free strict born openSession := by
  refine free_read fun c => ?_
  split
  · intro m
    refine Async.wp_bind.mpr (wp_ask fun m' answer _ _ hharmless => ?_)
    cases answer with
    | error e => trivial
    | ok reply =>
        refine ⟨change_of (ordinary_patch fun _ => ⟨rfl, rfl, rfl⟩) fun hs ho => ?_, trivial⟩
        obtain ⟨e, he⟩ := (hharmless hs ho).session rfl
        cases he
  · exact free_pure ()

/-- The links do not belong to the session's data. -/
theorem free_readWorkflow : Free strict born readWorkflow :=
  (free_ask .workflow).bind fun _ => (free_required _).bind fun _ =>
    free_patch (fun _ => ⟨rfl, rfl, rfl⟩) fun _ => rfl

theorem free_ensureSession : Free strict born ensureSession :=
  free_openSession.bind fun _ => free_readWorkflow

theorem steady_showError (title : Messages → String) (error : Failure) :
    Steady strict born (showError messages title error) :=
  steady_patch fun _ => ⟨rfl, rfl, rfl⟩

theorem free_load : Free strict born (load messages born) := by
  refine Free.attempt ?_ fun error => ?_
  · refine (free_ask .currentSession).bind fun data => free_guard ?_ (free_pure ())
    refine begun_patch (Free.begun ?_) fun _ => ⟨rfl, rfl, rfl⟩
    exact free_refresh.bind fun _ => free_whenLive free_readWorkflow.begun (free_pure ())
  · refine free_guard ?_ (free_pure ())
    split
    · exact (free_pure ()).begun
    · exact (steady_showError _ _).begun

/-! ## Playing -/

section

variable {plan : ScenarioPlan} {mode : Mode}

theorem checked_awaitViewer (resumed : Bool) (title : String) :
    Checked strict born (· = true) (awaitViewer mode born resumed title) := by
  unfold awaitViewer
  split
  · exact (steady_patchPlayback _).checked fun _ => checked_live free_gate
  · exact checked_pure true

theorem checked_afterStep (pause : Option PauseRequest) (last : Bool) :
    Checked strict born (·.isSome) (afterStep mode born pause last) := by
  cases pause with
  | some pause =>
      refine Steady.checked (steady_patch fun _ => ⟨rfl, rfl, rfl⟩) fun _ => ?_
      refine (steady_patchPlayback _).checked fun _ => ?_
      refine checked_guard free_gate (by simp) ?_
      refine Steady.checked (steady_patch fun _ => ⟨rfl, rfl, rfl⟩) fun _ => ?_
      exact (steady_patchPlayback _).checked fun _ => checked_pure _
  | none =>
      unfold afterStep
      dsimp only
      split
      · exact checked_guard free_sleep (by simp) (checked_pure _)
      · exact checked_pure _

theorem steady_focus (seriesId : Option String) : Steady strict born (focus seriesId) := by
  cases seriesId with
  | none => exact fun _ hm => hm
  | some id => exact steady_patch fun _ => ⟨rfl, rfl, rfl⟩

theorem begun_playSteps {api : ScenarioApi} {steps : List (ScenarioStep plan.Memory)}
    {index : Nat} {resumed : Bool} {memory : plan.Memory} :
    Begun strict born (playSteps plan mode born api steps index resumed memory) := by
  induction steps generalizing index resumed memory with
  | nil =>
      refine Free.begun ((free_onPage _).bind fun summary => free_guard ?_ (free_pure ()))
      refine begun_patchPlayback ?_
      exact Steady.begun (steady_patch fun _ => ⟨rfl, rfl, rfl⟩)
  | cons step steps ih =>
      refine (checked_awaitViewer resumed step.title).begun (fun live hlive => ?_) fun live hover => ?_
      · subst hlive
        refine begun_patchPlayback (Free.begun ((free_onPage _).bind fun result => ?_))
        refine free_guard ?_ (free_pure ())
        refine begun_patchPlayback ((steady_focus _).then fun _ => Free.begun ?_)
        refine free_refresh.bind fun _ => free_guard ?_ (free_pure ())
        refine (checked_afterStep _ _).begun (fun resumed hr => ?_) fun resumed hr => ?_
        · obtain ⟨resumed, rfl⟩ := Option.isSome_iff_exists.mp hr
          exact ih
        · obtain rfl := Option.not_isSome_iff_eq_none.mp hr
          exact free_pure ()
      · rw [Bool.eq_false_of_not_eq_true hover]
        exact free_pure ()

theorem steady_showStopped (error : Failure) :
    Steady strict born (showStopped messages error) := by
  cases error with
  | mismatch message => exact steady_patch fun _ => ⟨rfl, rfl, rfl⟩
  | api e => exact steady_showError _ _
  | typeError => exact steady_showError _ _

theorem free_play : Free strict born (play messages plan mode born) := by
  refine Free.attempt ?_ fun error => ?_
  · refine free_ensureSession.bind fun _ => free_guard (Free.begun ?_) (free_pure ())
    refine free_refresh.bind fun _ => free_guard ?_ (free_pure ())
    exact begun_read fun c => begun_playSteps
  · refine free_guard (begun_patchPlayback ?_) (free_pure ())
    exact (steady_showStopped error).then fun _ => free_tryRefresh.begun

end

/-! ## Manual commands -/

theorem free_actManually {action : ScenarioApi → Page String} {api : ScenarioApi}
    (h : Free strict born (action api)) :
    Free strict born (actManually messages action api born) := by
  refine Free.attempt ?_ fun error => ?_
  · refine free_ensureSession.bind fun _ => free_guard (Free.begun ?_) (free_pure ())
    refine h.bind fun message => free_guard (Free.begun ?_) (free_pure ())
    refine free_refresh.bind fun _ => free_guard ?_ (free_pure ())
    exact (steady_patchManual _).begun
  · refine free_guard (begun_patch ?_ fun _ => ⟨rfl, rfl, rfl⟩) (free_pure ())
    refine (free_tryRefresh.bind fun _ => ?_).begun
    exact free_whenLive (steady_patchManual _).begun (free_pure ())

theorem free_texts : Free strict born (texts messages) := fun _ => trivial

/-- An overtaken conversation does not go on with the reply of a command, so the version is
patched by a live one. -/
theorem free_createVersion (api : ScenarioApi) :
    Free strict born (createVersion messages api) := by
  refine free_read fun c => (free_required _).bind fun manual => ?_
  intro m answers m' _ hans hr
  obtain ⟨answer, rest, hanswer, hrest, rfl⟩ := List.forall₂_cons_left_iff.mp hans
  obtain rfl := List.forall₂_nil_left_iff.mp hrest
  have hcommand : strict → ¬ Overtaken born m' :=
    fun hs ho => nomatch (hr _ _ rfl rfl hs ho).command
  cases answer with
  | error e => trivial
  | ok reply =>
      show Async.Wp _ _ ((Script.onPage (Script.required reply.data.created?)).bind _) _ m'
      cases reply.data.created? with
      | none => trivial
      | some created =>
          refine ⟨change_of (ordinary_patch fun _ => ⟨rfl, rfl, rfl⟩) fun hs ho => ?_, trivial⟩
          exact absurd ho (hcommand hs)

theorem free_versionCommand (versionId command : String) (api : ScenarioApi) :
    Free strict born (versionCommand messages versionId command api) :=
  (free_onPage _).bind fun _ => free_texts.bind fun _ => free_pure _

theorem free_runJob (jobId title : String) (outcome : RunOutcome) (api : ScenarioApi) :
    Free strict born (runJob messages jobId title outcome api) := by
  refine free_texts.bind fun t => ?_
  cases outcome with
  | unknown => exact (free_onPage _).bind fun _ => free_pure _
  | succeeded =>
      exact (free_onPage _).bind fun _ => (free_onPage _).bind fun _ => free_pure _
  | failed => exact (free_onPage _).bind fun _ => (free_onPage _).bind fun _ => free_pure _

theorem free_checkResult (jobId title : String) (api : ScenarioApi) :
    Free strict born (checkResult messages jobId title api) :=
  (free_onPage _).bind fun _ => free_read fun _ => (free_onPage _).bind fun _ =>
    free_texts.bind fun _ => free_pure _

/-! ## Clearing -/

theorem ordinary_abandon (c : DemoController) : Ordinary c c.abandon :=
  ⟨Nat.le_succ _, Nat.le_succ _, rfl, .inl ⟨rfl, rfl, rfl⟩⟩

theorem ordinary_cleared (c : DemoController) : Ordinary c c.cleared :=
  ⟨Nat.le_succ _, Nat.le_succ _, rfl, .inr ⟨rfl, rfl, rfl⟩⟩

/-- An overtaken `clear` goes on with a 401 only, which it does not report. -/
theorem free_clear : Free strict born (clear messages) := by
  intro m
  refine Async.wp_attempt.mpr (Async.wp_bind.mpr (wp_ask fun m' answer _ _ hharmless => ?_))
  cases answer with
  | ok reply =>
      refine ⟨change_of (ordinary_cleared _) fun hs ho => ?_, trivial⟩
      obtain ⟨e, he, -⟩ := (hharmless hs ho).reset rfl
      cases he
  | error e =>
      refine Async.wp_bind.mpr ⟨change_of (ordinary_patch fun _ => ⟨rfl, rfl, rfl⟩) fun _ _ => rfl, ?_⟩
      show (if e.status? ≠ some 401 then showError messages (·.notCleared) e else pure ()).Wp _ _ _ _
      split
      · rename_i hstatus
        refine ⟨change_of (ordinary_patch fun _ => ⟨rfl, rfl, rfl⟩) fun hs ho => ?_, trivial⟩
        obtain ⟨e', he, hstatus'⟩ := (hharmless hs ho).reset rfl
        cases he
        exact absurd hstatus' hstatus
      · trivial

/-! ## Actions -/

/-- What an action does at once, and that its conversation may begin. -/
def Acts (strict : Prop) (c : DemoController) (begun : DemoController × Page Unit) : Prop :=
  Ordinary c begun.1 ∧ Free strict begun.1.epoch begun.2

theorem acts_done {c c' : DemoController} (h : Ordinary c c') : Acts strict c (c', pure ()) :=
  ⟨h, free_pure ()⟩

theorem acts_patch (c : DemoController) {change : DemoState → DemoState}
    (h : ∀ s, SameRows s (change s)) : Acts strict c (c.patch change, pure ()) :=
  acts_done (ordinary_patch h)

theorem acts_manualAct {action : ScenarioApi → Page String} {c c' : DemoController}
    (hc : Ordinary c c') (h : ∀ born api, Free strict born (action api)) :
    Acts strict c (manualAct messages action c') := by
  unfold manualAct
  cases c'.state.manual with
  | none => exact acts_done hc
  | some manual =>
      dsimp only
      split
      · exact acts_done hc
      · exact ⟨hc.trans (ordinary_same rfl), free_actManually (h _ _)⟩

variable {scenarios : List ScenarioDefinition}

theorem acts_start (scenarioId : String) (mode : Mode) (c : DemoController) :
    Acts strict c (start messages scenarios scenarioId mode c) := by
  unfold start
  split
  · exact acts_done (.refl c)
  · split
    · exact acts_done (.refl c)
    · unfold beginPlay
      dsimp only
      split
      · exact ⟨⟨Nat.le_succ _, Nat.le_refl _, rfl, .inl ⟨rfl, rfl, rfl⟩⟩, free_throw _⟩
      · exact ⟨⟨Nat.le_succ _, Nat.le_refl _, rfl, .inl ⟨rfl, rfl, rfl⟩⟩, free_play⟩

theorem acts_act (action : Action) (c : DemoController) :
    Acts strict c (act messages scenarios action c) := by
  cases action with
  | load => exact ⟨.refl c, free_load⟩
  | start scenarioId mode => exact acts_start scenarioId mode c
  | proceed => exact acts_done (ordinary_same rfl)
  | stop =>
      refine acts_done ?_
      unfold stop
      split
      · exact (ordinary_abandon c).trans (ordinary_same rfl)
      · exact .refl c
  | clear => exact ⟨ordinary_same rfl, free_clear⟩
  | setLanguage lang => exact acts_patch c fun _ => ⟨rfl, rfl, rfl⟩
  | openManual =>
      refine acts_done ?_
      unfold openManual
      split
      · exact .refl c
      · exact ordinary_same rfl
  | closeManual =>
      refine acts_done ?_
      unfold closeManual
      split
      · exact .refl c
      · exact ordinary_same rfl
  | setManualFilter domain periodKey => exact acts_patch c fun _ => ⟨rfl, rfl, rfl⟩
  | selectManualVersion versionId => exact acts_patch c fun _ => ⟨rfl, rfl, rfl⟩
  | selectManualJob jobId => exact acts_patch c fun _ => ⟨rfl, rfl, rfl⟩
  | createVersion => exact acts_manualAct (.refl c) fun _ => free_createVersion
  | versionCommand versionId command =>
      exact acts_manualAct (ordinary_same rfl)
        fun _ => free_versionCommand versionId command
  | askToRun jobId title =>
      exact acts_done (ordinary_same rfl)
  | runJob jobId title outcome =>
      exact acts_manualAct (ordinary_same rfl)
        fun _ => free_runJob jobId title outcome
  | checkResult jobId title =>
      exact acts_manualAct (ordinary_same rfl)
        fun _ => free_checkResult jobId title
  | dismiss =>
      refine acts_done ?_
      unfold dismiss
      split
      · exact .refl c
      · exact ordinary_same rfl
  | selectSeries id => exact acts_patch c fun _ => ⟨rfl, rfl, rfl⟩
  | openInfo content => exact acts_patch c fun _ => ⟨rfl, rfl, rfl⟩
  | askToClear =>
      refine acts_done ?_
      unfold askToClear
      split
      · exact ordinary_same rfl
      · exact .refl c

/-! ## Arrivals -/

section

variable {request : Request} {progress : Progress} {signal : Signal} {answer : Answer}
  {c c' : DemoController} {status : Nat} {data : Data} {nextCursor : Option String}
  {outcome : Progress ⊕ Answer}

theorem ordinary_finishPost (command : Command) (answer : Answer) (c : DemoController) :
    Ordinary c (finishPost command answer c).1 := by
  unfold finishPost
  split
  · dsimp only
    split
    · split
      · exact ordinary_same rfl
      · exact ordinary_same rfl
    · exact ordinary_same rfl
  · exact ordinary_same rfl
  · exact .refl c

theorem ordinary_finish (request : Request) (answer : Answer) (c : DemoController) :
    Ordinary c (finish request answer c).1 := by
  unfold finish
  split
  · exact ordinary_finishPost _ _ _
  · exact .refl c

/-- A reply that is not a listing's next page is the answer. -/
theorem deliver_cases (request : Request) (progress : Progress) (status : Nat) (data : Data)
    (nextCursor : Option String) (c : DemoController) :
    (∃ answer, deliver request progress status data nextCursor c = finish request answer c)
      ∨ ∃ next, deliver request progress status data nextCursor c = (c, .inl next)
          ∧ next.sent = c.epoch := by
  unfold deliver
  split
  · exact .inl ⟨_, rfl⟩
  · split
    · exact .inl ⟨_, rfl⟩
    · exact .inl ⟨_, rfl⟩
    · split
      · exact .inl ⟨_, rfl⟩
      · split
        · exact .inl ⟨_, rfl⟩
        · exact .inr ⟨_, rfl, rfl⟩

theorem ordinary_sessionEnded (c : DemoController) : Ordinary c (c.sessionEnded messages) :=
  ⟨Nat.le_succ _, Nat.le_succ _, rfl, .inr ⟨rfl, rfl, rfl⟩⟩

/-- What an arrival is: the end of the session, an answer, or progress that leaves the page
alone. -/
inductive Arrives (messages : Lang → Messages) (request : Request) (progress : Progress)
    (signal : Signal) (c : DemoController) : DemoController → Progress ⊕ Answer → Prop where
  | ended (next : Progress) (h : signal = .head 401) (hsent : next.sent = progress.sent) :
      Arrives messages request progress signal c (c.sessionEnded messages) (.inl next)
  | answered (answer : Answer) (h : signal ≠ .head 401) :
      Arrives messages request progress signal c (finish request answer c).1
        (finish request answer c).2
  | goesOn (next : Progress) (h : signal ≠ .head 401)
      (hsent : next.sent = progress.sent ∨ next.sent = c.epoch) :
      Arrives messages request progress signal c c (.inl next)

theorem arrives_deliver (h : signal ≠ .head 401) :
    Arrives messages request progress signal c
      (deliver request progress status data nextCursor c).1
      (deliver request progress status data nextCursor c).2 := by
  rcases deliver_cases request progress status data nextCursor c with ⟨answer, hd⟩ | ⟨next, hd, hs⟩
  · rw [hd]
    exact .answered answer h
  · rw [hd]
    exact .goesOn next h (.inr hs)

theorem arrives_of {r : DemoController × (Progress ⊕ Answer)}
    (hr : Arrives messages request progress signal c r.1 r.2) (h : some r = some (c', outcome)) :
    Arrives messages request progress signal c c' outcome := by
  cases Option.some.inj h
  exact hr

theorem arrives_arriveRequest
    (h : arriveRequest messages request progress signal c = some (c', outcome)) :
    Arrives messages request progress signal c c' outcome := by
  unfold arriveRequest at h
  split at h
  · exact arrives_of (.answered _ nofun) h
  · rename_i status hprogress
    dsimp only at h
    by_cases hended : status = 401
    · subst hended
      cases h
      exact .ended _ rfl rfl
    · have hsignal : Signal.head status ≠ .head 401 := fun h => hended (Signal.head.inj h)
      rw [if_neg hended] at h
      split at h
      · exact arrives_of (arrives_deliver hsignal) h
      · have hgoes : Arrives messages request progress (.head status) c c
            (.inl { progress with status := some status }) := .goesOn _ hsignal (.inl rfl)
        exact arrives_of hgoes h
  · exact arrives_of (.answered _ nofun) h
  · split at h
    · exact arrives_of (arrives_deliver nofun) h
    · exact arrives_of (.answered _ nofun) h
  · cases h

theorem arrives_arrive (h : arrive messages request progress signal c = some (c', outcome)) :
    Arrives messages request progress signal c c' outcome := by
  unfold arrive at h
  split at h
  · cases Option.some.inj h
    exact .answered (.ok ⟨0, .void⟩) nofun
  · cases h
  · split at h
    · cases Option.some.inj h
      exact .answered (.ok ⟨0, .void⟩) nofun
    · cases h
  · cases h
  · cases h
  · exact arrives_arriveRequest h

theorem Arrives.ordinary (h : Arrives messages request progress signal c c' outcome) :
    Ordinary c c' := by
  cases h with
  | ended next hsignal hsent => exact ordinary_sessionEnded c
  | answered answer hsignal => exact ordinary_finish request answer c
  | goesOn next hsignal hsent => exact .refl c

/-- Only commands write to the page by their answers. -/
theorem Arrives.unchanged (h : Arrives messages request progress signal c c' outcome)
    (hsignal : signal ≠ .head 401) (hcommand : ∀ a, outcome = .inr a → request.command? = none) :
    c' = c := by
  cases h with
  | ended next hended => exact absurd hended hsignal
  | goesOn next _ => rfl
  | answered answer _ =>
      unfold finish at hcommand ⊢
      split
      · rename_i command hcmd
        simp only [hcmd] at hcommand
        cases hcommand _ rfl
      · rfl

end

/-- The page keeps the contract of its conversations. -/
theorem keeps {scenarios : List ScenarioDefinition} :
    (loop messages scenarios).Keeps (contract strict) where
  act u m := by
    have hacts : Acts strict m.page (act messages scenarios u m.page) := acts_act u m.page
    obtain ⟨hordinary, hfree⟩ := hacts
    exact ⟨hordinary.later fun _ hx => hx, hfree _⟩
  arrive {op r v s x m} h := by
    refine (arrives_arrive h).ordinary.later fun y hy => ?_
    cases x with
    | inl next => exact hy
    | inr answer => exact List.mem_append_left _ hy

end CostEngine.Frontend
