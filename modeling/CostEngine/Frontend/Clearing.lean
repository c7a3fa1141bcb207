import CostEngine.Frontend.ControllerSpecs

/-! # Only `clear` waits for a reset

Of the programs of the page, `clear` alone sends `/demo/sessions/reset`, so a good reply to it
always empties the page. -/

namespace CostEngine.Frontend

open EventLoop

variable {α β : Type} {messages : Lang → Messages} {scenarios : List ScenarioDefinition}

/-! ## Programs that send no reset -/

/-- The program never sends a reset. -/
def NoReset (p : Page α) : Prop := p.Waits (Request.reset ∉ ·)

theorem NoReset.bind {p : Page α} {f : α → Page β} (hp : NoReset p) (hf : ∀ a, NoReset (f a)) :
    NoReset (p >>= f) :=
  Async.Waits.bind hp hf

theorem NoReset.attempt {p : Page α} {f : Failure → Page α} (hp : NoReset p)
    (hf : ∀ e, NoReset (f e)) : NoReset (p.attempt f) :=
  Async.Waits.attempt hp hf

theorem noReset_ask {request : Request} (h : request ≠ .reset) : NoReset (Page.ask request) := by
  refine ⟨fun hmem => h (List.mem_singleton.mp hmem).symm, fun answers => ?_⟩
  match answers with
  | [] => trivial
  | [.ok _] => trivial
  | [.error _] => trivial
  | _ :: _ :: _ => trivial

theorem noReset_required (a : Option α) : NoReset (Page.required a) := by
  cases a <;> trivial

theorem noReset_modify (f : DemoController → DemoController) :
    NoReset (Async.modify f : Page Unit) := fun _ => trivial

theorem noReset_patch (change : DemoState → DemoState) : NoReset (Page.patch change) :=
  noReset_modify _

theorem noReset_read {f : DemoController → Page β} (hf : ∀ c, NoReset (f c)) :
    NoReset (Async.read >>= f) := hf

theorem noReset_live {f : Bool → Page β} {epoch : Nat} (hf : ∀ b, NoReset (f b)) :
    NoReset (Page.live epoch >>= f) := fun _ => hf _

theorem noReset_guard {x q : Page β} {epoch : Nat} (hx : NoReset x) (hq : NoReset q) :
    NoReset (Page.live epoch >>= fun b => if !b then x else q) :=
  noReset_live fun b => by cases b <;> assumption

theorem noReset_whenLive {x q : Page β} {epoch : Nat} (hq : NoReset q) (hx : NoReset x) :
    NoReset (Page.live epoch >>= fun b => if b then q else x) :=
  noReset_live fun b => by cases b <;> assumption

theorem noReset_onPage (script : Script α) : NoReset script.onPage := by
  induction script with
  | pure a => trivial
  | throw e => trivial
  | get k ih => exact ih ()
  | set s k ih => exact ih
  | all requests k ih => exact ⟨by simp, ih⟩

theorem noReset_sleep : NoReset Page.sleep :=
  NoReset.bind (noReset_ask nofun) fun _ => trivial

theorem noReset_gate : NoReset Page.gate :=
  noReset_read fun _ => NoReset.bind (noReset_modify _) fun _ =>
    NoReset.bind (noReset_ask nofun) fun _ => trivial

/-! ## The conversations but `clear` -/

theorem noReset_readAttempts (number : Nat) (attempts : StringRecord (List Attempt)) (j : Job) :
    NoReset (readAttempts number attempts j) :=
  NoReset.bind (noReset_ask nofun) fun _ => NoReset.bind (noReset_required _) fun _ => trivial

theorem noReset_readJobs (number : Nat)
    (read : StringRecord (List Job) × StringRecord (List Attempt)) (d : Dataset) :
    NoReset (readJobs number read d) :=
  NoReset.bind (noReset_ask nofun) fun _ => NoReset.bind (noReset_required _) fun _ =>
    NoReset.bind (Async.Waits.foldlM (noReset_readAttempts number) _ _) fun _ => trivial

theorem noReset_showIfNewest (read : PageRead) : NoReset (showIfNewest read) := by
  intro c
  show NoReset (if read.number = c.generation then Async.modify (·.show read) else pure ())
  split
  · exact noReset_modify _
  · trivial

theorem noReset_readPage (number : Nat) : NoReset (readPage number) :=
  NoReset.bind (noReset_ask nofun) fun _ => NoReset.bind (noReset_required _) fun _ =>
    NoReset.bind (Async.Waits.foldlM (noReset_readJobs number) _ _) fun _ =>
      noReset_showIfNewest _

theorem noReset_refresh : NoReset refresh :=
  NoReset.bind (noReset_modify _) fun _ => noReset_read fun _ => noReset_readPage _

theorem noReset_tryRefresh : NoReset tryRefresh :=
  noReset_refresh.attempt fun _ => trivial

theorem noReset_readWorkflow : NoReset readWorkflow :=
  NoReset.bind (noReset_ask nofun) fun _ => NoReset.bind (noReset_required _) fun _ => noReset_patch _

theorem noReset_openSession : NoReset openSession := by
  intro c
  show NoReset (if c.state.session.isNone then _ else pure ())
  split
  · exact NoReset.bind (noReset_ask nofun) fun _ => noReset_patch _
  · trivial

theorem noReset_ensureSession : NoReset ensureSession :=
  NoReset.bind noReset_openSession fun _ => noReset_readWorkflow

theorem noReset_load (epoch : Nat) : NoReset (load messages epoch) := by
  refine NoReset.attempt ?_ fun error => noReset_guard trivial ?_
  · refine NoReset.bind (noReset_ask nofun) fun _ => noReset_guard trivial ?_
    exact NoReset.bind (noReset_patch _) fun _ => NoReset.bind noReset_refresh fun _ =>
      noReset_whenLive noReset_readWorkflow trivial
  · split
    · trivial
    · exact noReset_patch _

section

variable {plan : ScenarioPlan} {mode : Mode} {epoch : Nat}

theorem noReset_awaitViewer (resumed : Bool) (title : String) :
    NoReset (awaitViewer mode epoch resumed title) := by
  unfold awaitViewer
  split
  · exact NoReset.bind (noReset_patch _) fun _ => NoReset.bind noReset_gate fun _ _ => trivial
  · trivial

theorem noReset_afterStep (pause : Option PauseRequest) (last : Bool) :
    NoReset (afterStep mode epoch pause last) := by
  cases pause with
  | some pause =>
      exact NoReset.bind (noReset_patch _) fun _ => NoReset.bind (noReset_patch _) fun _ =>
        NoReset.bind noReset_gate fun _ => noReset_guard trivial <| NoReset.bind (noReset_patch _) fun _ =>
          NoReset.bind (noReset_patch _) fun _ => trivial
  | none =>
      unfold afterStep
      dsimp only
      split
      · exact NoReset.bind noReset_sleep fun _ => noReset_guard trivial trivial
      · trivial

theorem noReset_focus (seriesId : Option String) : NoReset (focus seriesId) := by
  cases seriesId with
  | none => trivial
  | some id => exact noReset_patch _

theorem noReset_playSteps {api : ScenarioApi} {steps : List (ScenarioStep plan.Memory)}
    {index : Nat} {resumed : Bool} {memory : plan.Memory} :
    NoReset (playSteps plan mode epoch api steps index resumed memory) := by
  induction steps generalizing index resumed memory with
  | nil =>
      exact NoReset.bind (noReset_onPage _) fun _ => noReset_guard trivial <|
        NoReset.bind (noReset_patch _) fun _ => noReset_patch _
  | cons step steps ih =>
      refine NoReset.bind (noReset_awaitViewer resumed step.title) fun live => ?_
      split
      · trivial
      · refine NoReset.bind (noReset_patch _) fun _ => NoReset.bind (noReset_onPage _) fun result => ?_
        refine noReset_guard trivial (NoReset.bind (noReset_patch _) fun _ => NoReset.bind (noReset_focus _) fun _ => ?_)
        refine NoReset.bind noReset_refresh fun _ => noReset_guard trivial ?_
        refine NoReset.bind (noReset_afterStep _ _) fun resumed => ?_
        cases resumed with
        | none => trivial
        | some resumed => exact ih

theorem noReset_play : NoReset (play messages plan mode epoch) := by
  refine NoReset.attempt ?_ fun error => noReset_guard trivial ?_
  · exact NoReset.bind noReset_ensureSession fun _ => noReset_guard trivial <|
      NoReset.bind noReset_refresh fun _ => noReset_guard trivial fun _ => noReset_playSteps
  · refine NoReset.bind (noReset_patch _) fun _ => NoReset.bind ?_ fun _ => noReset_tryRefresh
    cases error <;> exact noReset_patch _

end

theorem noReset_actManually {action : ScenarioApi → Page String} {api : ScenarioApi} {epoch : Nat}
    (h : NoReset (action api)) : NoReset (actManually messages action api epoch) := by
  refine NoReset.attempt ?_ fun error => noReset_guard trivial ?_
  · exact NoReset.bind noReset_ensureSession fun _ => noReset_guard trivial <|
      NoReset.bind h fun _ => noReset_guard trivial <|
        NoReset.bind noReset_refresh fun _ => noReset_guard trivial (noReset_patch _)
  · exact NoReset.bind (noReset_patch _) fun _ => NoReset.bind noReset_tryRefresh fun _ =>
      noReset_whenLive (noReset_patch _) trivial

theorem noReset_manualAct {action : ScenarioApi → Page String} {c : DemoController}
    (h : ∀ api, NoReset (action api)) : NoReset (manualAct messages action c).2 := by
  unfold manualAct
  split
  · trivial
  · split
    · trivial
    · exact noReset_actManually (h _)

theorem noReset_runJob (jobId title : String) (outcome : RunOutcome) (api : ScenarioApi) :
    NoReset (runJob messages jobId title outcome api) := by
  refine noReset_read fun c => ?_
  cases outcome with
  | unknown => exact NoReset.bind (noReset_onPage _) fun _ => trivial
  | succeeded => exact NoReset.bind (noReset_onPage _) fun _ => NoReset.bind (noReset_onPage _) fun _ => trivial
  | failed => exact NoReset.bind (noReset_onPage _) fun _ => NoReset.bind (noReset_onPage _) fun _ => trivial

theorem noReset_start (scenarioId : String) (mode : Mode) (c : DemoController) :
    NoReset (start messages scenarios scenarioId mode c).2 := by
  unfold start
  split
  · trivial
  · split
    · trivial
    · unfold beginPlay
      dsimp only
      split
      · trivial
      · exact noReset_play

theorem noReset_act {action : Action} (h : action ≠ .clear) (c : DemoController) :
    NoReset (act messages scenarios action c).2 := by
  cases action with
  | clear => exact absurd rfl h
  | load => exact noReset_load _
  | start scenarioId mode => exact noReset_start scenarioId mode c
  | createVersion =>
      exact noReset_manualAct fun api => noReset_read fun _ =>
        NoReset.bind (noReset_required _) fun _ => NoReset.bind (noReset_onPage _) fun _ =>
          NoReset.bind (noReset_patch _) fun _ => noReset_read fun _ => trivial
  | versionCommand versionId command =>
      exact noReset_manualAct fun api => NoReset.bind (noReset_onPage _) fun _ =>
        noReset_read fun _ => trivial
  | runJob jobId title outcome => exact noReset_manualAct (noReset_runJob jobId title outcome)
  | checkResult jobId title =>
      exact noReset_manualAct fun api => NoReset.bind (noReset_onPage _) fun _ =>
        noReset_read fun _ => NoReset.bind (noReset_onPage _) fun _ => noReset_read fun _ => trivial
  | _ => trivial

/-! ## A good reply to a reset -/

/-- What `clear` does with the answer to its reset. -/
def afterReset (messages : Lang → Messages) (answers : List Answer) : Page Unit :=
  match (clear messages) with
  | .all _ k => k answers
  | _ => .pure ()

theorem clear_eq : clear messages = .all [.reset] (afterReset messages) := rfl

theorem run_afterReset (reply : Reply) (c : DemoController) :
    ((afterReset messages [.ok reply]).run c).1 = c.cleared := rfl

theorem noReset_afterReset (answers : List Answer) : NoReset (afterReset messages answers) := by
  match answers with
  | [] => exact fun _ => fun _ => trivial
  | [.ok _] => exact fun _ => trivial
  | [.error e] =>
      intro c
      show NoReset (if e.status? ≠ some 401 then showError messages (·.notCleared) e else pure ())
      split
      · exact noReset_patch _
      · trivial
  | _ :: _ :: _ => exact fun _ => fun _ => trivial

/-! ## Who waits for a reset -/

/-- Whoever waits for a reset is `clear`, and no one waits for one later. -/
def ClearsOnly (messages : Lang → Messages) (requests : List Request)
    (rest : List Answer → Page Unit) : Prop :=
  (.reset ∈ requests → requests = [.reset] ∧ rest = afterReset messages)
    ∧ ∀ answers, NoReset (rest answers)

theorem clearsOnly_run {p : Page Unit} {c : DemoController} {requests : List Request}
    {rest : List Answer → Page Unit} (hp : NoReset p) (h : (p.run c).2 = .waiting requests rest) :
    ClearsOnly messages requests rest :=
  ⟨fun hreset => absurd hreset (hp.run h).1, (hp.run h).2⟩

theorem clearsOnly_step {st st' : PageState} {ev : EventLoop.Event Action Signal}
    (hst : ∀ c ∈ st.conversations, ClearsOnly messages c.ops c.rest)
    (h : (loop messages scenarios).step ev st = some st') :
    ∀ c ∈ st'.conversations, ClearsOnly messages c.ops c.rest := by
  refine Loop.waits_step ⟨nofun, fun _ => trivial⟩ (fun u s requests rest hrun => ?_)
    (fun _ _ answers s requests rest hk hrun => clearsOnly_run (hk.2 answers) hrun) hst h
  by_cases hu : u = .clear
  · subst hu
    cases hrun
    exact ⟨fun _ => ⟨rfl, rfl⟩, noReset_afterReset⟩
  · exact clearsOnly_run (noReset_act hu s) hrun

end CostEngine.Frontend
