import CostEngine.Frontend.Scenarios

/-! # `DemoController`, in `frontend/src/app/controller.ts`

Every viewer's action has a synchronous part and, for some, a conversation with the backend.
A conversation checks after its waits that no other has overtaken it: `epoch` counts the
session ends, the clears, the stops and the starts, and `generation` the page reads too. -/

namespace CostEngine.Frontend

open EventLoop (Async Loop)

/-- The program of a page conversation. -/
abbrev Page (α : Type) : Type := Async DemoController Request Answer Failure α

variable {α : Type}

/-- A script sends its requests from the page. -/
def Script.onPage : Script α → Page α
  | .pure a => .pure a
  | .throw e => .throw e
  | .get k => Script.onPage (k ())
  | .set _ k => Script.onPage k
  | .all requests k => .all (requests.map .scenario) fun answers => Script.onPage (k answers)

namespace Page

def ask (request : Request) : Page Data :=
  .all [request] fun
    | [answer] => .ofExcept (answer.map (·.data))
    | _ => .throw .typeError

def required : Option α → Page α
  | some a => .pure a
  | none => .throw .typeError

def patch (change : DemoState → DemoState) : Page Unit := .modify (·.patch change)

def patchPlayback (change : PlaybackState → PlaybackState) : Page Unit :=
  .modify (·.patchPlayback change)

def patchManual (change : ManualState → ManualState) : Page Unit :=
  .modify (·.patchManual change)

/-- `live()`. -/
def live (epoch : Nat) : Page Bool := do
  let c ← Async.read
  pure (c.epoch = epoch)

def sleep : Page Unit := do
  let _ ← ask .sleep

/-- `gate()`. -/
def gate : Page Unit := do
  let c ← Async.read
  Async.modify fun c => { c with release := some c.gates, gates := c.gates + 1 }
  let _ ← ask (.gate c.gates)

end Page

open Page

/-! ## Reads of the page -/

/-- The datasets sorted by `createdAt`, the newest first. -/
def newest (datasets : List Dataset) : Option Dataset :=
  (datasets.mergeSort fun a b => decide (b.createdAt ≤ a.createdAt)).head?

def selected (s : DemoState) (datasets : List Dataset) : Option String :=
  if datasets.any fun d => some d.datasetSeriesId = s.selectedSeriesId then s.selectedSeriesId
  else (newest datasets).map (·.datasetSeriesId)

/-- The last `patch` of `refresh`. -/
def DemoController.show (c : DemoController) (read : PageRead) : DemoController :=
  { c with
    state := { c.state with
      datasets := read.datasets
      jobs := read.jobs
      attempts := read.attempts
      selectedSeriesId := selected c.state read.datasets }
    reads := read :: c.reads }

def readAttempts (number : Nat) (attempts : StringRecord (List Attempt)) (j : Job) :
    Page (StringRecord (List Attempt)) := do
  let data ← ask (.list number (.attempts j.jobId))
  let list ← required data.attempts?
  pure (attempts.set j.jobId list)

def readJobs (number : Nat) (read : StringRecord (List Job) × StringRecord (List Attempt))
    (d : Dataset) : Page (StringRecord (List Job) × StringRecord (List Attempt)) := do
  let data ← ask (.list number (.jobs d.datasetVersionId))
  let list ← required data.jobs?
  let attempts ← list.foldlM (readAttempts number) read.2
  pure (read.1.set d.datasetVersionId list, attempts)

def showIfNewest (read : PageRead) : Page Unit := do
  let c ← Async.read
  if read.number = c.generation then Async.modify (·.show read)

/-- The read that has drawn its number. -/
def readPage (number : Nat) : Page Unit := do
  let data ← ask (.list number .datasets)
  let datasets ← required data.datasets?
  let read ← datasets.foldlM (readJobs number) ([], [])
  showIfNewest ⟨number, datasets, read.1, read.2⟩

/-- `refresh()`. -/
def refresh : Page Unit := do
  Async.modify fun c => { c with generation := c.generation + 1 }
  let c ← Async.read
  readPage c.generation

/-- `try { await this.refresh(); } catch { }`. -/
def tryRefresh : Page Unit := refresh.attempt fun _ => pure ()

def readWorkflow : Page Unit := do
  let data ← ask .workflow
  let template ← required data.workflow?
  patch fun s => { s with links := linksFromTemplate template }

def openSession : Page Unit := do
  let c ← Async.read
  if c.state.session.isNone then
    let data ← ask .createSession
    patch fun s => { s with session := data.session? }

/-- `ensureSession()`. -/
def ensureSession : Page Unit := do
  openSession
  readWorkflow

section

variable (messages : Lang → Messages) (scenarios : List ScenarioDefinition)

/-- `showError(title, error)`. -/
def showError (title : Messages → String) (error : Failure) : Page Unit :=
  patch fun s =>
    let texts := errorMessage (messages s.lang) error
    { s with dialog := some (.error (title (messages s.lang)) texts.2 (some texts.1) none) }

/-- `load()`. -/
def load (epoch : Nat) : Page Unit :=
  let read : Page Unit := do
    let data ← ask .currentSession
    if !(← live epoch) then return
    patch fun s => { s with session := data.session? }
    refresh
    if ← live epoch then readWorkflow
  read.attempt fun error => do
    if !(← live epoch) then return
    if error.status? = some 401 then return
    showError messages (·.loadFailed) error

/-! ## Playing a scenario -/

section Play

variable (plan : ScenarioPlan) (mode : Mode) (epoch : Nat)

/-- In the step mode the viewer is asked, and may have left by then. -/
def awaitViewer (resumed : Bool) (title : String) : Page Bool :=
  if mode = .step ∧ resumed = false then do
    patchPlayback fun p => { p with status := .waiting, nextStepTitle := some title }
    gate
    live epoch
  else pure true

/-- What comes after a step: a pause, the delay, or nothing. The result is `resumed`, or nothing
if the play was overtaken. -/
def afterStep (pause : Option PauseRequest) (last : Bool) : Page (Option Bool) :=
  match pause with
  | some pause => do
      patch fun s => { s with dialog := some (.pause pause) }
      patchPlayback fun p => { p with status := .paused }
      gate
      if !(← live epoch) then return none
      patch fun s => { s with dialog := none }
      patchPlayback fun p => { p with status := .running }
      return some true
  | none =>
      if mode = .auto ∧ last = false then do
        sleep
        if !(← live epoch) then return none
        return some false
      else pure (some false)

def focus (seriesId : Option String) : Page Unit :=
  match seriesId with
  | some id => patch fun s => { s with selectedSeriesId := some id }
  | none => pure ()

def playSteps (api : ScenarioApi) :
    List (ScenarioStep plan.Memory) → (index : Nat) → (resumed : Bool) → plan.Memory → Page Unit
  | [], _, _, memory => do
      let summary ← Script.onPage (plan.summary api memory)
      if !(← live epoch) then return
      patchPlayback fun p => { p with status := .done }
      patch fun s => { s with dialog := some (.summary summary) }
  | step :: steps, index, resumed, memory => do
      if !(← awaitViewer mode epoch resumed step.title) then return
      patchPlayback fun p =>
        { p with status := .running, stepNumber := index + 1, stepTitle := step.title,
                 nextStepTitle := none }
      let result ← Script.onPage (step.run api memory)
      if !(← live epoch) then return
      patchPlayback fun p => { p with message := result.1.message }
      focus result.1.focusSeriesId
      refresh
      if !(← live epoch) then return
      match ← afterStep mode epoch result.1.pause (index + 1 = plan.steps.length) with
      | none => return
      | some resumed => playSteps api steps (index + 1) resumed result.2

/-- The dialog of a scenario that stopped. -/
def showStopped (error : Failure) : Page Unit :=
  match error with
  | .mismatch message =>
      patch fun s =>
        { s with dialog := some (.error (messages s.lang).mismatch message none none) }
  | error => showError messages (·.stopped) error

/-- `play`, after its first `patch`. -/
def play : Page Unit :=
  let steps : Page Unit := do
    ensureSession
    if !(← live epoch) then return
    refresh
    if !(← live epoch) then return
    let c ← Async.read
    let next := nextReportingPeriod c.state.datasets
    playSteps plan mode epoch ⟨some next.1, some next.2⟩ plan.steps 0 true plan.memory
  steps.attempt fun error => do
    if !(← live epoch) then return
    patchPlayback fun p => { p with status := .failed }
    showStopped messages error
    tryRefresh

end Play

/-! ## Manual commands -/

/-- `manualAct(action)`, after its first `patchManual`. -/
def actManually (action : ScenarioApi → Page String) (api : ScenarioApi) (epoch : Nat) :
    Page Unit :=
  let acted : Page Unit := do
    ensureSession
    if !(← live epoch) then return
    let message ← action api
    if !(← live epoch) then return
    refresh
    if !(← live epoch) then return
    patchManual fun m => { m with message := message, busy := false }
  acted.attempt fun error => do
    if !(← live epoch) then return
    patch fun s =>
      let texts := errorMessage (messages s.lang) error
      { s with dialog := some (.error (messages s.lang).refused
          (((messages s.lang).manualErrors.get? texts.1).getD texts.2) (some texts.1)
          (error.status?.filter (· ≠ 0))) }
    tryRefresh
    if ← live epoch then patchManual fun m => { m with busy := false }

/-- `manualAct(action)`. -/
def manualAct (action : ScenarioApi → Page String) (c : DemoController) :
    DemoController × Page Unit :=
  match c.state.manual with
  | none => (c, pure ())
  | some manual =>
      if manual.busy then (c, pure ())
      else
        let words := manual.periodKey.splitOn " "
        (c.patchManual fun m => { m with busy := true, message := "" },
          actManually messages action ⟨words.head?.bind String.toNat?, words[1]?⟩ c.epoch)

/-- The texts in the language of the page. -/
def texts : Page Messages := do
  let c ← Async.read
  pure (messages c.state.lang)

def createVersion (api : ScenarioApi) : Page String := do
  let c ← Async.read
  let manual ← required c.state.manual
  let created ← Script.onPage (api.create manual.domain)
  patchManual fun m => { m with versionId := some created.datasetVersionId, jobId := none }
  let t ← texts messages
  pure (t.created created.version)

def versionCommand (versionId command : String) (_ : ScenarioApi) : Page String := do
  let _ ← Script.onPage (ScenarioApi.versionCommand versionId command)
  let t ← texts messages
  pure (t.commands command)

inductive RunOutcome where
  | succeeded
  | failed
  | unknown
  deriving DecidableEq

def runJob (jobId title : String) (outcome : RunOutcome) (_ : ScenarioApi) : Page String := do
  let t ← texts messages
  match outcome with
  | .unknown =>
      let _ ← Script.onPage (ScenarioApi.run jobId ⟨.acceptThenUnknown, .succeeded⟩)
      pure (t.unknown title)
  | outcome =>
      let result ← Script.onPage (ScenarioApi.run jobId ⟨.accept, .running⟩)
      let _ ← Script.onPage (ScenarioApi.setExecutorState result.executionAttemptId
        (if outcome = .succeeded then "SUCCEEDED" else "FAILED"))
      pure (t.running title)

/-- `versionOf(jobId)`. -/
def versionOf (s : DemoState) (jobId : String) : String :=
  (((s.jobs.flatMap (·.2)).find? (·.jobId = jobId)).map (·.datasetVersionId)).getD ""

def checkResult (jobId title : String) (_ : ScenarioApi) : Page String := do
  let _ ← Script.onPage (ScenarioApi.reconcile jobId)
  let c ← Async.read
  let jobs ← Script.onPage (ScenarioApi.jobs (versionOf c.state jobId))
  let t ← texts messages
  pure (t.checked title (((jobs.find? (·.jobId = jobId)).map (·.jobStatus)).getD ""))

/-! ## Clearing -/

/-- What the page is after its data was cleared. -/
def DemoController.cleared (c : DemoController) : DemoController :=
  { c.abandon with
    state := { empty c.state.lang with
      manual := c.state.manual.map fun m =>
        { m with versionId := none, jobId := none, busy := false, message := "" } } }

/-- `clear()`, after its first `patch`. -/
def clear : Page Unit :=
  let reset : Page Unit := do
    let _ ← ask .reset
    Async.modify (·.cleared)
  reset.attempt fun error => do
    patch fun s => { s with clearing := false }
    if error.status? ≠ some 401 then showError messages (·.notCleared) error

/-! ## The viewer's actions -/

inductive Action where
  | load
  | start (scenarioId : String) (mode : Mode)
  | proceed
  | stop
  | clear
  | setLanguage (lang : Lang)
  | openManual
  | closeManual
  | setManualFilter (domain periodKey : Option String)
  | selectManualVersion (versionId : String)
  | selectManualJob (jobId : String)
  | createVersion
  | versionCommand (versionId command : String)
  | askToRun (jobId title : String)
  | runJob (jobId title : String) (outcome : RunOutcome)
  | checkResult (jobId title : String)
  | dismiss
  | selectSeries (id : String)
  | openInfo (content : DialogContent)
  | askToClear
  deriving DecidableEq

/-- The first `patch` of `play`, and the rest of it. -/
def beginPlay (definition : ScenarioDefinition) (mode : Mode) (c : DemoController) :
    DemoController × Page Unit :=
  let plan := definition.build (messages c.state.lang)
  let overtaken := { c with epoch := c.epoch + 1 }
  match plan.steps with
  | [] => (overtaken, .throw .typeError)
  | first :: _ =>
      (overtaken.patch fun s =>
        { s with
          manual := none
          calls := []
          dialog := none
          playback := some
            { scenarioId := definition.id
              title := definition.title
              mode := mode
              status := .running
              stepNumber := 1
              totalSteps := plan.steps.length
              stepTitle := first.title
              nextStepTitle := none
              message := "" } },
        play messages plan mode (c.epoch + 1))

/-- `start(scenarioId, mode)`. -/
def start (scenarioId : String) (mode : Mode) (c : DemoController) :
    DemoController × Page Unit :=
  match scenarios.find? (·.id = scenarioId) with
  | none => (c, pure ())
  | some definition =>
      if c.isActive ∨ c.state.clearing then (c, pure ())
      else beginPlay messages definition mode c

def openManual (c : DemoController) : DemoController :=
  if c.isActive ∨ c.state.clearing then c
  else
    let shown := c.state.datasets.find? fun d => some d.datasetSeriesId = c.state.selectedSeriesId
    c.patch fun s =>
      { s with
        playback := none
        calls := []
        dialog := none
        manual := some
          { domain := (shown.map (·.domain)).getD "FAB_COST"
            periodKey := (shown.map fun d => toString d.fiscalYear ++ " " ++ d.period).getD "2026 Q1"
            versionId := none
            jobId := none
            busy := false
            message := "" } }

def closeManual (c : DemoController) : DemoController :=
  if c.state.manual.any (·.busy) then c
  else c.patch fun s => { s with manual := none, calls := [] }

def askToRun (jobId title : String) (c : DemoController) : DemoController :=
  let c := c.patchManual fun m => { m with jobId := some jobId }
  let latest := (((c.state.attempts.get? jobId).getD []).mergeSort
    fun a b => decide (b.attemptNumber ≤ a.attemptNumber)).head?
  c.patch fun s =>
    { s with dialog := some (.run jobId title (latest.any (·.attemptStatus = "DISPATCHING"))) }

def stop (c : DemoController) : DemoController :=
  if c.state.playback.map (·.status) = some .waiting then
    c.abandon.patch fun s => { s with playback := none }
  else c

def dismiss (c : DemoController) : DemoController :=
  match c.state.dialog with
  | some (.pause _) => c
  | _ => c.patch fun s => { s with dialog := none }

def askToClear (c : DemoController) : DemoController :=
  if c.isActive = false ∨ c.state.playback.map (·.status) = some .waiting then
    c.patch fun s => { s with dialog := some .clear }
  else c

/-- What an action does at once, and the conversation it begins. -/
def act : Action → DemoController → DemoController × Page Unit
  | .load, c => (c, load messages c.epoch)
  | .start scenarioId mode, c => start messages scenarios scenarioId mode c
  | .proceed, c => (c.openGate, pure ())
  | .stop, c => (stop c, pure ())
  | .clear, c => (c.patch fun s => { s with clearing := true }, clear messages)
  | .setLanguage lang, c => (c.patch fun s => { s with lang := lang }, pure ())
  | .openManual, c => (openManual c, pure ())
  | .closeManual, c => (closeManual c, pure ())
  | .setManualFilter domain periodKey, c =>
      (c.patchManual fun m =>
        { m with domain := domain.getD m.domain, periodKey := periodKey.getD m.periodKey,
                 versionId := none, jobId := none, message := "" }, pure ())
  | .selectManualVersion versionId, c =>
      (c.patchManual fun m => { m with versionId := some versionId, jobId := none }, pure ())
  | .selectManualJob jobId, c => (c.patchManual fun m => { m with jobId := some jobId }, pure ())
  | .createVersion, c => manualAct messages (createVersion messages) c
  | .versionCommand versionId command, c =>
      manualAct messages (versionCommand messages versionId command)
        (c.patchManual fun m => { m with versionId := some versionId, jobId := none })
  | .askToRun jobId title, c => (askToRun jobId title c, pure ())
  | .runJob jobId title outcome, c =>
      manualAct messages (runJob messages jobId title outcome)
        (c.patch fun s => { s with dialog := none })
  | .checkResult jobId title, c =>
      manualAct messages (checkResult messages jobId title)
        (c.patchManual fun m => { m with jobId := some jobId })
  | .dismiss, c => (dismiss c, pure ())
  | .selectSeries id, c => (c.patch fun s => { s with selectedSeriesId := some id }, pure ())
  | .openInfo content, c => (c.patch fun s => { s with dialog := some (.info content) }, pure ())
  | .askToClear, c => (askToClear c, pure ())

/-- The page in the browser's event loop. -/
def loop : Loop DemoController Request Progress Answer Signal Action Failure where
  act := act messages scenarios
  born := (·.epoch)
  send := send
  arrive := arrive messages

end

/-- The page, its conversations, and what was answered. -/
abbrev PageState : Type := EventLoop.State DemoController Request Progress Answer Failure

/-- The page before anything happened. -/
def opened (lang : Lang) : PageState := ⟨{ state := empty lang }, [], []⟩

end CostEngine.Frontend
