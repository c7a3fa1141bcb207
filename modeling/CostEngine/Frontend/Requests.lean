import CostEngine.EventLoop.Loop
import CostEngine.Frontend.DemoState

/-! # The requests of the page, in `frontend/src/api/client.ts` and `scenarios/engine.ts`

What the page waits for, and what happens to the page when a reply arrives. A reply comes in
two parts: `fetch` gives the status, `response.json()` the body. A 401 ends the session with
its status. `pages` sends one request after the other, and `ScenarioApi.post` puts its call
and the run it got on the page as soon as its reply is there. -/

namespace CostEngine.Frontend

/-! ## Texts and errors -/

/-- The texts of `i18n/messages.ts` that the controller and the scenario use. -/
structure Messages where
  sessionEnded : String
  loadFailed : String
  mismatch : String
  stopped : String
  notCleared : String
  refused : String
  /-- `manual.errors`. -/
  manualErrors : StringRecord String
  created : Nat → String
  commands : String → String
  unknown : String → String
  running : String → String
  checked : String → String → String
  errors : StringRecord String
  /-- `errors.FALLBACK`. -/
  fallback : String
  sendFour : String
  expectedOne : Nat → String → String
  oneCreated : Nat → Nat → String
  startEarly : String
  blocked : Nat → String
  startedAnyway : String
  publishThenStart : String
  nowStarted : String
  winnerTitle : String
  winnerFact : Nat → Nat → String
  earlyFact : Nat → String
  browserNote : String
  seeTest : String

/-- `MESSAGES.en`. -/
def en : Messages where
  sessionEnded := "Your demo session ended"
  loadFailed := "The saved state couldn’t be loaded"
  mismatch := "The backend replied differently than this scenario expected"
  stopped := "The scenario stopped"
  notCleared := "Your data wasn’t cleared"
  refused := "The backend refused this"
  manualErrors :=
    [("STATE_CONFLICT",
        "This action isn’t allowed in the version’s current status. To publish or reject, submit it first."),
      ("EXECUTION_NOT_RECONCILABLE", "There is no run to check yet. Run the job first.")]
  created v := "Version " ++ toString v ++ " created. Run its jobs next."
  commands command := match command with
    | "submit-validation" => "Submitted for approval."
    | "publish" => "Version published."
    | "reject" => "Version rejected."
    | _ => "Version abandoned."
  unknown name := name ++ ": no response came back, so its status is unknown. "
    ++ "Check result and Run both look up the same run ID, so nothing runs twice."
  running name := name ++ " is running. The job has finished outside, "
    ++ "but the database still says running until you check the result."
  checked name status := name ++ ": the system read the outcome and saved it as " ++ status ++ "."
  errors :=
    [("DEMO_SESSION_UNAVAILABLE", "Your demo session ended. Run a scenario to start a new one."),
      ("NETWORK_ERROR", "The response didn’t arrive, so the result is unknown. "
        ++ "Nothing was retried automatically. Reload the page to see the saved state."),
      ("DEPENDENCY_NOT_READY", "This job needs an upstream dataset that isn’t published yet. "
        ++ "Publish that dataset, then run the job again."),
      ("DEPENDENCY_DEFINITION_NOT_READY", "This job has no published dependency definition yet. "
        ++ "Run the configuration seed for this environment."),
      ("CALCULATION_TYPE_NOT_CONFIGURED", "This domain has no calculation types configured. "
        ++ "Run the configuration seed for this environment."),
      ("ACTIVE_DATASET_VERSION_EXISTS", "This dataset series already has a version in progress. "
        ++ "Finish or abandon it first."),
      ("EXECUTOR_DISPATCH_FAILED",
        "The executor rejected this run, so it never started. You can retry the job."),
      ("EXECUTOR_STATUS_UNAVAILABLE",
        "The executor status isn’t available right now. The saved state wasn’t changed."),
      ("DATASET_NOT_READY_FOR_VALIDATION", "Every required job has to succeed before validation."),
      ("DATASET_HAS_ACTIVE_EXECUTION",
        "A job is still running, so this dataset can’t be abandoned yet."),
      ("JOB_NOT_RUNNABLE", "This job can’t run from its current state."),
      ("STATE_CONFLICT",
        "Another change got there first. Reload the page to see the current state."),
      ("RESET_CONFLICT",
        "Another operation is still running. Wait for it to finish, then clear your data."),
      ("DEMO_RESET_OUTCOME_UNKNOWN",
        "The result of clearing your data is unknown. Reload the page to check."),
      ("DEMO_RESET_FAILED", "Your data wasn’t cleared and nothing was lost. Try again."),
      ("DEMO_RATE_LIMITED",
        "Too many requests in a minute. Wait a moment, then run the scenario again."),
      ("DEMO_SESSION_QUEUE_FULL",
        "Too many requests are in progress. Wait a moment, then try again."),
      ("DEMO_SESSION_CAPACITY_REACHED", "The demo is at capacity right now. Try again later."),
      ("DEMO_EXECUTOR_CAPACITY_REACHED", "The demo is at capacity right now. Try again later."),
      ("DEMO_UNAVAILABLE",
        "The demo’s database couldn’t be reached. Reload the page to try again."),
      ("DEMO_SESSION_CSRF_REJECTED",
        "The request failed the same-origin check. Open the demo from its public address."),
      ("INVALID_RESPONSE",
        "The server’s response couldn’t be read. Reload the page to see the saved state.")]
  fallback := "The request didn’t finish. Reload the page to see the saved state, then try again."
  sendFour := "Send 4 Create requests at once"
  expectedOne n other := "Expected one new report, but got " ++ toString n ++ "."
    ++ if other = "" then "" else " Other replies: " ++ other ++ "."
  oneCreated created conflicts := toString created ++ " created the report. "
    ++ toString conflicts ++ " got HTTP 409. One version exists."
  startEarly := "Start a job before its input is ready"
  blocked n := "Blocked with HTTP 409 because the input report isn’t published. Tries created: "
    ++ toString n ++ "."
  startedAnyway := "The job started even though the input report isn’t published."
  publishThenStart := "Publish the input and start again"
  nowStarted :=
    "The input report is published, so the jobs can start and lock it as their input."
  winnerTitle := "One winner, and the order held"
  winnerFact created conflicts := "4 requests at once: " ++ toString created ++ " created, "
    ++ toString conflicts ++ " rejected with HTTP 409."
  earlyFact n := "Starting too early created " ++ toString n ++ " tries."
  browserNote := "A browser can’t prove the requests overlapped. "
    ++ "A PostgreSQL test with 20 concurrent requests does."
  seeTest := "See the test"

/-! ### Failures -/

/-- What a conversation may throw. Reading a field of nothing is a `TypeError`. -/
inductive Failure where
  | api (e : ApiError)
  | mismatch (message : String)
  | typeError
  deriving DecidableEq

def Failure.status? : Failure → Option Nat
  | .api e => some e.status
  | _ => none

/-- `errorMessage(error, lang)`: the code and the message. -/
def errorMessage (messages : Messages) (failure : Failure) : String × String :=
  let code := match failure with
    | .api e => e.code
    | _ => "REQUEST_FAILED"
  (code, (messages.errors.get? code).getD messages.fallback)

/-! ## Requests -/

inductive Dispatch where
  | accept
  | acceptThenUnknown
  deriving DecidableEq

inductive Completion where
  | running
  | succeeded
  | failed
  deriving DecidableEq

structure Simulation where
  dispatch : Dispatch := .accept
  completion : Completion := .running
  deriving DecidableEq

def Dispatch.text : Dispatch → String
  | .accept => "ACCEPT"
  | .acceptThenUnknown => "ACCEPT_THEN_UNKNOWN"

def Completion.text : Completion → String
  | .running => "RUNNING"
  | .succeeded => "SUCCEEDED"
  | .failed => "FAILED"

/-! ### Commands and listings -/

/-- The body of a command. -/
inductive CommandBody where
  | none
  | dataset (domain : String) (fiscalYear : Option Nat) (period : Option String)
  | simulation (simulation : Simulation)
  | state (state : String)
  deriving DecidableEq

/-- A command, as `ScenarioApi.post` sends it. -/
structure Command where
  path : String
  body : CommandBody := .none
  detail : Option String := none
  /-- The reply goes to `onRun`. -/
  isRun : Bool := false
  deriving DecidableEq

/-- What `pages` lists. -/
inductive Listing where
  | datasets
  | jobs (datasetVersionId : String)
  | attempts (jobId : String)
  deriving DecidableEq

def Listing.path : Listing → String
  | .datasets => "/demo/dataset-versions"
  | .jobs id => "/demo/dataset-versions/" ++ id ++ "/calculation-jobs"
  | .attempts id => "/demo/calculation-jobs/" ++ id ++ "/execution-attempts"

/-- What a scenario sends. -/
inductive ScenarioRequest where
  | post (command : Command)
  | dataset (datasetVersionId : String)
  | list (listing : Listing)
  deriving DecidableEq

/-- What a conversation waits for: requests, the delay between two steps, and a gate that the
viewer opens. The listings of `refresh` have the number of their `refresh`. -/
inductive Request where
  | currentSession
  | workflow
  | createSession
  | reset
  | list (number : Nat) (listing : Listing)
  | scenario (request : ScenarioRequest)
  | sleep
  | gate (number : Nat)
  deriving DecidableEq

/-! ## Replies -/

/-- What a body is taken for, or the items of one page. -/
inductive Data where
  | void
  | session (session : Session)
  | workflow (template : WorkflowTemplate)
  | datasets (items : List Dataset)
  | jobs (items : List Job)
  | attempts (items : List Attempt)
  | dataset (dataset : Dataset)
  | created (dataset : CreatedDataset)
  | run (result : RunResult)
  deriving DecidableEq

namespace Data

/-- `items.push(...page.items)`, of a page that has the right items. -/
def push? : Data → Data → Option Data
  | .datasets items, .datasets more => some (.datasets (items ++ more))
  | .jobs items, .jobs more => some (.jobs (items ++ more))
  | .attempts items, .attempts more => some (.attempts (items ++ more))
  | _, _ => none

def session? : Data → Option Session
  | .session value => some value
  | _ => none

def workflow? : Data → Option WorkflowTemplate
  | .workflow value => some value
  | _ => none

def datasets? : Data → Option (List Dataset)
  | .datasets items => some items
  | _ => none

def jobs? : Data → Option (List Job)
  | .jobs items => some items
  | _ => none

def attempts? : Data → Option (List Attempt)
  | .attempts items => some items
  | _ => none

def dataset? : Data → Option Dataset
  | .dataset value => some value
  | _ => none

def created? : Data → Option CreatedDataset
  | .created value => some value
  | _ => none

def run? : Data → Option RunResult
  | .run value => some value
  | _ => none

end Data

def Listing.start : Listing → Data
  | .datasets => .datasets []
  | .jobs _ => .jobs []
  | .attempts _ => .attempts []

/-! ### Answers -/

/-- The status and the data of a reply. -/
structure Reply where
  status : Nat
  data : Data
  deriving DecidableEq

/-- What a request comes to. -/
abbrev Answer : Type := Except Failure Reply

/-- The JSON text of a body, which may not be one. `code` is its error code, if it has one of
the right form, and `nextCursor` is what a page has. -/
inductive Body where
  | unreadable
  | json (code : Option String) (data : Data) (nextCursor : Option String)
  deriving DecidableEq

/-- What arrives: no response, its status, its body, or that a wait without a request is
over. -/
inductive Signal where
  | failed
  | head (status : Nat)
  | body (body : Body)
  | ready
  deriving DecidableEq

/-! ### Progress -/

/-- How far a request is. -/
structure Progress where
  /-- The page's epoch when the request was sent. -/
  sent : Nat
  /-- The status, once it is there. -/
  status : Option Nat := none
  /-- The items of the pages before, and their cursors, the last first. -/
  items : Data := .void
  seen : List String := []
  deriving DecidableEq

/-- The listing a request asks for the pages of. -/
def Request.listing? : Request → Option Listing
  | .list _ listing => some listing
  | .scenario (.list listing) => some listing
  | _ => none

def Request.command? : Request → Option Command
  | .scenario (.post command) => some command
  | _ => none

def send (request : Request) (c : DemoController) : Progress :=
  { sent := c.epoch, items := (request.listing?.map Listing.start).getD .void }

/-! ## What a reply does to the page -/

/-- `onCall`. -/
def DemoController.onCall (c : DemoController) (call : ApiCall) : DemoController :=
  c.patch fun s => { s with calls := s.calls ++ [call] }

/-- `onRun`. -/
def DemoController.onRun (c : DemoController) (result : RunResult) : DemoController :=
  c.patch fun s =>
    { s with runIds := s.runIds.set result.executionAttemptId result.airflowDagRunId }

/-- The rest of `ScenarioApi.post`, and of `run`, once the reply is there. -/
def finishPost (command : Command) (answer : Answer) (c : DemoController) :
    DemoController × Answer :=
  match answer with
  | .ok reply =>
      let c := c.onCall ⟨command.path, reply.status, none, command.detail⟩
      if command.isRun then
        match reply.data.run? with
        | some result => (c.onRun result, .ok reply)
        | none => (c, .error .typeError)
      else (c, .ok reply)
  | .error (.api e) => (c.onCall ⟨command.path, e.status, some e.code, command.detail⟩, answer)
  | .error _ => (c, answer)

/-- The request is answered. -/
def finish (request : Request) (answer : Answer) (c : DemoController) :
    DemoController × (Progress ⊕ Answer) :=
  match request.command? with
  | some command =>
      let finished := finishPost command answer c
      (finished.1, .inr finished.2)
  | none => (c, .inr answer)

/-- The data of a good reply is there: it answers the request, or it is the next page of a
listing. `data` is nothing when the reply has no body. -/
def deliver (request : Request) (progress : Progress) (status : Nat) (data : Data)
    (nextCursor : Option String) (c : DemoController) : DemoController × (Progress ⊕ Answer) :=
  match request.listing? with
  | none => finish request (.ok ⟨status, data⟩) c
  | some _ =>
      match data, progress.items.push? data with
      | .void, _ => finish request (.error .typeError) c
      | _, none => finish request (.error (.api ApiClient.invalidResponse)) c
      | _, some items =>
          match nextCursor.filter (· ≠ "") with
          | none => finish request (.ok ⟨status, items⟩) c
          | some cursor =>
              if cursor ∈ progress.seen then
                finish request (.error (.api ApiClient.invalidResponse)) c
              else
                (c, .inl { sent := c.epoch, items := items, seen := cursor :: progress.seen })

def networkError : ApiError := ⟨0, "NETWORK_ERROR"⟩

/-- `response.ok`. -/
def isOk (status : Nat) : Bool := 200 ≤ status ∧ status ≤ 299

/-! ### Arrivals -/

/-- `sessionEnded()`. -/
def DemoController.sessionEnded (messages : Lang → Messages) (c : DemoController) :
    DemoController :=
  let error := errorMessage (messages c.state.lang) (.api ⟨401, "DEMO_SESSION_UNAVAILABLE"⟩)
  { c.abandon with
    state := { empty c.state.lang with
      dialog := if c.state.session.isSome then
          some (.error (messages c.state.lang).sessionEnded error.2 (some error.1) none)
        else none } }

/-- `ApiClient.request`, from what was sent on. -/
def arriveRequest (messages : Lang → Messages) (request : Request) (progress : Progress)
    (signal : Signal) (c : DemoController) :
    Option (DemoController × (Progress ⊕ Answer)) :=
  match progress.status, signal with
  | none, .failed => some (finish request (.error (.api networkError)) c)
  | none, .head status =>
      let c := if status = 401 then c.sessionEnded messages else c
      if status = 204 then some (deliver request progress 204 .void none c)
      else some (c, .inl { progress with status := some status })
  | some status, .body .unreadable =>
      some (finish request (.error (.api ⟨status, "INVALID_RESPONSE"⟩)) c)
  | some status, .body (.json code data nextCursor) =>
      if isOk status then some (deliver request progress status data nextCursor c)
      else some (finish request (.error (.api ⟨status, code.getD "REQUEST_FAILED"⟩)) c)
  | _, _ => none

/-- Something arrives for a request, or a wait is over. -/
def arrive (messages : Lang → Messages) (request : Request) (progress : Progress)
    (signal : Signal) (c : DemoController) :
    Option (DemoController × (Progress ⊕ Answer)) :=
  match request, signal with
  | .sleep, .ready => some (c, .inr (.ok ⟨0, .void⟩))
  | .sleep, _ => none
  | .gate number, .ready =>
      if number ∈ c.opened then some (c, .inr (.ok ⟨0, .void⟩)) else none
  | .gate _, _ => none
  | _, .ready => none
  | request, signal => arriveRequest messages request progress signal c

end CostEngine.Frontend
