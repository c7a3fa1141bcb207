import Mathlib.Algebra.Group.Nat.Defs
import CostEngine.Demo.SessionCookie
import CostEngine.Text.Multiline

/-! # `task-007d-milestone-results.ts`

The evidence of the milestone gate. Executing a suite is an effect on everything outside, the
type `σ`; a rejected promise is an error with its message. What the loop has done is in its
`events`, which it never looks at. -/

namespace CostEngine

inductive CommandKind where
  | build | test
  deriving DecidableEq

structure MilestoneSuite where
  label : String
  command : String
  kind : CommandKind
  deriving DecidableEq

structure ProcessResult where
  exitCode : Option Int
  signal : Option String
  spawnError : Option String
  stdout : String
  deriving DecidableEq

/-- `keyof Counts`. -/
inductive CountKey where
  | tests | pass | fail | skip | cancelled | todo
  deriving DecidableEq

structure Counts where
  tests : Option Nat
  pass : Option Nat
  fail : Option Nat
  skip : Option Nat
  cancelled : Option Nat
  todo : Option Nat
  deriving DecidableEq

inductive SuiteStatus where
  | pass | fail | notRun
  deriving DecidableEq

structure SuiteResult extends Counts where
  command : String
  kind : CommandKind
  exitCode : Option Int
  signal : Option String
  spawnError : Option String
  status : SuiteStatus
  issues : List String
  deriving DecidableEq

namespace Counts

def empty : Counts := ⟨none, none, none, none, none, none⟩

def get (counts : Counts) : CountKey → Option Nat
  | .tests => counts.tests
  | .pass => counts.pass
  | .fail => counts.fail
  | .skip => counts.skip
  | .cancelled => counts.cancelled
  | .todo => counts.todo

def set (counts : Counts) (key : CountKey) (value : Option Nat) : Counts :=
  match key with
  | .tests => { counts with tests := value }
  | .pass => { counts with pass := value }
  | .fail => { counts with fail := value }
  | .skip => { counts with skip := value }
  | .cancelled => { counts with cancelled := value }
  | .todo => { counts with todo := value }

theorem get_set (counts : Counts) (key key' : CountKey) (value : Option Nat) :
    (counts.set key value).get key' = if key' = key then value else counts.get key' := by
  cases key <;> cases key' <;> rfl

@[simp] theorem get_empty (key : CountKey) : empty.get key = none := by
  cases key <;> rfl

/-- `Object.entries(counts)`. -/
def entries (counts : Counts) : List (String × Option Nat) :=
  [("tests", counts.tests), ("pass", counts.pass), ("fail", counts.fail),
    ("skip", counts.skip), ("cancelled", counts.cancelled), ("todo", counts.todo)]

end Counts

/-! ## `parseTapCounts` -/

/-- The word of a counter in a summary line. -/
def CountKey.word : CountKey → List Char
  | .tests => ['t', 'e', 's', 't', 's']
  | .pass => ['p', 'a', 's', 's']
  | .fail => ['f', 'a', 'i', 'l']
  | .skip => ['s', 'k', 'i', 'p', 'p', 'e', 'd']
  | .cancelled => ['c', 'a', 'n', 'c', 'e', 'l', 'l', 'e', 'd']
  | .todo => ['t', 'o', 'd', 'o']

/-- `(tests|pass|fail|skipped|cancelled|todo)`. -/
def CountKey.all : List CountKey := [.tests, .pass, .fail, .skip, .cancelled, .todo]

/-- `[ \t]`. -/
def isBlank (c : Char) : Bool := c = ' ' || c = '\t'

/-- `[^\r\n]`. -/
def isLineChar (c : Char) : Bool := c ≠ '\r' && c ≠ '\n'

/-- `$`, in front of `rest`. -/
def endsLine : List Char → Bool
  | [] => true
  | c :: _ => Multiline.isLineTerminator c

/-- How much of `rest` the end `\r?$` of the pattern takes. The value before it ends at a CR,
at an LF or with the text, so `$` matches there when it does not match behind the CR. -/
def returnLength : List Char → Nat
  | '\r' :: rest => if endsLine rest then 1 else 0
  | _ => 0

/-- `#[ \t]+(tests|pass|fail|skipped|cancelled|todo)[ \t]+([^\r\n]*)\r?$` at the front of a
text: its two groups, and the length of the match. -/
def summaryLine? : List Char → Option ((CountKey × List Char) × Nat)
  | '#' :: text =>
      let blanks := text.takeWhile isBlank
      let words := text.dropWhile isBlank
      if blanks = [] then none
      else match CountKey.all.find? (·.word.isPrefixOf words) with
        | none => none
        | some key =>
            let gap := (words.drop key.word.length).takeWhile isBlank
            let tail := (words.drop key.word.length).dropWhile isBlank
            if gap = [] then none
            else
              let value := tail.takeWhile isLineChar
              some ((key, value), 1 + blanks.length + key.word.length + gap.length
                + value.length + returnLength (tail.dropWhile isLineChar))
  | _ => none

/-- `Number(value)` of decimal digits. -/
def decimal (value : List Char) : Nat :=
  value.foldl (fun n c => 10 * n + (c.toNat - '0'.toNat)) 0

/-- `/^\d+$/.test(value) ? Number(value) : NaN`, if it is a safe integer. Rounding to a
double leaves the safe integers alone and makes no other digits safe. -/
def safeInteger? (value : List Char) : Option Nat :=
  if value ≠ [] ∧ value.all (·.isDigit) = true ∧ decimal value < 2 ^ 53 then
    some (decimal value)
  else none

/-- One turn of the loop over the matches. -/
def countMatch (state : Counts × List CountKey) (m : CountKey × List Char) :
    Counts × List CountKey :=
  let (counts, seen) := state
  (counts.set m.1 (if m.1 ∉ seen then safeInteger? (trim m.2) else none), m.1 :: seen)

def parseTapCounts (stdout : String) : Counts :=
  ((Multiline.matchAll summaryLine? stdout.toList).foldl countMatch (.empty, [])).1

/-! ## `classifyResult` -/

/-- The issues of the counters of a test suite. -/
def tapIssues (counts : Counts) : List String :=
  let missing := (counts.entries.filter (·.2 = none)).map (·.1)
  match counts with
  | ⟨some tests, some pass, some fail, some skip, some cancelled, some todo⟩ =>
      (if tests ≠ pass + fail + skip + cancelled + todo then ["Inconsistent TAP totals"] else [])
        ++ (if pass = 0 then ["No passing tests executed"] else [])
        ++ (if fail ≠ 0 then ["Failing tests"] else [])
        ++ (if skip ≠ 0 then ["Skipped tests"] else [])
        ++ (if cancelled ≠ 0 then ["Cancelled tests"] else [])
        ++ (if todo ≠ 0 then ["Unexpected TODO tests"] else [])
  | _ => ["Missing or invalid TAP counters: " ++ ", ".intercalate missing]

def classifyResult (suite : MilestoneSuite) (process : ProcessResult) : SuiteResult :=
  let counts := match suite.kind with
    | .test => parseTapCounts process.stdout
    | .build => .empty
  let issues := (if process.exitCode ≠ some 0 then ["Process did not exit with code 0"] else [])
    ++ (match process.signal with
      | some signal => [s!"Process terminated by signal {signal}"]
      | none => [])
    ++ (match process.spawnError with
      | some spawnError => [s!"Process spawn failed: {spawnError}"]
      | none => [])
    ++ (match suite.kind with
      | .test => tapIssues counts
      | .build => [])
  { counts with
    command := suite.label
    kind := suite.kind
    exitCode := process.exitCode
    signal := process.signal
    spawnError := process.spawnError
    status := if issues = [] then .pass else .fail
    issues }

/-! ## `runSequentially` -/

/-- What the runner does outside: it executes a suite, or reports a result. -/
inductive MilestoneEvent where
  | executed (suite : MilestoneSuite) (outcome : Except String ProcessResult)
  | reported (result : SuiteResult)

/-- The loop, with what it has done so far. -/
structure MilestoneRun (σ : Type) where
  results : List SuiteResult := []
  failed : Bool := false
  world : σ
  events : List MilestoneEvent := []

structure MilestoneSummary where
  overall : SuiteStatus
  exitCode : Int
  suites : List SuiteResult

/-- The result of a suite after a failure. -/
def notRun (suite : MilestoneSuite) : SuiteResult where
  toCounts := .empty
  command := suite.label
  kind := suite.kind
  exitCode := none
  signal := none
  spawnError := none
  status := .notRun
  issues := ["Stopped after an earlier failure"]

/-- What `execute` resolves to, or what the `catch` makes of its error. -/
def processOf : Except String ProcessResult → ProcessResult
  | .ok process => process
  | .error message => ⟨none, none, some message, ""⟩

section

variable {σ : Type} (execute : MilestoneSuite → σ → Except String ProcessResult × σ)

def MilestoneRun.next (run : MilestoneRun σ) (suite : MilestoneSuite) : MilestoneRun σ :=
  if run.failed then
    let result := notRun suite
    { run with
      results := run.results ++ [result]
      events := run.events ++ [.reported result] }
  else
    let (outcome, world) := execute suite run.world
    let result := classifyResult suite (processOf outcome)
    { results := run.results ++ [result]
      failed := decide (result.status = .fail)
      world
      events := run.events ++ [.executed suite outcome, .reported result] }

def MilestoneRun.all (suites : List MilestoneSuite) (world : σ) : MilestoneRun σ :=
  suites.foldl (MilestoneRun.next execute) { world }

/-- `results.find((result) => result.status === 'FAIL')?.exitCode || 1`. -/
def failureExitCode (results : List SuiteResult) : Int :=
  match (results.find? (·.status = .fail)).bind (·.exitCode) with
  | some code => if code ≠ 0 then code else 1
  | none => 1

def summarize (results : List SuiteResult) : MilestoneSummary :=
  let success := results ≠ [] ∧ ∀ result ∈ results, result.status = .pass
  { overall := if success then .pass else .fail
    exitCode := if success then 0 else failureExitCode results
    suites := results }

/-- The summary, and what was done on the way to it. -/
def runSequentially (suites : List MilestoneSuite) (world : σ) :
    MilestoneSummary × List MilestoneEvent :=
  let run := MilestoneRun.all execute suites world
  (summarize run.results, run.events)

end

end CostEngine
