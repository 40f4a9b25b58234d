import Blockwork.Case.Header
import Blockwork.Snapshot.Restore
import Blockwork.Text.Blank
import Blockwork.Text.Shown
import Blockwork.Workspace.Report

/-!
# Verdicts on test cases

A test case is run on a recording host, and what has happened is compared with what was expected.
The first expectation that is not met is the reason for which the case fails. Texts are compared
without the blank characters around them.
-/

namespace Blockwork.Case

open Run

/-- Why a test case fails. -/
inductive Mismatch where
  | unreadable (text : String)
  | badHeader (fault : HeaderFault)
  | refused (error : SnapshotError)
  | notRefused (expected : String)
  | refusedOtherwise (expected : String) (error : SnapshotError)
  | noFault (expected : String)
  | otherFault (expected actual : String)
  | unexpectedFault (actual : String)
  | output (expected actual : String)
  | display (expected actual : String)
  | alerts (expected actual : List String)
  | guardTripped (expected actual : Bool) (iterations : Nat)
  | sprites (expected actual : Nat)
  | warningCount (expected : Nat) (actual : List String)
  | warningText (index : Nat) (expected actual : String)
  | warningWithoutPlace (index expected : Nat)
  | warningLine (index expected actual : Nat)
deriving Repr, DecidableEq

namespace Mismatch

/-- Two texts that should be equal. -/
def compared (what expected actual : String) : String :=
  s!"{what} mismatch\n  expected: {expected}\n  actual:   {actual}"

/-- The messages of warnings as a list, a line for each. -/
def listed : List String → String
  | [] => "    (none)"
  | texts => Text.joinLines (texts.map ("  - " ++ ·))

def message : Mismatch → String
  | unreadable text => s!"cannot read file: {text}"
  | badHeader fault => s!"frontmatter error: {fault.message}"
  | refused error => s!"snapshot did not load: {error.message}"
  | notRefused expected =>
    s!"expected restore error containing \"{expected}\", but the snapshot loaded"
  | refusedOtherwise expected error =>
    s!"expected restore error containing \"{expected}\", got: {error.message}"
  | noFault expected => s!"expected error containing \"{expected}\", but the run succeeded"
  | otherFault expected actual => s!"expected error containing \"{expected}\", got: {actual}"
  | unexpectedFault actual => s!"unexpected runtime error: {actual}"
  | output expected actual => compared "output" (Text.trim expected) (Text.trim actual)
  | display expected actual => compared "display" (Text.trim expected) (Text.trim actual)
  | alerts expected actual => compared "alerts" (Text.shownList expected) (Text.shownList actual)
  | guardTripped expected actual iterations =>
    s!"expected guard_tripped = {expected}, got {actual} after {iterations} loop iterations"
  | sprites expected actual => s!"expected {expected} sprite(s) on the canvas, got {actual}"
  | warningCount expected actual =>
    s!"expected {expected} warning(s), got {actual.length}\n  actual warnings:\n{listed actual}"
  | warningText index expected actual =>
    s!"warning[{index}]: expected message containing \"{expected}\", got: {actual}"
  | warningWithoutPlace index expected =>
    s!"warning[{index}]: expected on line {expected}, but warning has no span"
  | warningLine index expected actual =>
    s!"warning[{index}]: expected on line {expected}, but span is on line {actual}"

end Mismatch

/-- The outcome of a check: nothing, or the expectation that is not met. -/
abbrev Verdict := Except Mismatch Unit

/-- Whether two texts are equal without the blank characters around them. -/
def sameTrimmed (s t : String) : Bool :=
  Text.trim s == Text.trim t

/-! ### Checks -/

/-- The fault at which the run ended, or that there was none. -/
def checkFault (expected : Option String) (fault : Option Diagnostic) : Verdict :=
  match expected, fault with
  | some part, some d => unless Text.contains d.message part do throw (.otherFault part d.message)
  | some part, none => throw (.noFault part)
  | none, some d => throw (.unexpectedFault d.message)
  | none, none => return ()

/-- One warning, the `index`-th. -/
def checkWarning (program : String) (index : Nat) (warning : Diagnostic)
    (expected : WarningExpectation) : Verdict := do
  unless Text.contains warning.message expected.contains do
    throw (.warningText index expected.contains warning.message)
  if let some line := expected.line then
    match warning.span with
    | none => throw (.warningWithoutPlace index line)
    | some span =>
      let actual := Text.lineNumber span.start program.toList
      unless actual = line do throw (.warningLine index line actual)

/-- The warnings from the `index`-th on. -/
def checkEach (program : String) : (index : Nat) → List Diagnostic → List WarningExpectation →
    Verdict
  | index, warning :: warnings, expected :: rest => do
    checkWarning program index warning expected
    checkEach program (index + 1) warnings rest
  | _, _, _ => return ()

/-- All warnings: their number first, then one after the other. -/
def checkWarnings (program : String) (warnings : List Diagnostic)
    (expected : List WarningExpectation) : Verdict := do
  -- a wrong number is said with all messages, since no pairing would be right
  unless warnings.length = expected.length do
    throw (.warningCount expected.length (warnings.map (·.message)))
  checkEach program 0 warnings expected

/-- What a run has left behind, against what was expected. -/
def checkRun (e : Expectations) (report : Report) (host : Recording) : Verdict := do
  checkFault e.fault report.fault
  if let some expected := e.output then
    let actual := Text.joinLines host.output.toList
    unless sameTrimmed actual expected do throw (.output expected actual)
  if let some expected := e.display then
    unless sameTrimmed report.program.display expected do
      throw (.display expected report.program.display)
  if let some expected := e.alerts then
    unless host.alerts.toList = expected do throw (.alerts expected host.alerts.toList)
  if let some expected := e.guardTripped then
    unless report.guardTripped = expected do
      throw (.guardTripped expected report.guardTripped report.iterations)
  if let some expected := e.sprites then
    unless host.draws.size = expected do throw (.sprites expected host.draws.size)
  if let some expected := e.warnings then
    checkWarnings report.program.executable report.warnings.toList expected

/-- Run a workspace as its test case asks, and check the run. -/
def runAndCheck (e : Expectations) (ws : Workspace) : Verdict :=
  let canvas := if e.noCanvas then none else some Canvas.standard
  let (report, host) := ws.run Recording.host (e.seed.getD 0)
    (.start canvas e.confirmAnswers e.promptAnswers)
  checkRun e report host

/-- The verdict on a test case with the given body. If a refusal is expected, nothing is run. -/
def judge (e : Expectations) (body : String) : Verdict :=
  match e.refusal, (Workspace.empty .standard).loadText body with
  | some part, .error error =>
    unless Text.contains error.message part do throw (.refusedOtherwise part error)
  | some part, .ok _ => throw (.notRefused part)
  | none, .error error => throw (.refused error)
  | none, .ok ws => runAndCheck e ws

/-- The outcome of a test case, with what it says of itself. -/
structure Outcome where
  description : Option String
  verdict : Verdict

/-- The outcome of a test case, given by its text or by why it cannot be read. -/
def Outcome.of (text : Except String String) : Outcome :=
  match text with
  | .error reason => ⟨none, .error (.unreadable reason)⟩
  | .ok text =>
    match ofText text with
    | .error fault => ⟨none, .error (.badHeader fault)⟩
    | .ok (e, body) => ⟨e.description, judge e body⟩

end Blockwork.Case
