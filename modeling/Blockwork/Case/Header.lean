import Blockwork.Text.Search
import Blockwork.Toml.Reading

/-!
# Test cases

A test case is a text with a header and a body. The header stands between two lines that begin with
three hyphens; it is a TOML document that says what a run must produce. The body is the saved
workspace that is to be run.
-/

namespace Blockwork.Case

open Toml

/-- Why a text is no test case. -/
inductive HeaderFault where
  | noOpening
  | noClosing
  | unreadable (fault : Fault)
deriving Repr, DecidableEq

def HeaderFault.message : HeaderFault → String
  | noOpening => "missing opening --- frontmatter delimiter"
  | noClosing => "missing closing --- frontmatter delimiter"
  | unreadable fault => s!"TOML parse error: {fault.message}"

/-! ### Cutting -/

/-- What the two lines around a header begin with. -/
def delimiter : List Char := ['-', '-', '-']

/-- The text before the first delimiter at the start of a line, and the text behind that delimiter.
The end of the line before it belongs to neither. -/
def cutAtDelimiter? : List Char → Option (List Char × List Char)
  | [] => none
  | c :: cs =>
    if c = '\n' then
      match Text.dropStart? delimiter cs with
      | some rest => some ([], rest)
      | none => (cutAtDelimiter? cs).map fun (header, rest) => (c :: header, rest)
    else (cutAtDelimiter? cs).map fun (header, rest) => (c :: header, rest)

/-- A header without the carriage returns at its end. -/
def dropReturns (cs : List Char) : List Char :=
  (cs.reverse.dropWhile (· == '\r')).reverse

/-- The header and the body of a text. Byte order marks before the opening do not count. -/
def split (text : List Char) : Except HeaderFault (List Char × List Char) := do
  let some rest := Text.dropStart? delimiter (text.dropWhile (· == '\ufeff'))
    | throw .noOpening
  let some (header, body) := cutAtDelimiter? (Text.dropLineStart rest)
    | throw .noClosing
  return (dropReturns header, Text.dropLineStart body)

/-! ### Expectations -/

/-- What is expected of a warning. -/
structure WarningExpectation where
  contains : String
  /-- The line of the program that it is about. -/
  line : Option Nat
deriving Repr, DecidableEq

/-- What a test case expects, and how it is to be run. What is not given is not checked. -/
structure Expectations where
  description : Option String
  output : Option String
  display : Option String
  alerts : Option (List String)
  /-- A part of the message of the fault that ends the run. -/
  fault : Option String
  /-- A part of the message with which the workspace is refused. -/
  refusal : Option String
  warnings : Option (List WarningExpectation)
  guardTripped : Option Bool
  sprites : Option Nat
  confirmAnswers : List Bool
  promptAnswers : List String
  noCanvas : Bool
  seed : Option UInt64
deriving Repr, DecidableEq

namespace WarningExpectation

/-- The parts of an expectation that have been read. -/
structure Parts where
  contains : Option String
  line : Option Nat

def fields : List (Value.Field Parts) :=
  [{ key := "contains", put := fun v p => return { p with contains := some (← v.toText) } },
   { key := "line", put := fun v p => return { p with line := some (← v.toNat) } }]

/-- An expectation, in which keys of no meaning are skipped. -/
def read (v : Value) : Except Fault WarningExpectation := do
  let parts ← v.toRecord fields false ⟨none, none⟩
  match parts.contains with
  | some contains => return ⟨contains, parts.line⟩
  | none => throw (.missingKey "contains")

end WarningExpectation

namespace Expectations

/-- Nothing is expected. -/
def none : Expectations :=
  ⟨.none, .none, .none, .none, .none, .none, .none, .none, .none, [], [], false, .none⟩

def fields : List (Value.Field Expectations) :=
  [{ key := "description"
     put := fun v e => return { e with description := some (← v.toText) } },
   { key := "expect_output", put := fun v e => return { e with output := some (← v.toText) } },
   { key := "expect_display", put := fun v e => return { e with display := some (← v.toText) } },
   { key := "expect_alerts"
     put := fun v e => return { e with alerts := some (← v.toList Value.toText) } },
   { key := "expect_error", put := fun v e => return { e with fault := some (← v.toText) } },
   { key := "expect_restore_error"
     put := fun v e => return { e with refusal := some (← v.toText) } },
   { key := "expect_warnings"
     put := fun v e => return { e with warnings := some (← v.toList WarningExpectation.read) } },
   { key := "expect_guard_tripped"
     put := fun v e => return { e with guardTripped := some (← v.toBool) } },
   { key := "expect_sprites", put := fun v e => return { e with sprites := some (← v.toNat) } },
   { key := "confirm_answers"
     put := fun v e => return { e with confirmAnswers := ← v.toList Value.toBool } },
   { key := "prompt_answers"
     put := fun v e => return { e with promptAnswers := ← v.toList Value.toText } },
   { key := "no_canvas", put := fun v e => return { e with noCanvas := ← v.toBool } },
   { key := "seed", put := fun v e => return { e with seed := some (.ofNat (← v.toNat)) } }]

/-- The expectations of a header. -/
def read (header : String) : Except Fault Expectations := do
  (Value.table .header (← Toml.read header)).toRecord fields true none

end Expectations

/-- The expectations and the body of a test case. -/
def ofText (text : String) : Except HeaderFault (Expectations × String) := do
  let (header, body) ← split text.toList
  let expectations ← (Expectations.read (String.ofList header)).mapError .unreadable
  return (expectations, String.ofList body)

end Blockwork.Case
