import Blockwork.Run.Machine
import Blockwork.Text.Columns
import Blockwork.Text.Lines

/-!
# Diagnostics with excerpts

A fault or a warning of a run is shown with the line of the program that it lies in, and carets
below the place. Carets count in columns of the terminal, so that they stand below characters of any
width. A place lies on one line, because no string literal of a program holds an end of line.

On a terminal with colors, the parts of the text are painted: a painted part begins with a code that
resets the style before it sets its own, and ends with a reset.
-/

namespace Blockwork.Console

open Run

/-! ### Styles -/

/-- The code that resets all styles. -/
def resetCode : String := "\x1b[0m"

/-- The code of a style, given by its numbers. -/
def styleCode (style : String) : String :=
  s!"\x1b[{style}m"

/-- A text in styles, if there are colors. -/
def painted (colored : Bool) (styles : List String) (text : String) : String :=
  if colored then resetCode ++ String.join (styles.map styleCode) ++ text ++ resetCode else text

def boldStyle : String := "1"

/-- The style of rules and line numbers. -/
def ruleStyle : String := "36"

/-- The styles of a diagnostic: that of its name, and that of its place. -/
def severityStyles (warning : Bool) : String × String :=
  if warning then ("38;5;11", "33") else ("38;5;9", "31")

def severityName (warning : Bool) : String :=
  if warning then "warning" else "error"

/-! ### Places -/

/-- A line of a text: its number from one, the offset of its first byte, and its characters. -/
structure NumberedLine where
  number : Nat
  offset : Nat
  chars : List Char
deriving Repr, DecidableEq

/-- The line that a byte lies in, among lines from the given number and offset on. -/
def lineAt (byte : Nat) : (number offset : Nat) → List (List Char) → NumberedLine
  | number, offset, [] => ⟨number, offset, []⟩
  | number, offset, [line] => ⟨number, offset, line⟩
  | number, offset, line :: rest =>
    -- the line feed belongs to the line that it ends
    if byte ≤ offset + Text.size line then ⟨number, offset, line⟩
    else lineAt byte (number + 1) (offset + Text.size line + 1) rest

/-- A line cut at a place: before it, in it, and behind it. The offset is that of the characters. -/
def cutAt (span : Script.Span) (offset : Nat) : List Char → List Char × List Char × List Char
  | [] => ([], [], [])
  | c :: cs =>
    let (before, inside, behind) := cutAt span (offset + c.utf8Size) cs
    if offset + c.utf8Size ≤ span.start then (c :: before, inside, behind)
    else if offset < span.stop then (before, c :: inside, behind)
    else (before, inside, c :: behind)

/-- A character for each column of a text. -/
def ruled (mark : Char) (cs : List Char) : String :=
  String.ofList (cs.flatMap fun c => List.replicate (Text.columns c) mark)

/-! ### Rendering -/

/-- The name under which a compiled program is shown. -/
def programName : String := "<generated>"

/-- What a diagnostic is called, and its message. -/
def headline (colored : Bool) (d : Diagnostic) : String :=
  let name := severityName d.warning
  if colored then
    let style := String.join ([boldStyle, (severityStyles d.warning).1].map styleCode)
    resetCode ++ style ++ name ++ painted true [boldStyle] s!": {d.message}"
  else s!"{name}: {d.message}"

/-- A diagnostic with the line of the program that its place lies in. -/
def excerpt (colored : Bool) (program : String) (d : Diagnostic) (span : Script.Span) : String :=
  let line := lineAt span.start 1 0 (program.toList.splitOn '\n')
  let (before, inside, behind) := cutAt span line.offset line.chars
  let number := toString line.number
  let margin := String.ofList (List.replicate number.length ' ')
  let rule (text : String) := painted colored [ruleStyle] text
  let place (text : String) := painted colored [(severityStyles d.warning).2] text
  let blank := " "
  String.join <| [
    headline colored d,
    margin ++ blank ++ rule "┌─" ++ s!" {programName}:{line.number}:{before.length + 1}",
    margin ++ blank ++ rule "│",
    rule number ++ blank ++ rule "│" ++ blank ++ String.ofList before ++
      place (String.ofList inside) ++ String.ofList behind,
    margin ++ blank ++ rule "│" ++ blank ++ ruled ' ' before ++ place (ruled '^' inside),
    ""].map (· ++ "\n")

/-- A diagnostic as it is shown on a terminal. Without a place it takes one line. -/
def showDiagnostic (colored : Bool) (program : String) (d : Diagnostic) : String :=
  match d.span with
  | some span => excerpt colored program d span
  | none => (if d.warning then "warning" else "runtime error") ++ s!": {d.message}\n"

end Blockwork.Console
