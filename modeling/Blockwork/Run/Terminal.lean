import Blockwork.Decimal.Shortest
import Blockwork.Run.Host
import Blockwork.Text.Blank

/-!
# A host on a terminal

What a program prints goes to one output, and everything else that it does shows on a second one:
dialogs, warnings and sprites. Questions are answered from an input, line by line, if the terminal
is interactive, and by no and nothing otherwise.

An output may have a limit. It holds as many bytes of what is written as its limit allows, and
writing fails once they do not suffice.
-/

namespace Blockwork.Run

/-! ### Outputs -/

/-- An output: the pieces that have been written, the last one first, and how many bytes of them it
can hold. -/
structure Sink where
  limit : Option Nat
  pieces : List String
deriving Repr, DecidableEq

namespace Sink

/-- An output that nothing has been written to. -/
def empty (limit : Option Nat) : Sink :=
  ⟨limit, []⟩

/-- An output that holds whatever is written. -/
def unlimited : Sink :=
  empty none

/-- Everything that has been written. -/
def text (s : Sink) : String :=
  String.join s.pieces.reverse

/-- How many bytes have been written. -/
def size (s : Sink) : Nat :=
  (s.pieces.map String.utf8ByteSize).foldr (· + ·) 0

/-- The bytes that the output holds. -/
def bytes (s : Sink) : List UInt8 :=
  let all := s.text.toUTF8.toList
  match s.limit with
  | some limit => all.take limit
  | none => all

/-- The error text of an output that is full. -/
def fullText : String := "disk full"

/-- Write a piece. -/
def write (piece : String) (s : Sink) : Except String Unit × Sink :=
  -- a piece that does not fit is kept too: the first bytes of it are in the output
  let s := { s with pieces := piece :: s.pieces }
  match s.limit with
  | none => (.ok (), s)
  | some limit => (if s.size ≤ limit then .ok () else .error fullText, s)

end Sink

/-! ### Input -/

/-- The error text of input that is no text. -/
def notTextError : String := "stream did not contain valid UTF-8"

/-- The first line of the input, with its end, and what follows it. -/
def splitLine (input : List UInt8) : List UInt8 × List UInt8 :=
  match input.dropWhile (· != 10) with
  | [] => (input, [])
  | b :: rest => (input.takeWhile (· != 10) ++ [b], rest)

/-- A line without the characters that end it. -/
def dropLineEnd (line : String) : String :=
  String.ofList ((line.toList.reverse.dropWhile fun c => c == '\r' || c == '\n').reverse)

/-! ### The host -/

/-- The state of a terminal. -/
structure Terminal where
  input : List UInt8
  out : Sink
  err : Sink
  interactive : Bool
  /-- Whether what is printed is left out. -/
  quiet : Bool
  canvas : Option Canvas
  draws : Array Draw
  /-- The two outputs as they were when a question first found the input at its end. -/
  ended : Option (Sink × Sink)

namespace Terminal

/-- A terminal with empty outputs, which is neither interactive nor quiet. -/
def start (input : List UInt8) (canvas : Option Canvas) : Terminal :=
  ⟨input, .unlimited, .unlimited, false, false, canvas, #[], none⟩

/-- Write to the output of printed lines. -/
def writeOut (piece : String) (t : Terminal) : Except String Unit × Terminal :=
  let (result, out) := t.out.write piece
  (result, { t with out })

/-- Write to the output of everything else. -/
def writeErr (piece : String) (t : Terminal) : Except String Unit × Terminal :=
  let (result, err) := t.err.write piece
  (result, { t with err })

/-- Read a line; at the end of the input there is none. -/
def readLine (t : Terminal) : Except String (Option String) × Terminal :=
  match splitLine t.input with
  -- nothing at all is the end, and an empty line has its line feed
  | ([], _) => (.ok none, { t with ended := t.ended.or (some (t.out, t.err)) })
  | (line, input) =>
    let t := { t with input }
    match String.fromUTF8? ⟨line.toArray⟩ with
    | some line => (.ok (some (dropLineEnd line)), t)
    | none => (.error notTextError, t)

/-- Ask a question and read the answer. -/
def ask (question : String) (t : Terminal) : Except String (Option String) × Terminal :=
  match t.writeErr (question ++ " ") with
  | (.error e, t) => (.error e, t)
  | (.ok (), t) => t.readLine

/-- Whether an answer means yes. -/
def isYes (answer : Option String) : Bool :=
  match answer.map Text.trim with
  | some "y" | some "Y" | some "yes" | some "Yes" => true
  | _ => false

/-- Show a question that gets no answer. -/
def decline {α : Type} (line : String) (answer : α) (t : Terminal) :
    Except String α × Terminal :=
  let (result, t) := t.writeErr (line ++ "\n")
  (result.map fun _ => answer, t)

/-- The line that shows a sprite on the canvas. -/
def drawLine (d : Draw) : String :=
  let place := s!"at ({Number.toRounded d.x}, {Number.toRounded d.y})"
  s!"[canvas] {d.name} {place} size {Number.toDecimal d.width}x{Number.toDecimal d.height}"

/-- The host that a terminal is. Warnings and sprites that do not fit in the output are lost without
notice. -/
def host : Host Terminal where
  print text t := if t.quiet then (.ok (), t) else t.writeOut (text ++ "\n")
  alert text t := t.writeErr s!"[alert] {text}\n"
  confirm text t :=
    if t.interactive then
      let (answer, t) := t.ask s!"[confirm] {text} [y/N]"
      (answer.map isYes, t)
    else t.decline s!"[confirm] {text} -> no" false
  prompt text t :=
    if t.interactive then t.ask s!"[prompt] {text}"
    else t.decline s!"[prompt] {text} -> cancelled" none
  warn text t := (t.writeErr s!"[warn] {text}\n").2
  canvas t := t.canvas
  draw d t :=
    let t := (t.writeErr (drawLine d ++ "\n")).2
    { t with draws := t.draws.push d }
  clearCanvas t := { t with draws := #[] }

end Terminal

end Blockwork.Run
