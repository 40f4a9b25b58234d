import Blockwork.Block.Kind
import Blockwork.Decimal.Reading
import Blockwork.Json.Quote
import Blockwork.Text.Blank
import Blockwork.Text.Lines

/-!
# The text of a block

A block is written twice: as a script that runs, and as the text that its user is shown. A
`Fragment` is the two together. They differ in the *guard* that stands at the start of each loop
body of the script: it counts the turns of all loops in one variable, and leaves the loop with a
warning once there have been more than `guardLimit`.
-/

namespace Blockwork

/-- The two texts of a block. -/
structure Fragment where
  executable : String
  display : String
deriving Repr, DecidableEq, Inhabited

namespace Fragment

/-- The fragment of a block that is written as nothing. -/
def empty : Fragment :=
  ⟨"", ""⟩

def isEmpty (f : Fragment) : Bool :=
  f.executable == "" && f.display == ""

/-- The same text twice. -/
def both (text : String) : Fragment :=
  ⟨text, text⟩

/-! ### The guard -/

/-- The variable that counts the turns of all loops. -/
def guardVariable : String := "__loop_guard"

/-- How many turns all loops of a run may take together. -/
def guardLimit : Nat := 5000

/-- The line that declares the counter, before all roots. -/
def prelude : String :=
  s!"let {guardVariable} = 0;"

/-- How far the lines of a body are indented. -/
def indentation : String := "  "

/-- The guard of a loop. `loop` is what the warning calls it. -/
def guardLines (loop : String) : List String :=
  let warning := Json.quote s!"Loop guard tripped in {loop}"
  [s!"{guardVariable}++;",
    s!"if ({guardVariable} > {guardLimit}) \x7b",
    s!"{indentation}warn({warning});",
    s!"{indentation}break;",
    "\x7d"]

/-! ### Statements -/

/-- A call with one literal argument. -/
def call (function argument : String) : Fragment :=
  .both s!"{function}({Json.quote argument});"

/-- Drawing the asset of the given name. -/
def drawSprite (name : String) : Fragment :=
  ⟨s!"draw_sprite({Json.quote name});", s!"Draw sprite \"{name}\" on canvas"⟩

/-- A line moved in by one step; an empty line stays empty. -/
def indentLine (line : String) : String :=
  if line = "" then "" else indentation ++ line

/-- The lines of a text, moved in by one step. -/
def indented (text : String) : List String :=
  (Text.lines text).map indentLine

/-- A loop: its header, the guard, and the children. -/
def loop (header name : String) (children : List Fragment) : Fragment :=
  let opening := s!"{header} \x7b"
  { executable := Text.joinLines <|
      opening :: ((guardLines name).map (indentation ++ ·) ++
        (children.flatMap (indented ·.executable) ++ ["\x7d"]))
    display := Text.joinLines (opening :: (children.flatMap (indented ·.display) ++ ["\x7d"])) }

/-- The counter of a loop at a depth, different from those of the loops around it. -/
def loopVariable (depth : Nat) : String :=
  s!"i{depth}"

/-- A loop that takes `count` turns. -/
def repeatLoop (count : Int) (children : List Fragment) (depth : Nat) : Fragment :=
  let i := loopVariable depth
  loop s!"for (let {i} = 0; {i} < {count}; {i}++)" "repeat" children

/-- A loop without end. -/
def foreverLoop (children : List Fragment) : Fragment :=
  loop "while (true)" "forever" children

end Fragment

/-! ### Counts -/

/-- The greatest count: the greatest integer of 64 bits with a sign. -/
def countLimit : Nat := Nat.pow 2 63 - 1

/-- The integer that a text begins with, after blank characters and at most one sign. Digits beyond
the greatest count stand for that count, and what follows the digits does not matter. -/
def readCount? (text : String) : Option Int :=
  let (negative, rest) := match Text.trimChars text.toList with
    | '-' :: cs => (true, cs)
    | '+' :: cs => (false, cs)
    | cs => (false, cs)
  let digits := rest.takeWhile Char.isDigit
  if digits = [] then none
  else
    let magnitude := min (Number.ofDigits digits) countLimit
    some (if negative then -(magnitude : Int) else magnitude)

/-- The count that a text stands for, or else that of the fallback, or else none. -/
def repeatCount (text fallback : String) : Int :=
  ((readCount? text).or (readCount? fallback)).getD 0

/-! ### Blocks -/

/-- The fragment of a block of this kind, given the text of each slot and the fragments of the
children. The depth only names the counters of loops. -/
def Kind.write (kind : Kind) (input : String → String) (children : List Fragment)
    (depth : Nat) : Fragment :=
  match kind with
  | .print => .call "print" (input "input1")
  | .alert => .call "alert" (input "input1")
  | .confirm => .call "confirm" (input "input1")
  | .prompt => .call "prompt" (input "input1")
  | .value => .both (input "input1")
  | .repeat =>
    .repeatLoop (repeatCount (input "input1") (kind.defaultText "input1")) children depth
  | .forever => .foreverLoop children
  | .addSprite => .drawSprite (input "imageinput1")

end Blockwork
