import Blockwork.Decimal.Reading
import Blockwork.Decimal.Shortest
import Blockwork.Script.Syntax
import Blockwork.Text.Blank

/-!
# Values and operators

A running script computes with numbers, truth values, texts and the undefined value. A value can be
shown as text, read as a number and judged true or false, and the operators are defined through
these three: `+` joins texts as soon as one side is a text and adds numbers otherwise, the other
arithmetic reads both sides as numbers, equality never holds between values of two sorts, and two
texts are ordered by their characters while all other pairs are ordered as numbers.
-/

namespace Blockwork.Run

open Script

/-- A value of a running script. -/
inductive Value where
  | number (value : Float)
  | bool (value : Bool)
  | text (value : String)
  | undefined
deriving DecidableEq

namespace Value

/-- The name of the sort of a value. -/
def sort : Value → String
  | number _ => "number"
  | bool _ => "boolean"
  | text _ => "string"
  | undefined => "undefined"

/-- Whether a condition with this value holds. -/
def isTrue : Value → Bool
  | number x => !x.isNaN && x != 0
  | bool b => b
  | text s => s != ""
  | undefined => false

/-- The number that a value stands for. A text is read as a numeral without the blank characters
around it, and the empty text is zero. -/
def toNumber : Value → Float
  | number x => x
  | bool b => if b then 1 else 0
  | text s =>
    match Text.trimChars s.toList with
    | [] => 0
    | cs => (Number.read? cs).getD (0 / 0)
  | undefined => 0 / 0

/-- The text of a number. Whole numbers below `10 ^ 15` have neither point nor sign of zero. -/
def numberText (x : Float) : String :=
  if x.isNaN then "NaN"
  else if x.isInf then if x < 0 then "-Infinity" else "Infinity"
  else
    let d := Dyadic.ofFloat x
    if d.isWhole && d.magnitude < Nat.pow 10 15 then toString d.truncate else Number.toDecimal x

/-- The text that shows a value. -/
def display : Value → String
  | number x => numberText x
  | bool b => if b then "true" else "false"
  | text s => s
  | undefined => "undefined"

/-- Equality of two values of one sort; "not a number" equals nothing. -/
def equals : Value → Value → Bool
  | number x, number y => x == y
  | bool a, bool b => a == b
  | text s, text t => s == t
  | undefined, undefined => true
  | _, _ => false

/-- How two values compare, if they do. -/
def order? : Value → Value → Option Ordering
  | text s, text t => some (if s < t then .lt else if s = t then .eq else .gt)
  | l, r =>
    let x := l.toNumber
    let y := r.toNumber
    if x < y then some .lt else if x == y then some .eq else if y < x then some .gt else none

/-- The sum of two numbers, or the two texts joined. -/
def add : Value → Value → Value
  | text s, r => text (s ++ r.display)
  | l, text t => text (l.display ++ t)
  | l, r => number (l.toNumber + r.toNumber)

/-- Whether the values compare, and in one of the wanted ways. -/
def compares (l r : Value) (wanted : Ordering → Bool) : Value :=
  bool ((l.order? r).any wanted)

end Value

/-- The value of an operator applied to two values. The logical operators give the side that
decides. -/
def applyBinary (op : BinaryOp) (l r : Value) : Value :=
  match op with
  | .add => l.add r
  | .subtract => .number (l.toNumber - r.toNumber)
  | .multiply => .number (l.toNumber * r.toNumber)
  | .divide => .number (l.toNumber / r.toNumber)
  | .remainder => .number (Number.remainder l.toNumber r.toNumber)
  | .and => if l.isTrue then r else l
  | .or => if l.isTrue then l else r
  | .equal => .bool (l.equals r)
  | .notEqual => .bool (!l.equals r)
  | .greater => l.compares r Ordering.isGT
  | .less => l.compares r Ordering.isLT
  | .greaterEqual => l.compares r Ordering.isGE
  | .lessEqual => l.compares r Ordering.isLE

/-- The value of an operator applied to one value. -/
def applyUnary (op : UnaryOp) (v : Value) : Value :=
  match op with
  | .negate => .number (-v.toNumber)
  | .not => .bool (!v.isTrue)

end Blockwork.Run
