import Blockwork.Script.Stream
import Blockwork.Script.Syntax

/-!
# Reading expressions

Operators bind by their *power*. `exprAt room least` reads an operand and then all operators of at
least the power `least`; the right operand of an operator is read with the next higher power, so
that operators of one power group from the left. `room` is how many more levels of nesting are
allowed: the whole expression, a parenthesis, an argument, the operand of a prefix operator and a
right operand take one level each.

The number of lexemes bounds every loop, since each turn takes at least one; it is the argument
`bound`.
-/

namespace Blockwork.Script

/-- How tightly an operator binds. -/
def BinaryOp.power : BinaryOp → Nat
  | .or => 4
  | .and => 6
  | .equal | .notEqual => 8
  | .greater | .less | .greaterEqual | .lessEqual => 10
  | .add | .subtract => 12
  | .multiply | .divide | .remainder => 14

/-- How tightly prefix operators bind. -/
def prefixPower : Nat := 16

/-- The operator that a mark stands for between two operands. -/
def Mark.binaryOp? : Mark → Option BinaryOp
  | .or => some .or
  | .and => some .and
  | .equal => some .equal
  | .notEqual => some .notEqual
  | .greater => some .greater
  | .less => some .less
  | .greaterEqual => some .greaterEqual
  | .lessEqual => some .lessEqual
  | .plus => some .add
  | .minus => some .subtract
  | .star => some .multiply
  | .slash => some .divide
  | .percent => some .remainder
  | _ => none

/-- The operator that a token stands for between two operands. -/
def Token.binaryOp? : Token → Option BinaryOp
  | .mark m => m.binaryOp?
  | _ => none

namespace Parser

/-- The arguments of a call, whose parenthesis has been read and is not closed at once. -/
def arguments (argument : Parser Expr) : Nat → Parser (List Expr)
  | 0 => return []
  | bound + 1 => do
    let first ← argument
    if ← eat (.mark .comma) then
      return first :: (← arguments argument bound)
    else
      let _ ← expect (.mark .closeParen)
      return [first]

/-- An operand: a literal, a name, a call, a parenthesis, or a prefix operator with its operand.
`inner` reads an expression one level further in. -/
def operand (bound : Nat) (inner : Nat → Parser Expr) : Parser Expr := do
  let span ← here
  match ← advance with
  | none => failHere .endOfExpression
  | some ⟨.number value, _⟩ => return .number value
  | some ⟨.text value, _⟩ => return .text value
  | some ⟨.keyword .true, _⟩ => return .bool true
  | some ⟨.keyword .false, _⟩ => return .bool false
  | some ⟨.name word, _⟩ =>
    if ← eat (.mark .openParen) then
      let values ←
        if ← eat (.mark .closeParen) then pure [] else arguments (inner 0) bound
      return .call word values ⟨span.start, ← previous⟩
    else
      return .var word span
  | some ⟨.mark .not, _⟩ => return .unary .not (← inner prefixPower)
  | some ⟨.mark .minus, _⟩ => return .unary .negate (← inner prefixPower)
  | some ⟨.mark .openParen, _⟩ =>
    let value ← inner 0
    let _ ← expect (.mark .closeParen)
    return value
  -- the token is gone all the same, and recovery begins behind it
  | some found => throw ⟨.expected .expression (some found.token), span⟩

/-- The operators that follow an operand, and their right operands. -/
def operators (inner : Nat → Parser Expr) (least start : Nat) : Nat → Expr → Parser Expr
  | 0, left => return left
  | bound + 1, left => do
    match (← peek).bind Token.binaryOp? with
    | none => return left
    | some op =>
      -- the operator binds less, so it belongs to an expression further out
      if op.power < least then
        return left
      else
        let _ ← advance
        -- an operator of the same power has to wait, which groups from the left
        let right ← inner (op.power + 1)
        operators inner least start bound (.binary op left right ⟨start, ← previous⟩)

/-- An expression of operators of at least the power `least`. -/
def exprAt (bound : Nat) : (room least : Nat) → Parser Expr
  | 0, _ => failHere .tooDeep
  | room + 1, least => do
    let span ← here
    let left ← operand bound (exprAt bound room)
    operators (exprAt bound room) least span.start bound left

end Parser

end Blockwork.Script
