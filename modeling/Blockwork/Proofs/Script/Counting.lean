import Mathlib
import Blockwork.Proofs.Computation
import Blockwork.Script.Statement

/-!
# The parser with a counter

`Parser.exprAt` and `Parser.blockAt` are told how many levels of nesting they may open, and how many
turns the loops in them may take. Here is the parser without these arguments, for any `Limit` of
nesting. Its cursor counts the levels that are open: `Limit.nested` adds one and takes it away again,
whether there was a fault or not. A flag of the cursor says that there were too many of them. The
loops go on as long as they do, so a reader need not end, and its equations are solved by
`partial_fixpoint`: what does not end gives `none`.

Nothing of this is run. It is what the readers with arguments are measured by; that they do the
same is shown in `Tracking.lean`.
-/

namespace Blockwork.Script

/-- Where the parser stands: the stream, how many levels of nesting are open, and whether there have
been too many. -/
structure Cursor where
  stream : Stream
  nesting : Nat
  tooDeep : Bool

namespace Counting

/-- How many levels of nesting may be open at once. -/
structure Limit where
  levels : Nat

/-- The limit of the parser. -/
def Limit.standard : Limit :=
  ⟨nestingLimit⟩

/-- What moves the cursor. It gives nothing if it does not end. -/
abbrev Machine := StateT Cursor Option

/-- A reader of lexemes that counts its levels of nesting. -/
abbrev Reader := ExceptT ParseFault Machine

/-- What only takes lexemes from the stream. -/
instance : MonadLift Parser Reader where
  monadLift x := ExceptT.mk fun c =>
    let (result, stream) := outcome x c.stream
    some (result, { c with stream })

/-- What a reader gives from a cursor, and the cursor afterwards, if it ends. -/
def ending {α : Type} (x : Reader α) (c : Cursor) : Option (Except ParseFault α × Cursor) :=
  x.run c

/-- Open a level of nesting if the limit is not reached, and raise the flag if it is. -/
def Limit.enter (limit : Limit) : Machine Bool := do
  let c ← get
  if limit.levels ≤ c.nesting then
    set { c with tooDeep := true }
    return false
  else
    set { c with nesting := c.nesting + 1 }
    return true

/-- Close a level of nesting. -/
def leave : Machine Unit :=
  modify fun c => { c with nesting := c.nesting - 1 }

/-- Read one level further in. The level is closed also after a fault. -/
abbrev Limit.nested {α : Type} (limit : Limit) (x : Reader α) : Reader α := (do
  if ← limit.enter then
    let result ← x.run
    leave
    return result
  else
    return .error ⟨.tooDeep, (← get).stream.here⟩ : Machine (Except ParseFault α))

section

variable {α β : Type} {limit : Limit} {x y : Reader α} {f : α → Reader β} {c d : Cursor} {a : α}

theorem ending_bind_ok (h : ending x c = some (.ok a, d)) :
    ending (x >>= f) c = ending (f a) d := by
  change (ending x c).bind (fun p => (ExceptT.bindCont f p.1) p.2) = _
  rw [h]
  rfl

theorem ending_bind_error {fault : ParseFault} (h : ending x c = some (.error fault, d)) :
    ending (x >>= f) c = some (.error fault, d) := by
  change (ending x c).bind (fun p => (ExceptT.bindCont f p.1) p.2) = _
  rw [h]
  rfl

theorem ending_lift (x : Parser α) (c : Cursor) : ending (liftM x : Reader α) c
    = some ((outcome x c.stream).1, { c with stream := (outcome x c.stream).2 }) :=
  rfl

theorem ending_nested_full (h : limit.levels ≤ c.nesting) : ending (limit.nested x) c
    = some (.error ⟨.tooDeep, c.stream.here⟩, { c with tooDeep := true }) := by
  have henter : limit.enter c = some (false, { c with tooDeep := true }) := by
    change (ite (limit.levels ≤ c.nesting) _ _ : Machine Bool) c = _
    rw [if_pos h]
    rfl
  change (limit.enter c).bind _ = _
  rw [henter]
  rfl

theorem ending_nested {result : Except ParseFault α} (h : ¬ limit.levels ≤ c.nesting)
    (hx : ending x { c with nesting := c.nesting + 1 } = some (result, d)) :
    ending (limit.nested x) c = some (result, { d with nesting := d.nesting - 1 }) := by
  have henter : limit.enter c = some (true, { c with nesting := c.nesting + 1 }) := by
    change (ite (limit.levels ≤ c.nesting) _ _ : Machine Bool) c = _
    rw [if_neg h]
    rfl
  change (limit.enter c).bind _ = _
  rw [henter]
  change (ending x { c with nesting := c.nesting + 1 }).bind _ = _
  rw [hx]
  rfl

end

open Blockwork.Script.Parser (here peek peekTwo previous advance failHere eat expect expectName)

/-! ### Expressions -/

mutual

/-- An expression of operators of at least the power `least`. -/
def Limit.expr (limit : Limit) (least : Nat) : Reader Expr :=
  limit.nested (limit |>.exprInner least)
partial_fixpoint

/-- An expression, on its own level. -/
def Limit.exprInner (limit : Limit) (least : Nat) : Reader Expr := do
  let span ← here
  let left ← limit |>.operand
  limit |>.operators least span.start left
partial_fixpoint

/-- The operators that follow an operand, and their right operands. -/
def Limit.operators (limit : Limit) (least start : Nat) (left : Expr) : Reader Expr := do
  match (← peek).bind Token.binaryOp? with
  | none => return left
  | some op =>
    if op.power < least then
      return left
    else
      let _ ← advance
      let right ← limit |>.expr (op.power + 1)
      limit |>.operators least start (.binary op left right ⟨start, ← previous⟩)
partial_fixpoint

/-- An operand: a literal, a name, a call, a parenthesis, or a prefix operator with its operand. -/
def Limit.operand (limit : Limit) : Reader Expr := do
  let span ← here
  match ← advance with
  | none => failHere .endOfExpression
  | some ⟨.number value, _⟩ => return .number value
  | some ⟨.text value, _⟩ => return .text value
  | some ⟨.keyword .true, _⟩ => return .bool true
  | some ⟨.keyword .false, _⟩ => return .bool false
  | some ⟨.name word, _⟩ =>
    if ← eat (.mark .openParen) then
      let values ←
        if ← eat (.mark .closeParen) then pure [] else limit |>.arguments
      return .call word values ⟨span.start, ← previous⟩
    else
      return .var word span
  | some ⟨.mark .not, _⟩ => return .unary .not (← limit |>.expr prefixPower)
  | some ⟨.mark .minus, _⟩ => return .unary .negate (← limit |>.expr prefixPower)
  | some ⟨.mark .openParen, _⟩ =>
    let value ← limit |>.expr 0
    let _ ← expect (.mark .closeParen)
    return value
  | some found => throw ⟨.expected .expression (some found.token), span⟩
partial_fixpoint

/-- The arguments of a call, whose parenthesis has been read and is not closed at once. -/
def Limit.arguments (limit : Limit) : Reader (List Expr) := do
  let first ← limit |>.expr 0
  if ← eat (.mark .comma) then
    return first :: (← limit |>.arguments)
  else
    let _ ← expect (.mark .closeParen)
    return [first]
partial_fixpoint

end

/-! ### Statements -/

/-- A statement without a body and without its semicolon. -/
def Limit.simple (limit : Limit) : Reader Simple := do
  let start := (← here).start
  if ← eat (.keyword .let) then
    let name ← expectName
    let _ ← expect (.mark .assign)
    let value ← limit.expr 0
    return .declare name value ⟨start, ← previous⟩
  match ← peekTwo with
  | (some (.name name), some (.mark .plusPlus)) =>
    let _ ← advance
    let _ ← advance
    return .increment name ⟨start, ← previous⟩
  | (some (.name name), some (.mark .assign)) =>
    let _ ← advance
    let _ ← advance
    let value ← limit.expr 0
    return .assign name .replace value ⟨start, ← previous⟩
  | (some (.name name), some (.mark .plusAssign)) =>
    let _ ← advance
    let _ ← advance
    let value ← limit.expr 0
    return .assign name .add value ⟨start, ← previous⟩
  | _ =>
    let value ← limit.expr 0
    return .evaluate value ⟨start, ← previous⟩

/-- A condition in parentheses. -/
def Limit.condition (limit : Limit) : Reader Expr := do
  let _ ← expect (.mark .openParen)
  let value ← limit.expr 0
  let _ ← expect (.mark .closeParen)
  return value

/-- A part of a loop header that may be missing, which the given token shows. -/
def optional {α : Type} (ending : Token) (part : Reader α) : Reader (Option α) := do
  if (← peek) = some ending then return none else return some (← part)

/-- The update of a loop header, which may not declare a variable. -/
def Limit.update (limit : Limit) : Reader Simple := do
  let statement ← limit.simple
  if statement.isDeclaration then
    throw ⟨.declarationInUpdate, statement.span⟩
  return statement

mutual

/-- A statement. -/
def Limit.statement (limit : Limit) : Reader Stmt := do
  let start := (← here).start
  match ← peek with
  | some (.mark .openBrace) =>
    let body ← limit |>.block
    return .block body ⟨start, ← previous⟩
  | some (.keyword .if) => limit |>.conditional
  | some (.keyword .while) =>
    let _ ← advance
    let test ← limit.condition
    let body ← limit |>.block
    return .while test body ⟨start, ← previous⟩
  | some (.keyword .for) => limit |>.forLoop
  | some (.keyword .break) =>
    let _ ← advance
    let _ ← expect (.mark .semicolon)
    return .break ⟨start, ← previous⟩
  | _ =>
    let s ← limit.simple
    let _ ← expect (.mark .semicolon)
    return .simple s
partial_fixpoint

/-- A conditional with all its `else if` parts. -/
def Limit.conditional (limit : Limit) : Reader Stmt := do
  let start := (← here).start
  let _ ← expect (.keyword .if)
  let test ← limit.condition
  let body ← limit |>.block
  if ← eat (.keyword .else) then
    let otherwise ←
      if (← peek) = some (.keyword .if) then
        pure [← limit |>.conditional]
      else
        limit |>.block
    return .ifElse test body otherwise ⟨start, ← previous⟩
  else
    return .ifThen test body ⟨start, ← previous⟩
partial_fixpoint

/-- A `for` loop. -/
def Limit.forLoop (limit : Limit) : Reader Stmt := do
  let start := (← here).start
  let _ ← expect (.keyword .for)
  let _ ← expect (.mark .openParen)
  let first ← optional (.mark .semicolon) limit.simple
  let _ ← expect (.mark .semicolon)
  let test ← optional (.mark .semicolon) (limit.expr 0)
  let _ ← expect (.mark .semicolon)
  let step ← optional (.mark .closeParen) limit.update
  let _ ← expect (.mark .closeParen)
  let body ← limit |>.block
  return .for first test step body ⟨start, ← previous⟩
partial_fixpoint

/-- A block in braces. -/
def Limit.block (limit : Limit) : Reader (List Stmt) :=
  limit.nested (limit |>.blockInner)
partial_fixpoint

/-- A block, on its own level. -/
def Limit.blockInner (limit : Limit) : Reader (List Stmt) := do
  let opening ← expect (.mark .openBrace)
  limit |>.blockRest opening
partial_fixpoint

/-- The statements of a block up to its closing brace; the opening one stands at `opening`. -/
def Limit.blockRest (limit : Limit) (opening : Span) : Reader (List Stmt) := do
  if ← eat (.mark .closeBrace) then
    return []
  if (← (get : Parser Stream)).ahead.isEmpty then
    throw ⟨.unclosedBlock, opening⟩
  let first ← limit |>.statement
  return first :: (← limit |>.blockRest opening)
partial_fixpoint

end

end Counting

end Blockwork.Script
