import Blockwork.Script.Expression

/-!
# Reading statements and programs

A block takes one level of nesting, so the statements in it have one level less to spend. The parts
of an `else if` chain stand beside each other, on one level.

After a fault, reading goes on just behind the next semicolon or closing brace, so that one source
may show several faults; a nesting that is too deep ends it. `Program.parse` gives the program of a
source, or all faults that were found.
-/

namespace Blockwork.Script

namespace Parser

/-- A statement without a body and without its semicolon. -/
def simple (expr : Parser Expr) : Parser Simple := do
  let start := (← here).start
  if ← eat (.keyword .let) then
    let name ← expectName
    let _ ← expect (.mark .assign)
    let value ← expr
    return .declare name value ⟨start, ← previous⟩
  match ← peekTwo with
  | (some (.name name), some (.mark .plusPlus)) =>
    let _ ← advance
    let _ ← advance
    return .increment name ⟨start, ← previous⟩
  | (some (.name name), some (.mark .assign)) =>
    let _ ← advance
    let _ ← advance
    let value ← expr
    return .assign name .replace value ⟨start, ← previous⟩
  | (some (.name name), some (.mark .plusAssign)) =>
    let _ ← advance
    let _ ← advance
    let value ← expr
    return .assign name .add value ⟨start, ← previous⟩
  | _ =>
    let value ← expr
    return .evaluate value ⟨start, ← previous⟩

/-- A condition in parentheses. -/
def condition (expr : Parser Expr) : Parser Expr := do
  let _ ← expect (.mark .openParen)
  let value ← expr
  let _ ← expect (.mark .closeParen)
  return value

/-- A conditional with all its `else if` parts. -/
def conditional (block : Parser (List Stmt)) (expr : Parser Expr) : Nat → Parser Stmt
  | 0 => failHere .endOfExpression
  | bound + 1 => do
    let start := (← here).start
    let _ ← expect (.keyword .if)
    let test ← condition expr
    let body ← block
    if ← eat (.keyword .else) then
      let otherwise ←
        -- no block lies between the two parts, so the room stays the same
        if (← peek) = some (.keyword .if) then
          pure [← conditional block expr bound]
        else
          block
      return .ifElse test body otherwise ⟨start, ← previous⟩
    else
      return .ifThen test body ⟨start, ← previous⟩

/-- A part of a loop header that may be missing, which the given token shows. -/
def optional {α : Type} (ending : Token) (part : Parser α) : Parser (Option α) := do
  if (← peek) = some ending then return none else return some (← part)

/-- The update of a loop header, which may not declare a variable. -/
def update (expr : Parser Expr) : Parser Simple := do
  let statement ← simple expr
  if statement.isDeclaration then
    throw ⟨.declarationInUpdate, statement.span⟩
  return statement

/-- A `for` loop. -/
def forLoop (block : Parser (List Stmt)) (expr : Parser Expr) : Parser Stmt := do
  let start := (← here).start
  let _ ← expect (.keyword .for)
  let _ ← expect (.mark .openParen)
  let first ← optional (.mark .semicolon) (simple expr)
  let _ ← expect (.mark .semicolon)
  let test ← optional (.mark .semicolon) expr
  let _ ← expect (.mark .semicolon)
  let step ← optional (.mark .closeParen) (update expr)
  let _ ← expect (.mark .closeParen)
  let body ← block
  return .for first test step body ⟨start, ← previous⟩

/-- A statement, given how to read a block and an expression on its level. -/
def statement (bound : Nat) (block : Parser (List Stmt)) (expr : Parser Expr) : Parser Stmt := do
  let start := (← here).start
  match ← peek with
  | some (.mark .openBrace) =>
    let body ← block
    return .block body ⟨start, ← previous⟩
  | some (.keyword .if) => conditional block expr bound
  | some (.keyword .while) =>
    let _ ← advance
    let test ← condition expr
    let body ← block
    return .while test body ⟨start, ← previous⟩
  | some (.keyword .for) => forLoop block expr
  | some (.keyword .break) =>
    let _ ← advance
    let _ ← expect (.mark .semicolon)
    return .break ⟨start, ← previous⟩
  | _ =>
    let s ← simple expr
    let _ ← expect (.mark .semicolon)
    return .simple s

/-- The statements of a block up to its closing brace; the opening one stands at `opening`. -/
def blockRest (opening : Span) (statement : Parser Stmt) : Nat → Parser (List Stmt)
  | 0 => throw ⟨.unclosedBlock, opening⟩
  | bound + 1 => do
    if ← eat (.mark .closeBrace) then
      return []
    -- asked before a statement is read, so that the fault lies at the opening brace
    if (← get).ahead.isEmpty then
      throw ⟨.unclosedBlock, opening⟩
    let first ← statement
    return first :: (← blockRest opening statement bound)

/-- A block in braces. -/
def blockAt (bound : Nat) : (room : Nat) → Parser (List Stmt)
  | 0 => failHere .tooDeep
  | room + 1 => do
    let opening ← expect (.mark .openBrace)
    blockRest opening (statement bound (blockAt bound room) (exprAt bound room 0)) (bound + 1)

/-- A statement of the outermost level. -/
def topStatement (bound : Nat) : Parser Stmt :=
  statement bound (blockAt bound nestingLimit) (exprAt bound nestingLimit 0)

/-- Whether reading goes on behind this token after a fault. -/
def endsStatement (token : Token) : Bool :=
  token = .mark .semicolon || token = .mark .closeBrace

/-- The lexemes behind the next one that ends a statement. -/
def recovered : List Lexeme → List Lexeme
  | [] => []
  | l :: ls => if endsStatement l.token then ls else recovered ls

/-- Read statements to the end of the stream. The answer is the statements and the faults. -/
def statements (statement : Parser Stmt) : Nat → Stream → List Stmt × List ParseFault
  | 0, _ => ([], [])
  | bound + 1, s =>
    if s.ahead.isEmpty then ([], [])
    else match statement.run s with
      | (.ok first, rest) =>
        let (others, faults) := statements statement bound rest
        (first :: others, faults)
      | (.error fault, rest) =>
        -- the braces behind it belong to levels that were never opened
        if fault.cause = .tooDeep then ([], [fault])
        else
          let (others, faults) :=
            statements statement bound { rest with ahead := recovered rest.ahead }
          (others, fault :: faults)

end Parser

/-- The program of a list of lexemes, or its faults. -/
def Program.ofLexemes (lexemes : List Lexeme) (stop source : Nat) :
    Except (List ParseFault) Program :=
  let bound := lexemes.length
  match Parser.statements (Parser.topStatement bound) bound ⟨lexemes, 0, stop⟩ with
  | (statements, []) => .ok ⟨statements, source⟩
  | (_, faults) => .error faults

/-- The program of a source text, or its faults. -/
def Program.parse (text : String) (source : Nat) : Except (List ParseFault) Program :=
  match scan text with
  | .error fault => .error [⟨.scan fault.cause, fault.span⟩]
  | .ok lexemes => Program.ofLexemes lexemes text.utf8ByteSize source

end Blockwork.Script
