import Blockwork.Script.Scan

/-!
# Faults of a source text

What can be wrong with a script before it runs: a fault of scanning, a token where another was
expected, a block that is never closed, or a nesting that is too deep. The wording is given here
and nowhere else.
-/

namespace Blockwork.Script

/-- How many levels of blocks and subexpressions may be nested. -/
def nestingLimit : Nat := 64

/-- What stood to be read where something else was found. -/
inductive Expected where
  | token (token : Token)
  | name
  | expression
deriving DecidableEq

def Expected.describe : Expected → String
  | .token t => t.describe
  | .name => "identifier"
  | .expression => "expression"

/-- Why a source text is no program. -/
inductive ParseCause where
  | scan (cause : ScanCause)
  | expected (what : Expected) (found : Option Token)
  | endOfExpression
  | tooDeep
  | unclosedBlock
  | declarationInUpdate
deriving DecidableEq

namespace ParseCause

def message : ParseCause → String
  | scan cause => cause.message
  | expected what found =>
    let foundText := (found.map Token.describe).getD "end of input"
    s!"expected {what.describe}, found {foundText}"
  | endOfExpression => "unexpected end of expression"
  | tooDeep => s!"nested more than {nestingLimit} levels deep"
  | unclosedBlock => "unclosed `\x7b`"
  | declarationInUpdate => "declarations are not allowed in a for-loop update"

/-- Remarks that follow the message. -/
def notes : ParseCause → List String
  | unclosedBlock => ["block opened here is never closed"]
  | _ => []

end ParseCause

/-- A fault and its place in the source. -/
structure ParseFault where
  cause : ParseCause
  span : Span
deriving DecidableEq

namespace ParseFault

def message (f : ParseFault) : String :=
  f.cause.message

/-- The message with its place. -/
def text (f : ParseFault) : String :=
  s!"{f.message} at {f.span.start}..{f.span.stop}"

end ParseFault

end Blockwork.Script
