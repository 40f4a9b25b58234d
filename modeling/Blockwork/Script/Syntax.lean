import Blockwork.Script.Span

/-!
# The syntax tree of a script

Expressions, the *simple* statements that may also stand in the header of a `for` loop, and
statements. Nodes that can be at fault when they run carry their place in the source.

These are the trees that the parser makes. In the header of a `for` loop it reads simple statements
only, so a loop with a conditional, a block or another loop in its header is no tree here, and what
is said of every loop is said of those that a source can have.
-/

namespace Blockwork.Script

/-- Operators with one operand. -/
inductive UnaryOp where
  | negate | not
deriving Repr, DecidableEq

def UnaryOp.symbol : UnaryOp → String
  | .negate => "-"
  | .not => "!"

/-- Operators with two operands. -/
inductive BinaryOp where
  | add | subtract | multiply | divide | remainder
  | and | or
  | equal | notEqual | greater | less | greaterEqual | lessEqual
deriving Repr, DecidableEq

namespace BinaryOp

def all : List BinaryOp :=
  [.add, .subtract, .multiply, .divide, .remainder, .and, .or, .equal, .notEqual, .greater,
    .less, .greaterEqual, .lessEqual]

def symbol : BinaryOp → String
  | .add => "+"
  | .subtract => "-"
  | .multiply => "*"
  | .divide => "/"
  | .remainder => "%"
  | .and => "&&"
  | .or => "||"
  | .equal => "=="
  | .notEqual => "!="
  | .greater => ">"
  | .less => "<"
  | .greaterEqual => ">="
  | .lessEqual => "<="

end BinaryOp

/-- An expression. -/
inductive Expr where
  | number (value : Float)
  | text (value : String)
  | bool (value : Bool)
  | var (name : String) (span : Span)
  | call (function : String) (arguments : List Expr) (span : Span)
  | unary (op : UnaryOp) (operand : Expr)
  | binary (op : BinaryOp) (left right : Expr) (span : Span)

/-- How an assignment makes the new value: from the expression alone, or by adding it. -/
inductive AssignKind where
  | replace | add
deriving Repr, DecidableEq

def AssignKind.symbol : AssignKind → String
  | .replace => "="
  | .add => "+="

/-- A statement without a body. -/
inductive Simple where
  | declare (name : String) (value : Expr) (span : Span)
  | assign (name : String) (kind : AssignKind) (value : Expr) (span : Span)
  | increment (name : String) (span : Span)
  | evaluate (value : Expr) (span : Span)

namespace Simple

def span : Simple → Span
  | declare _ _ s => s
  | assign _ _ _ s => s
  | increment _ s => s
  | evaluate _ s => s

/-- Whether the statement declares a variable. -/
def isDeclaration : Simple → Bool
  | declare .. => true
  | _ => false

end Simple

/-- A statement. -/
inductive Stmt where
  | simple (statement : Simple)
  | ifThen (condition : Expr) (body : List Stmt) (span : Span)
  | ifElse (condition : Expr) (body otherwise : List Stmt) (span : Span)
  | while (condition : Expr) (body : List Stmt) (span : Span)
  | for (first : Option Simple) (condition : Option Expr) (update : Option Simple)
      (body : List Stmt) (span : Span)
  | break (span : Span)
  | block (body : List Stmt) (span : Span)

def Stmt.span : Stmt → Span
  | simple s => s.span
  | ifThen _ _ s => s
  | ifElse _ _ _ s => s
  | .while _ _ s => s
  | .for _ _ _ _ s => s
  | .break s => s
  | block _ s => s

/-- A program: its statements, and the number under which its source is known in messages. -/
structure Program where
  statements : List Stmt
  source : Nat

end Blockwork.Script
