import Blockwork.Decimal.Shortest
import Blockwork.Script.Span

/-!
# Tokens

The words of a script: numbers, string literals, names, keywords, and the marks that are operators
or punctuation. A token is a value; a `Lexeme` is a token together with its place in the source.
-/

namespace Blockwork.Script

/-- The reserved words. -/
inductive Keyword where
  | «let» | «if» | «else» | «while» | «for» | «break» | «true» | «false»
deriving Repr, DecidableEq

namespace Keyword

def all : List Keyword :=
  [.let, .if, .else, .while, .for, .break, .true, .false]

def spelling : Keyword → String
  | .let => "let"
  | .if => "if"
  | .else => "else"
  | .while => "while"
  | .for => "for"
  | .break => "break"
  | .true => "true"
  | .false => "false"

/-- The keyword that is spelled so. -/
def ofSpelling? (word : String) : Option Keyword :=
  all.find? (·.spelling == word)

end Keyword

/-- Operators and punctuation. -/
inductive Mark where
  | plus | plusPlus | plusAssign | minus | star | slash | percent
  | assign | equal | notEqual | greater | less | greaterEqual | lessEqual
  | and | or | not
  | openParen | closeParen | openBrace | closeBrace | comma | semicolon
deriving Repr, DecidableEq

namespace Mark

def spelling : Mark → String
  | .plus => "+"
  | .plusPlus => "++"
  | .plusAssign => "+="
  | .minus => "-"
  | .star => "*"
  | .slash => "/"
  | .percent => "%"
  | .assign => "="
  | .equal => "=="
  | .notEqual => "!="
  | .greater => ">"
  | .less => "<"
  | .greaterEqual => ">="
  | .lessEqual => "<="
  | .and => "&&"
  | .or => "||"
  | .not => "!"
  | .openParen => "("
  | .closeParen => ")"
  | .openBrace => "\x7b"
  | .closeBrace => "\x7d"
  | .comma => ","
  | .semicolon => ";"

/-- The longest mark at the front of the text, and what follows it. -/
def scan? : List Char → Option (Mark × List Char)
  | '+' :: '+' :: cs => some (.plusPlus, cs)
  | '+' :: '=' :: cs => some (.plusAssign, cs)
  | '+' :: cs => some (.plus, cs)
  | '-' :: cs => some (.minus, cs)
  | '*' :: cs => some (.star, cs)
  | '/' :: cs => some (.slash, cs)
  | '%' :: cs => some (.percent, cs)
  | '=' :: '=' :: cs => some (.equal, cs)
  | '=' :: cs => some (.assign, cs)
  | '!' :: '=' :: cs => some (.notEqual, cs)
  | '!' :: cs => some (.not, cs)
  | '>' :: '=' :: cs => some (.greaterEqual, cs)
  | '>' :: cs => some (.greater, cs)
  | '<' :: '=' :: cs => some (.lessEqual, cs)
  | '<' :: cs => some (.less, cs)
  | '&' :: '&' :: cs => some (.and, cs)
  | '|' :: '|' :: cs => some (.or, cs)
  | '(' :: cs => some (.openParen, cs)
  | ')' :: cs => some (.closeParen, cs)
  | '{' :: cs => some (.openBrace, cs)
  | '}' :: cs => some (.closeBrace, cs)
  | ',' :: cs => some (.comma, cs)
  | ';' :: cs => some (.semicolon, cs)
  | _ => none

end Mark

/-- A word of a script. -/
inductive Token where
  | number (value : Float)
  | text (value : String)
  | name (word : String)
  | keyword (word : Keyword)
  | mark (mark : Mark)
deriving DecidableEq

/-- How a token is called in a message about what was found or expected. -/
def Token.describe : Token → String
  | .number x => s!"number `{Number.toDecimal x}`"
  | .text _ => "string literal"
  | .name n => s!"identifier `{n}`"
  | .keyword k => s!"`{k.spelling}`"
  | .mark m => s!"`{m.spelling}`"

/-- A token at its place in the source. -/
structure Lexeme where
  token : Token
  span : Span
deriving DecidableEq

end Blockwork.Script
