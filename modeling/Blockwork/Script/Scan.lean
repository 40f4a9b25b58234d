import Blockwork.Decimal.Reading
import Blockwork.Script.Token
import Blockwork.Text.Alphanumeric
import Blockwork.Text.Blank
import Blockwork.Text.Lines

/-!
# From text to tokens

`scan` cuts a source into lexemes. Between two lexemes there may be blank characters and comments,
which run from `//` to the end of their line. Each lexeme is as long as it can be: a number takes
all digits and points that follow, a name all letters, digits, `_` and `$`.

A string literal is read by an automaton that takes one character at a time (`Literal.step`); its
escapes are those of JSON. Scanning stops at the first character that starts no token and at the
first defect of a literal.
-/

namespace Blockwork.Script

/-- Why a lexeme cannot be read. -/
inductive ScanCause where
  | unexpected (c : Char)
  | unterminatedLiteral
  | unterminatedEscape
  | unknownEscape
  | badCodeUnit
  | unpairedSurrogate
deriving Repr, DecidableEq

def ScanCause.message : ScanCause → String
  | .unexpected c => s!"unexpected character `{c}`"
  | .unterminatedLiteral => "unterminated string literal"
  | .unterminatedEscape => "unterminated escape sequence"
  | .unknownEscape => "unknown escape sequence"
  | .badCodeUnit => "invalid \\u escape"
  | .unpairedSurrogate => "unpaired surrogate in \\u escape"

/-- A fault of scanning, and where it lies. -/
structure ScanFault where
  cause : ScanCause
  span : Span
deriving Repr, DecidableEq

/-! ### Blank characters and comments -/

/-- How many bytes of blank characters and comments the text begins with, and what follows them.
The flag says that a comment has begun. -/
def skipBlank : Bool → List Char → Nat × List Char
  | _, [] => (0, [])
  | comment, c :: cs =>
    let next (inside : Bool) : Nat × List Char :=
      let (n, rest) := skipBlank inside cs
      (c.utf8Size + n, rest)
    if comment then next (c ≠ '\n')
    else if Text.isBlank c then next false
    -- a single slash is a token, so a comment shows only at the second one
    else if c = '/' ∧ cs.head? = some '/' then next true
    else (0, c :: cs)

/-! ### String literals -/

namespace Literal

/-- The value of a hexadecimal digit. -/
def hexValue? (c : Char) : Option Nat :=
  if '0' ≤ c ∧ c ≤ '9' then some (c.toNat - '0'.toNat)
  else if 'a' ≤ c ∧ c ≤ 'f' then some (c.toNat - 'a'.toNat + 10)
  else if 'A' ≤ c ∧ c ≤ 'F' then some (c.toNat - 'A'.toNat + 10)
  else none

/-- The character that a backslash and this letter stand for. -/
def simpleEscape? : Char → Option Char
  | '"' => some '"'
  | '\\' => some '\\'
  | '/' => some '/'
  | 'b' => some '\x08'
  | 'f' => some '\x0c'
  | 'n' => some '\n'
  | 'r' => some '\r'
  | 't' => some '\t'
  | _ => none

/-- Whether a code unit is the first of a surrogate pair. -/
def isHighSurrogate (unit : Nat) : Bool :=
  0xD800 ≤ unit && unit < 0xDC00

/-- The character of a surrogate pair. Of the second unit only the lower ten bits count. -/
def pairedChar (high low : Nat) : Char :=
  Char.ofNat (0x10000 + (high - 0xD800) * 1024 + low % 1024)

/-- The code unit of four digits that were read last digit first. -/
def unitOfDigits (digits : List Nat) : Nat :=
  digits.foldr (fun d n => 16 * n + d) 0

/-- What the automaton is in the middle of. A second code unit remembers the first. -/
inductive State where
  | plain
  | escape
  | unit (high : Option Nat) (digits : List Nat)
  | secondBackslash (high : Nat)
  | secondLetter (high : Nat)
deriving Repr, DecidableEq

/-- What one character does to the automaton. -/
inductive Step where
  /-- Go on in another state, with a character of the value if one is complete. -/
  | next (state : State) (value : Option Char)
  /-- The closing quote has been read. -/
  | closed
  /-- The escape is at fault, and the character belongs to it or does not. -/
  | fault (cause : ScanCause) (included : Bool)
deriving Repr, DecidableEq

/-- The step at the fourth digit of a code unit. -/
def stepUnit (high : Option Nat) (unit : Nat) : Step :=
  match high with
  | some high => .next .plain (some (pairedChar high unit))
  | none =>
    if isHighSurrogate unit then .next (.secondBackslash unit) none
    else if unit.isValidChar then .next .plain (some (Char.ofNat unit))
    else .fault .badCodeUnit true

def step : State → Char → Step
  | .plain, c =>
    if c = '"' then .closed
    else if c = '\\' then .next .escape none
    else .next .plain (some c)
  | .escape, c =>
    if c = 'u' then .next (.unit none []) none
    else match simpleEscape? c with
      | some value => .next .plain (some value)
      | none => .fault .unknownEscape true
  | .unit high digits, c =>
    match hexValue? c with
    | none => .fault .badCodeUnit true
    | some d =>
      if digits.length < 3 then .next (.unit high (d :: digits)) none
      else stepUnit high (unitOfDigits (d :: digits))
  | .secondBackslash high, c =>
    if c = '\\' then .next (.secondLetter high) none else .fault .unpairedSurrogate false
  | .secondLetter high, c =>
    if c = 'u' then .next (.unit (some high) []) none else .fault .unpairedSurrogate false

/-- The fault of a text that ends in this state. -/
def State.endCause : State → ScanCause
  | .plain => .unterminatedLiteral
  | .escape => .unterminatedEscape
  | .unit .. => .badCodeUnit
  | .secondBackslash _ => .unpairedSurrogate
  | .secondLetter _ => .unpairedSurrogate

/-- Run the automaton from a state. `quote` is the offset of the opening quote, `backslash` that of
the escape being read, and `offset` that of the next character. The answer is the value, the offset
behind the closing quote, and the rest. -/
def run (quote : Nat) : State → (backslash offset : Nat) → (value : List Char) → List Char →
    Except ScanFault (String × Nat × List Char)
  | state, backslash, offset, _, [] =>
    .error ⟨state.endCause, ⟨if state = .plain then quote else backslash, offset⟩⟩
  | state, backslash, offset, value, c :: cs =>
    -- an escape begins where the plain state ends, so its offset is kept until it is over
    let backslash := if state = .plain then offset else backslash
    let after := offset + c.utf8Size
    match step state c with
    | .next state none => run quote state backslash after value cs
    | .next state (some v) => run quote state backslash after (v :: value) cs
    | .closed => .ok (String.ofList value.reverse, after, cs)
    | .fault cause included =>
      .error ⟨cause, ⟨backslash, if included then after else offset⟩⟩

end Literal

/-! ### Lexemes -/

/-- The characters that may begin a name. -/
def startsName (c : Char) : Bool :=
  c.isAlpha || c == '_' || c == '$'

/-- The characters that may continue a name. -/
def continuesName (c : Char) : Bool :=
  Text.isAlphanumeric c || c == '_' || c == '$'

/-- The characters of a number. -/
def inNumber (c : Char) : Bool :=
  c.isDigit || c == '.'

/-- A name or the keyword of that spelling. -/
def wordToken (word : String) : Token :=
  match Keyword.ofSpelling? word with
  | some k => .keyword k
  | none => .name word

/-- The token that a character at the given offset begins, the offset behind it, and the rest of
the text. A numeral with two points has no value. -/
def scanToken (offset : Nat) (c : Char) (cs : List Char) :
    Except ScanFault (Token × Nat × List Char) :=
  if c = '"' then
    (Literal.run offset .plain offset (offset + 1) [] cs).map fun (value, after, rest) =>
      (.text value, after, rest)
  else if c.isDigit then
    -- the first digit counts like the others
    let (digits, rest) := (c :: cs).span inNumber
    .ok (.number (Number.read (String.ofList digits)), offset + Text.size digits, rest)
  else if startsName c then
    let (word, rest) := (c :: cs).span continuesName
    .ok (wordToken (String.ofList word), offset + Text.size word, rest)
  else match Mark.scan? (c :: cs) with
    | some (m, rest) => .ok (.mark m, offset + m.spelling.utf8ByteSize, rest)
    | none => .error ⟨.unexpected c, ⟨offset, offset + c.utf8Size⟩⟩

/-- The lexemes of a text that begins at the given offset. Each takes at least one character, so
the length of the text bounds their number. -/
def scanFrom : (bound offset : Nat) → List Char → Except ScanFault (List Lexeme)
  | 0, _, _ => .ok []
  | bound + 1, offset, cs =>
    match skipBlank false cs with
    | (_, []) => .ok []
    | (n, c :: rest) => do
      let (token, after, rest) ← scanToken (offset + n) c rest
      let lexemes ← scanFrom bound after rest
      return ⟨token, ⟨offset + n, after⟩⟩ :: lexemes

/-- The lexemes of a source. -/
def scan (source : String) : Except ScanFault (List Lexeme) :=
  let cs := source.toList
  scanFrom cs.length 0 cs

end Blockwork.Script
