import Blockwork.Script.Fault

/-!
# Reading lexemes one after the other

A `Stream` is the lexemes that are still ahead, together with the end of the one that was taken
last. A `Parser` reads a prefix of the stream and gives a value or a fault; also after a fault the
stream stands where reading stopped, which is where recovery begins.
-/

namespace Blockwork.Script

/-- The lexemes ahead, where the last one taken ended, and where the source ends. -/
structure Stream where
  ahead : List Lexeme
  previous : Nat
  stop : Nat

namespace Stream

/-- The place of the next lexeme, or the empty place at the end of the source. -/
def here (s : Stream) : Span :=
  match s.ahead with
  | l :: _ => l.span
  | [] => ⟨s.stop, s.stop⟩

/-- Without the next lexeme. -/
def advance (s : Stream) : Stream :=
  match s.ahead with
  | l :: ls => { s with ahead := ls, previous := l.span.stop }
  | [] => s

end Stream

/-- A reader of lexemes. -/
abbrev Parser := ExceptT ParseFault (StateM Stream)

namespace Parser

/-- The next token, which stays in the stream. -/
def peek : Parser (Option Token) := do
  return (← get).ahead.head?.map Lexeme.token

/-- The next two tokens, which stay in the stream. -/
def peekTwo : Parser (Option Token × Option Token) := do
  let ahead := (← get).ahead
  return (ahead.head?.map Lexeme.token, ahead[1]?.map Lexeme.token)

/-- The place of the next lexeme. -/
def here : Parser Span := do
  return (← get).here

/-- Where the lexeme that was taken last ended. -/
def previous : Parser Nat := do
  return (← get).previous

/-- Take the next lexeme, if there is one. -/
def advance : Parser (Option Lexeme) := do
  let s ← get
  set s.advance
  return s.ahead.head?

/-- Fail at the next lexeme. -/
def failHere {α : Type} (cause : ParseCause) : Parser α := do
  throw ⟨cause, ← here⟩

/-- Take the next token if it is the given one, and say whether it was. -/
def eat (token : Token) : Parser Bool := do
  if (← peek) = some token then
    let _ ← advance
    return true
  else
    return false

/-- Take the given token, which has to be next; another one stays in the stream. -/
def expect (token : Token) : Parser Span := do
  let span ← here
  let found ← peek
  if found = some token then
    let _ ← advance
    return span
  else
    failHere (.expected (.token token) found)

/-- Take a name, which has to be next; another token is taken too. -/
def expectName : Parser String := do
  let span ← here
  match ← advance with
  | some ⟨.name word, _⟩ => return word
  | found => throw ⟨.expected .name (found.map Lexeme.token), span⟩

end Parser

end Blockwork.Script
