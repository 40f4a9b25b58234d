import Blockwork.Text.Lines

/-!
# Searching and cutting texts
-/

namespace Blockwork.Text

/-- Whether a text stands somewhere in another one. -/
def occursIn (part : List Char) : List Char → Bool
  | [] => part.isEmpty
  | c :: cs => part.isPrefixOf (c :: cs) || occursIn part cs

/-- Whether a text contains another one. -/
def contains (text part : String) : Bool :=
  occursIn part.toList text.toList

/-- A text without some first characters, if it begins with them. -/
def dropStart? (start cs : List Char) : Option (List Char) :=
  if start.isPrefixOf cs then some (cs.drop start.length) else none

/-- What follows an end of line, if the text begins with one. -/
def dropLineStart : List Char → List Char
  | '\n' :: cs => cs
  | '\r' :: '\n' :: cs => cs
  | cs => cs

/-- The number of the line that a byte lies in, counted from one. -/
def lineNumber (byte : Nat) : List Char → Nat
  | [] => 1
  | c :: cs =>
    if byte = 0 then 1
    else lineNumber (byte - c.utf8Size) cs + if c = '\n' then 1 else 0

end Blockwork.Text
