import Blockwork.Json.Quote
import Blockwork.Text.Lines

/-!
# Writing JSON

The values that workspaces are saved as, and their two texts: one without any blank character, and
one with a line for each element, moved in by two blanks for each level.
-/

namespace Blockwork.Json

/-- A value. The members of an object keep their order. -/
inductive Value where
  | integer (n : Int)
  | text (s : String)
  | array (elements : List Value)
  | object (members : List (String × Value))

namespace Value

mutual

/-- The text without blank characters. -/
def compact : Value → List Char
  | integer n => (toString n).toList
  | text s => quoteChars s.toList
  | array elements => '[' :: (compactElements elements ++ [']'])
  | object members => '{' :: (compactMembers members ++ ['}'])

/-- Elements with commas between them. -/
def compactElements : List Value → List Char
  | [] => []
  | [v] => compact v
  | v :: rest => compact v ++ ',' :: compactElements rest

/-- Members with commas between them. -/
def compactMembers : List (String × Value) → List Char
  | [] => []
  | [(key, v)] => quoteChars key.toList ++ ':' :: compact v
  | (key, v) :: rest =>
    quoteChars key.toList ++ ':' :: (compact v ++ ',' :: compactMembers rest)

end

/-- A new line at a level. -/
def newLine (level : Nat) : List Char :=
  '\n' :: List.replicate (2 * level) ' '

mutual

/-- The text with a line for each element, for a value at a level. -/
def indented (level : Nat) : Value → List Char
  | integer n => (toString n).toList
  | text s => quoteChars s.toList
  | array [] => ['[', ']']
  | array (v :: rest) =>
    '[' :: (indentedElements (level + 1) (v :: rest) ++ newLine level ++ [']'])
  | object [] => ['{', '}']
  | object (m :: rest) =>
    '{' :: (indentedMembers (level + 1) (m :: rest) ++ newLine level ++ ['}'])

/-- Elements, each on a line. -/
def indentedElements (level : Nat) : List Value → List Char
  | [] => []
  | [v] => newLine level ++ indented level v
  | v :: rest => newLine level ++ indented level v ++ ',' :: indentedElements level rest

/-- Members, each on a line. -/
def indentedMembers (level : Nat) : List (String × Value) → List Char
  | [] => []
  | [(key, v)] => newLine level ++ quoteChars key.toList ++ ':' :: ' ' :: indented level v
  | (key, v) :: rest =>
    newLine level ++ quoteChars key.toList ++ ':' :: ' ' :: (indented level v ++
      ',' :: indentedMembers level rest)

end

end Value

end Blockwork.Json
