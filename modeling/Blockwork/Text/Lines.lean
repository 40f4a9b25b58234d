/-!
# Lines

A text is cut into lines at its line feeds. A carriage return right before the line feed belongs to
the line's end, and a last piece without any character is no line. Going back, lines are joined by
single line feeds.
-/

namespace Blockwork.Text

/-- A line without the carriage return that ended it. -/
def dropReturn (line : List Char) : List Char :=
  if line.getLast? = some '\r' then line.dropLast else line

/-- The lines of a text, without their ends. -/
def linesOfChars (cs : List Char) : List (List Char) :=
  let pieces := cs.splitOn '\n'
  let ended := pieces.dropLast.map dropReturn
  match pieces.getLast? with
  | some (c :: rest) => ended ++ [c :: rest]
  | _ => ended

/-- The lines of a text, without their ends. -/
def lines (s : String) : List String :=
  (linesOfChars s.toList).map String.ofList

/-- Lines joined by line feeds, with none after the last. -/
def joinLines (lines : List String) : String :=
  "\n".intercalate lines

/-- How many bytes a sequence of characters takes in UTF-8. -/
def size : List Char → Nat
  | [] => 0
  | c :: cs => c.utf8Size + size cs

@[simp] theorem size_nil : size [] = 0 := rfl

@[simp] theorem size_cons (c : Char) (cs : List Char) : size (c :: cs) = c.utf8Size + size cs := rfl

@[simp] theorem size_append (cs ds : List Char) : size (cs ++ ds) = size cs + size ds := by
  induction cs with
  | nil => simp
  | cons c cs ih => simp [ih, Nat.add_assoc]

end Blockwork.Text
