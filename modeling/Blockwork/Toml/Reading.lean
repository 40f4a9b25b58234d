import Blockwork.Decimal.Reading
import Blockwork.Toml.Value

/-!
# Reading TOML

A document is a sequence of lines: a header opens a table, and every other statement gives a value
to a key of the table that was opened last. `Toml.read` gives the entries of a whole document.

A string is read by an automaton that takes one character at a time (`StringSort.step`). The four
sorts of strings share it: they differ in their quote, in whether they may go over several lines,
and in whether a backslash is special. A numeral is tried as a date or time, then as a float, then
as an integer.

Arrays and inline tables may be nested up to a limit, the argument `room`. Every other loop is
bounded by the number of characters, the argument `bound`.
-/

namespace Blockwork.Toml

/-- A reader of a prefix of the characters. -/
abbrev Reader := StateT (List Char) (Except Fault)

/-- How deep values may be nested, and how many parts a key may have. -/
def nestingLimit : Nat := 79

/-! ### Characters -/

def isBlank (c : Char) : Bool :=
  c == ' ' || c == '\t'

/-- Whether a character may stand in comments and strings: all but the control characters. -/
def isPlain (c : Char) : Bool :=
  c == '\t' || 0x20 ≤ c.toNat && c.toNat != 0x7F

/-- Whether a character may stand in a key without quotes. -/
def isBare (c : Char) : Bool :=
  c.isAlphanum || c == '_' || c == '-'

/-- The value of a hexadecimal digit. -/
def hexValue? (c : Char) : Option Nat :=
  if '0' ≤ c ∧ c ≤ '9' then some (c.toNat - '0'.toNat)
  else if 'a' ≤ c ∧ c ≤ 'f' then some (c.toNat - 'a'.toNat + 10)
  else if 'A' ≤ c ∧ c ≤ 'F' then some (c.toNat - 'A'.toNat + 10)
  else none

/-- What follows an end of line. -/
def lineEnd? : List Char → Option (List Char)
  | '\n' :: cs => some cs
  | '\r' :: '\n' :: cs => some cs
  | _ => none

/-- What follows a comment, if one begins here. -/
def skipComment : List Char → List Char
  | '#' :: cs => cs.dropWhile isPlain
  | cs => cs

/-- What follows blank characters, ends of lines and comments. The flag says that a comment has
begun. -/
def skipLines : (comment : Bool) → List Char → List Char
  | _, [] => []
  | _, '\n' :: cs => skipLines false cs
  | _, '\r' :: '\n' :: cs => skipLines false cs
  | true, c :: cs => if isPlain c then skipLines true cs else c :: cs
  | false, c :: cs =>
    if isBlank c then skipLines false cs
    else if c = '#' then skipLines true cs
    else c :: cs

/-! ### Strings -/

/-- A sort of strings. -/
structure StringSort where
  quote : Char
  /-- Three quotes at either end, and ends of lines between them. -/
  multiline : Bool
  escapes : Bool
deriving Repr, DecidableEq

/-- What the automaton is in the middle of. -/
inductive StringState where
  | plain
  | escape
  /-- The code point of an escape, of which some digits are left. -/
  | codePoint (left value : Nat)
  /-- Right behind a carriage return. -/
  | return
  /-- Behind a backslash at the end of a line, which joins it with the next one. The flag says that
  the end of the line has been passed. -/
  | join (passed : Bool)
  | joinReturn
  /-- Behind some quotes in a row. -/
  | quotes (count : Nat)
deriving Repr, DecidableEq

/-- What one character does to the automaton. -/
inductive StringStep where
  /-- Go on in another state, with characters of the value. -/
  | next (state : StringState) (value : List Char)
  /-- The string has ended, with the last characters of the value. The character belongs to it or
  does not. -/
  | closed (value : List Char) (included : Bool)
  | fault
deriving Repr, DecidableEq

/-- The step with characters put in front of the value. -/
def StringStep.after (value : List Char) : StringStep → StringStep
  | next state v => next state (value ++ v)
  | closed v included => closed (value ++ v) included
  | fault => fault

/-- The character that a backslash and this letter stand for. -/
def simpleEscape? : Char → Option Char
  | 'b' => some '\x08'
  | 'f' => some '\x0c'
  | 'n' => some '\n'
  | 'r' => some '\r'
  | 't' => some '\t'
  | '"' => some '"'
  | '\\' => some '\\'
  | _ => none

namespace StringSort

/-- The step at a character with nothing pending. -/
def plainStep (sort : StringSort) (c : Char) : StringStep :=
  if c = sort.quote then if sort.multiline then .next (.quotes 1) [] else .closed [] true
  else if sort.escapes && c = '\\' then .next .escape []
  else if sort.multiline && c = '\n' then .next .plain ['\n']
  else if sort.multiline && c = '\r' then .next .return []
  else if isPlain c then .next .plain [c]
  else .fault

/-- The step on the way from a backslash to the next line. -/
def joinStep (sort : StringSort) (passed : Bool) (c : Char) : StringStep :=
  if isBlank c then .next (.join passed) []
  else if c = '\n' then .next (.join true) []
  else if c = '\r' then .next .joinReturn []
  else if passed then sort.plainStep c
  else .fault

/-- A step of the automaton. Up to two quotes may stand right before the three at the end. -/
def step (sort : StringSort) : StringState → Char → StringStep
  | .plain, c => sort.plainStep c
  | .escape, c =>
    if c = 'u' then .next (.codePoint 4 0) []
    else if c = 'U' then .next (.codePoint 8 0) []
    else match simpleEscape? c with
      | some value => .next .plain [value]
      | none => if sort.multiline then sort.joinStep false c else .fault
  | .codePoint left value, c =>
    match hexValue? c with
    | none => .fault
    | some d =>
      let value := 16 * value + d
      if 1 < left then .next (.codePoint (left - 1) value) []
      else if value.isValidChar then .next .plain [Char.ofNat value]
      else .fault
  | .return, c => if c = '\n' then .next .plain ['\n'] else .fault
  | .join passed, c => sort.joinStep passed c
  | .joinReturn, c => if c = '\n' then .next (.join true) [] else .fault
  | .quotes n, c =>
    if c = sort.quote then
      if n < 4 then .next (.quotes (n + 1)) [] else .closed [sort.quote, sort.quote] true
    else if 3 ≤ n then .closed (List.replicate (n - 3) sort.quote) false
    else (sort.plainStep c).after (List.replicate n sort.quote)

/-- The value of a string whose opening quotes have been read, and what follows it. The characters
of the value are gathered last first. -/
def run (sort : StringSort) : StringState → (value : List Char) → List Char →
    Except Fault (String × List Char)
  | .quotes n, value, [] =>
    if 3 ≤ n then .ok (String.ofList (value.reverse ++ List.replicate (n - 3) sort.quote), [])
    else .error .malformed
  | _, _, [] => .error .malformed
  | state, value, c :: cs =>
    match sort.step state c with
    | .next state' chars => sort.run state' (chars.reverse ++ value) cs
    | .closed chars included =>
      .ok (String.ofList (value.reverse ++ chars), if included then cs else c :: cs)
    | .fault => .error .malformed

end StringSort

/-! ### Dates and times -/

/-- The number of the given count of digits, and what follows them. -/
def number? (count : Nat) (cs : List Char) : Option (Nat × List Char) :=
  let ds := cs.take count
  if ds.length = count && ds.all Char.isDigit then some (Number.ofDigits ds, cs.drop count)
  else none

/-- The number of two digits between two bounds, and what follows it. -/
def numberIn? (low high : Nat) (cs : List Char) : Option (Nat × List Char) :=
  (number? 2 cs).filter fun (n, _) => low ≤ n && n ≤ high

def daysInMonth (year month : Nat) : Nat :=
  if month = 2 then if year % 4 = 0 && (year % 100 ≠ 0 || year % 400 = 0) then 29 else 28
  else if month = 4 || month = 6 || month = 9 || month = 11 then 30
  else 31

/-- What follows this character. -/
def after? (c : Char) : List Char → Option (List Char)
  | d :: cs => if d = c then some cs else none
  | [] => none

/-- What follows a month and a day of the year. -/
def skipMonthAndDay? (year : Nat) (cs : List Char) : Option (List Char) := do
  let (month, cs) ← numberIn? 1 12 cs
  let (_, cs) ← numberIn? 1 (daysInMonth year month) (← after? '-' cs)
  return cs

/-- What follows the minutes and seconds of a time. -/
def skipMinutes? (cs : List Char) : Option (List Char) := do
  let (_, cs) ← numberIn? 0 59 cs
  let (_, cs) ← numberIn? 0 60 (← after? ':' cs)
  return match cs with
    | '.' :: d :: rest => if d.isDigit then rest.dropWhile Char.isDigit else cs
    | _ => cs

/-- What follows the hour of a time and its colon, if a time begins here. -/
def skipHour? (cs : List Char) : Option (List Char) := do
  after? ':' (← numberIn? 0 23 cs).2

/-- What follows the distance from universal time, which may be missing. -/
def skipOffset? : List Char → Option (List Char)
  | c :: cs =>
    if c = 'Z' ∨ c = 'z' then some cs
    else if c = '+' ∨ c = '-' then do return (← numberIn? 0 59 (← skipHour? cs)).2
    else some (c :: cs)
  | [] => some []

/-- What follows the time behind a date, which may be missing. -/
def skipTimeOfDate? : List Char → Option (List Char)
  | c :: cs =>
    if c = 'T' ∨ c = 't' ∨ c = ' ' then
      match skipHour? cs with
      | some rest => do skipOffset? (← skipMinutes? rest)
      | none => some (c :: cs)
    else some (c :: cs)
  | [] => some []

/-- What follows a date or a time. Without a value, none begins here; a fault is one that begins
and does not go on as it should. -/
def skipMoment (cs : List Char) : Except Fault (Option (List Char)) :=
  let orFault : Option (List Char) → Except Fault (Option (List Char))
    | some rest => .ok (some rest)
    | none => .error .malformed
  match number? 4 cs with
  | some (year, '-' :: rest) => orFault (do skipTimeOfDate? (← skipMonthAndDay? year rest))
  -- four digits without a hyphen are the start of a number
  | _ =>
    match skipHour? cs with
    | some rest => orFault (skipMinutes? rest)
    | none => .ok none

/-! ### Numbers -/

namespace Reader

def fail {α : Type} : Reader α :=
  throw .malformed

/-- The next character, which stays ahead. -/
def ahead? : Reader (Option Char) :=
  return (← get).head?

/-- Drop the next character. -/
def drop : Reader Unit :=
  modify List.tail

/-- Read this character. -/
def exactly (c : Char) : Reader Unit := do
  match ← get with
  | d :: rest => if d = c then set rest else fail
  | [] => fail

/-- Read this word. -/
def word (w : String) : Reader Unit :=
  w.toList.forM exactly

/-- The digits ahead, with single underscores between them that do not count. The flag says that
none has been read yet. -/
def digitsFrom (isDigit : Char → Bool) : (first : Bool) → List Char →
    Except Fault (List Char × List Char)
  | first, '_' :: d :: cs =>
    if first || !isDigit d then .error .malformed
    else (digitsFrom isDigit false cs).map fun (ds, rest) => (d :: ds, rest)
  | first, c :: cs =>
    if isDigit c then (digitsFrom isDigit false cs).map fun (ds, rest) => (c :: ds, rest)
    else if first || c = '_' then .error .malformed
    else .ok ([], c :: cs)
  | first, [] => if first then .error .malformed else .ok ([], [])

/-- Digits, of which there is at least one. -/
def digits (isDigit : Char → Bool) : Reader (List Char) := do
  let (ds, rest) ← digitsFrom isDigit true (← get)
  set rest
  return ds

/-- The sign ahead, if there is one. -/
def sign : Reader (List Char) := do
  match ← ahead? with
  | some c =>
    if c = '+' ∨ c = '-' then do
      drop
      return [c]
    else return []
  | none => return []

/-- The digits of a whole number. A zero is its only digit. -/
def wholeDigits : Reader (List Char) := do
  if (← ahead?) = some '0' then
    drop
    return ['0']
  else digits Char.isDigit

/-- The exponent ahead, if there is one. -/
def exponent : Reader (List Char) := do
  match ← ahead? with
  | some c =>
    if c = 'e' ∨ c = 'E' then do
      drop
      return 'e' :: ((← sign) ++ (← digits Char.isDigit))
    else return []
  | none => return []

/-- The fraction ahead with its point, if there is one. -/
def fraction : Reader (List Char) := do
  if (← ahead?) = some '.' then
    drop
    return '.' :: (← digits Char.isDigit)
  else return []

/-- An integer in another base. It has no sign, and is kept within 64 bits. -/
def integerInBase (base : Nat) : Reader Value := do
  let ds ← digits fun c => ((hexValue? c).map (decide <| · < base)).getD false
  let n := ds.foldl (fun n d => base * n + (hexValue? d).getD 0) 0
  if (n : Int) ≤ Int64.maxValue.toInt then return .integer n else fail

/-- An integer in base ten. -/
def decimalInteger (signed ds : List Char) : Reader Value := do
  let magnitude : Int := Number.ofDigits ds
  let n := if signed = ['-'] then -magnitude else magnitude
  if Int64.minValue.toInt ≤ n ∧ n ≤ Int64.maxValue.toInt then return .integer n else fail

/-- A number that is no date or time. A float that is too large is a fault, but not one that is too
small. -/
def plainNumber : Reader Value := do
  match ← get with
  | '0' :: 'x' :: rest => do
    set rest
    integerInBase 16
  | '0' :: 'o' :: rest => do
    set rest
    integerInBase 8
  | '0' :: 'b' :: rest => do
    set rest
    integerInBase 2
  | _ =>
    let signed ← sign
    if (← ahead?) = some 'i' then
      word "inf"
      return .float (if signed = ['-'] then -1 / 0 else 1 / 0)
    else if (← ahead?) = some 'n' then
      word "nan"
      return .float (0 / 0)
    else
      let whole ← wholeDigits
      let rest := (← fraction) ++ (← exponent)
      if rest.isEmpty then decimalInteger signed whole
      else match Number.read? (signed ++ whole ++ rest) with
        -- the word for infinity was read above, so this one is too large
        | some x => if x.isInf && 0 < x then fail else return .float x
        | none => fail

/-- A number, date or time. -/
def number : Reader Value := do
  match ← skipMoment (← get) with
  | some rest =>
    set rest
    return .moment
  | none => plainNumber

/-! ### Keys and strings -/

def blanks : Reader Unit :=
  modify (·.dropWhile isBlank)

/-- A string of a sort, whose opening quotes have been read. -/
def stringRest (sort : StringSort) : Reader String := do
  let (s, rest) ← sort.run .plain [] (← get)
  set rest
  return s

/-- A string, of which the first quote is ahead. An end of line right behind three quotes does not
count. -/
def string : Reader String := do
  match ← get with
  | '"' :: '"' :: '"' :: rest => do
    set ((lineEnd? rest).getD rest)
    stringRest ⟨'"', true, true⟩
  | '\'' :: '\'' :: '\'' :: rest => do
    set ((lineEnd? rest).getD rest)
    stringRest ⟨'\'', true, false⟩
  | '"' :: rest => do
    set rest
    stringRest ⟨'"', false, true⟩
  | '\'' :: rest => do
    set rest
    stringRest ⟨'\'', false, false⟩
  | _ => fail

/-- A part of a key: a string on one line, or bare characters. -/
def keyPart : Reader String := do
  match ← get with
  | '"' :: rest => do
    set rest
    stringRest ⟨'"', false, true⟩
  | '\'' :: rest => do
    set rest
    stringRest ⟨'\'', false, false⟩
  | cs =>
    let name := cs.takeWhile isBare
    if name.isEmpty then fail
    set (cs.dropWhile isBare)
    return String.ofList name

/-- A key: the parts before the last, and the last. At most so many parts are read. -/
def key : (room : Nat) → Reader (List String × String)
  | 0 => fail
  | room + 1 => do
    blanks
    let part ← keyPart
    blanks
    if (← ahead?) = some '.' then
      drop
      let (path, last) ← key room
      return (part :: path, last)
    else return ([], part)

/-! ### Values -/

/-- Blank characters, ends of lines and comments. -/
def lines : Reader Unit :=
  modify (skipLines false)

/-- The elements of an array, up to its closing bracket. A comma may follow the last one. -/
def elements (element : Reader Value) : (bound : Nat) → Reader (List Value)
  | 0 => fail
  | bound + 1 => do
    lines
    if (← ahead?) = some ']' then
      drop
      return []
    else
      let v ← element
      lines
      if (← ahead?) = some ',' then
        drop
        return v :: (← elements element bound)
      else
        exactly ']'
        return [v]

/-- The entries of an inline table, up to its closing brace. All are on one line, and no comma
follows the last one. -/
def members (element : Reader Value) : (bound : Nat) → Entries → Reader Entries
  | 0, _ => fail
  | bound + 1, es => do
    let (path, last) ← key nestingLimit
    exactly '='
    blanks
    let v ← element
    blanks
    let es ← es.assign path last v
    if (← ahead?) = some ',' then
      drop
      members element bound es
    else
      exactly '\x7d'
      return es

/-- A value, given how to read one inside it, if it may hold any. -/
def valueAround (bound : Nat) (inner : Option (Reader Value)) : Reader Value := do
  match ← ahead? with
  | some '"' | some '\'' => return .text (← string)
  | some 't' => do
    word "true"
    return .bool true
  | some 'f' => do
    word "false"
    return .bool false
  | some 'i' | some 'n' => plainNumber
  | some '[' =>
    match inner with
    | none => fail
    | some element => do
      drop
      return .array (← elements element bound)
  | some '\x7b' =>
    match inner with
    | none => fail
    | some element => do
      drop
      blanks
      if (← ahead?) = some '\x7d' then
        drop
        return .table .braces []
      else return .table .braces (← members element bound [])
  | some c => if c = '+' ∨ c = '-' ∨ c.isDigit then number else fail
  | none => fail

/-- A value. -/
def value (bound : Nat) : (room : Nat) → Reader Value
  | 0 => valueAround bound none
  | room + 1 => valueAround bound (some (value bound room))

/-! ### Documents -/

/-- What has been read of a document: its entries, and the path of the table that was opened
last. -/
structure Document where
  entries : Entries
  opened : List String

/-- The rest of a line behind a statement. -/
def endOfLine : Reader Unit := do
  modify fun cs => skipComment (cs.dropWhile isBlank)
  match ← get with
  | [] => return ()
  | cs => match lineEnd? cs with
    | some rest => set rest
    | none => fail

/-- A header in brackets, of which the first is ahead. -/
def header (d : Document) : Reader Document := do
  drop
  if (← ahead?) = some '[' then
    drop
    let (path, last) ← key nestingLimit
    word "]]"
    endOfLine
    return ⟨← d.entries.openElement path last, path ++ [last]⟩
  else
    let (path, last) ← key nestingLimit
    exactly ']'
    endOfLine
    return ⟨← d.entries.openTable path last, path ++ [last]⟩

/-- A value given to a key of the opened table. -/
def assignment (bound : Nat) (d : Document) : Reader Document := do
  let (path, last) ← key nestingLimit
  exactly '='
  blanks
  let v ← value bound nestingLimit
  endOfLine
  let entries ← d.entries.alter false (fun _ es => es.assign path last v) d.opened .header
  return { d with entries }

/-- The statements up to the end of the text. -/
def statements (bound : Nat) : (steps : Nat) → Document → Reader Document
  | 0, _ => fail
  | steps + 1, d => do
    lines
    match ← ahead? with
    | none => return d
    | some '[' => statements bound steps (← header d)
    | some _ => statements bound steps (← assignment bound d)

end Reader

/-- The entries of a document. A byte order mark at its start does not count. -/
def read (text : String) : Except Fault Entries := do
  let cs := match text.toList with
    | '\ufeff' :: cs => cs
    | cs => cs
  let bound := cs.length + 1
  let (d, _) ← (Reader.statements bound bound ⟨[], []⟩).run cs
  return d.entries

end Blockwork.Toml
