import Blockwork.Decimal.Reading

/-!
# Reading JSON

A text is read front to back as values of known types, and the first fault decides what is wrong
with it: the text ends too early, it is not JSON at that point, or it is JSON but not of the type.
The text is given by its bytes, because a text that was taken from a link need not be UTF-8.

Containers may be nested up to a limit, the argument `room`. Values nobody asked for are skipped;
they have no such limit. Every loop is bounded by the number of bytes, the argument `bound`.
-/

namespace Blockwork.Json

/-- What is wrong with a text. -/
inductive ReadFault where
  /-- It is not JSON. -/
  | syntaxError
  /-- It is JSON of another type. -/
  | typeError
  /-- It ends too early. -/
  | endOfText
deriving Repr, DecidableEq

/-- A reader of a prefix of the bytes. -/
abbrev Reader := StateT (List UInt8) (Except ReadFault)

/-- How deep containers may be nested. -/
def containerLimit : Nat := 127

/-! ### Characters -/

/-- The byte of an ASCII character. -/
def code (c : Char) : UInt8 :=
  UInt8.ofNat c.toNat

def isBlankByte (b : UInt8) : Bool :=
  b == 32 || b == 10 || b == 9 || b == 13

def isDigitByte (b : UInt8) : Bool :=
  48 ≤ b && b ≤ 57

/-- The number that decimal digits stand for. -/
def numberOfBytes (bs : List UInt8) : Nat :=
  bs.foldl (fun n b => 10 * n + (b.toNat - 48)) 0

/-- The value of a hexadecimal digit. -/
def hexValue? (b : UInt8) : Option Nat :=
  if isDigitByte b then some (b.toNat - 48)
  else if 97 ≤ b && b ≤ 102 then some (b.toNat - 87)
  else if 65 ≤ b && b ≤ 70 then some (b.toNat - 55)
  else none

/-- The number of hexadecimal digits, all of which have to be such. -/
def hexNumber? (bs : List UInt8) : Option Nat :=
  bs.foldl (fun n? b => do return 16 * (← n?) + (← hexValue? b)) (some 0)

namespace Reader

def fail {α : Type} (fault : ReadFault) : Reader α :=
  throw fault

/-- The next byte that is not blank, which stays ahead. -/
def peek? : Reader (Option UInt8) := do
  modify (·.dropWhile isBlankByte)
  return (← get).head?

/-- The next byte that is not blank, which has to be there. -/
def peek : Reader UInt8 := do
  match ← peek? with
  | some b => return b
  | none => fail .endOfText

/-- Drop the next byte. -/
def drop : Reader Unit :=
  modify List.tail

/-- Read these bytes. -/
def exactly : List UInt8 → Reader Unit
  | [] => return ()
  | b :: bs => do
    match ← get with
    | [] => fail .endOfText
    | c :: rest =>
      set rest
      if c = b then exactly bs else fail .syntaxError

/-! ### Strings -/

/-- What the reader of a string is in the middle of. The digits of a code unit are kept as they
come, the last one first. -/
inductive StringState where
  | plain
  | escape
  | unit (high : Option Nat) (digits : List UInt8)
  | secondBackslash (high : Nat)
  | secondLetter (high : Nat)
deriving Repr, DecidableEq

/-- What one byte does to the reader of a string. -/
inductive StringStep where
  | next (state : StringState) (bytes : List UInt8)
  | closed
  | fault
deriving Repr, DecidableEq

/-- The byte that a backslash and this letter stand for. -/
def simpleEscape? (b : UInt8) : Option UInt8 :=
  if b = code '"' then some (code '"')
  else if b = code '\\' then some (code '\\')
  else if b = code '/' then some (code '/')
  else if b = code 'b' then some 8
  else if b = code 'f' then some 12
  else if b = code 'n' then some 10
  else if b = code 'r' then some 13
  else if b = code 't' then some 9
  else none

/-- The UTF-8 form of a code point. -/
def bytesOfCodePoint (n : Nat) : List UInt8 :=
  String.utf8EncodeChar (Char.ofNat n)

/-- The step at the fourth digit of a code unit. Surrogates have to come in pairs. -/
def stepUnit (high : Option Nat) (unit : Nat) : StringStep :=
  match high with
  | some high =>
    if 0xDC00 ≤ unit ∧ unit ≤ 0xDFFF then
      .next .plain (bytesOfCodePoint (0x10000 + (high - 0xD800) * 1024 + (unit - 0xDC00)))
    else .fault
  | none =>
    if 0xDC00 ≤ unit ∧ unit ≤ 0xDFFF then .fault
    else if 0xD800 ≤ unit ∧ unit ≤ 0xDBFF then .next (.secondBackslash unit) []
    else .next .plain (bytesOfCodePoint unit)

def stringStep : StringState → UInt8 → StringStep
  | .plain, b =>
    if b = code '"' then .closed
    else if b = code '\\' then .next .escape []
    else if b < 32 then .fault
    else .next .plain [b]
  | .escape, b =>
    if b = code 'u' then .next (.unit none []) []
    else match simpleEscape? b with
      | some value => .next .plain [value]
      | none => .fault
  | .unit high digits, b =>
    if digits.length < 3 then .next (.unit high (b :: digits)) []
    else match hexNumber? (b :: digits).reverse with
      | some unit => stepUnit high unit
      | none => .fault
  | .secondBackslash high, b =>
    if b = code '\\' then .next (.secondLetter high) [] else .fault
  | .secondLetter high, b =>
    if b = code 'u' then .next (.unit (some high) []) [] else .fault

/-- The bytes of a string, whose opening quote has been read. -/
def stringBytes : StringState → (value : List UInt8) → List UInt8 →
    Except ReadFault (List UInt8 × List UInt8)
  | _, _, [] => .error .endOfText
  | state, value, b :: bs =>
    match stringStep state b with
    | .next state' bytes => stringBytes state' (bytes.reverse ++ value) bs
    | .closed => .ok (value.reverse, bs)
    | .fault => .error .syntaxError

/-- The rest of a string, whose opening quote has been read. It has to be UTF-8. -/
def stringRest : Reader String := do
  let (bytes, rest) ← stringBytes .plain [] (← get)
  set rest
  match String.fromUTF8? ⟨bytes.toArray⟩ with
  | some s => return s
  | none => fail .syntaxError

/-- What the skipper of a string is in the middle of: how many digits of a code unit are left. -/
inductive SkipState where
  | plain
  | escape
  | unit (digits : List UInt8)
deriving Repr, DecidableEq

/-- What follows a string that nobody asked for. Its surrogates may stand alone, and it may have
bytes that are not UTF-8. -/
def skipString : SkipState → List UInt8 → Except ReadFault (List UInt8)
  | _, [] => .error .endOfText
  | .plain, b :: bs =>
    if b = code '"' then .ok bs
    else if b = code '\\' then skipString .escape bs
    else if b < 32 then .error .syntaxError
    else skipString .plain bs
  | .escape, b :: bs =>
    if b = code 'u' then skipString (.unit []) bs
    else if (simpleEscape? b).isSome then skipString .plain bs
    else .error .syntaxError
  | .unit digits, b :: bs =>
    if digits.length < 3 then skipString (.unit (b :: digits)) bs
    else if (hexNumber? (b :: digits)).isSome then skipString .plain bs
    else .error .syntaxError

/-! ### Numbers -/

/-- A number as it is written. -/
inductive Numeral where
  | integer (n : Int)
  | fraction
deriving Repr, DecidableEq

/-- The digits ahead. -/
def digits : Reader (List UInt8) := do
  let bytes ← get
  set (bytes.dropWhile isDigitByte)
  return bytes.takeWhile isDigitByte

/-- The digits of the integer part, without a superfluous zero. -/
def wholeDigits : Reader (List UInt8) := do
  match ← digits with
  | [] => fail (if (← get).isEmpty then .endOfText else .syntaxError)
  | [d] => return [d]
  | d :: ds => if d = code '0' then fail .syntaxError else return d :: ds

/-- The digits behind the point, of which there is at least one. -/
def fractionDigits : Reader (List UInt8) := do
  match ← digits with
  | [] => fail (if (← get).isEmpty then .endOfText else .syntaxError)
  | ds => return ds

/-- The sign and the digits of an exponent. -/
def exponentRest : Reader Int := do
  let negative ← match ← get with
    | b :: rest =>
      if b = code '-' then do set rest; pure true
      else if b = code '+' then do set rest; pure false
      else pure false
    | [] => pure false
  match ← digits with
  | [] => fail (if (← get).isEmpty then .endOfText else .syntaxError)
  | ds => return if negative then -(numberOfBytes ds : Int) else numberOfBytes ds

/-- The greatest significand that is kept; digits beyond it only count. -/
def significandLimit : Nat := UInt64.size - 1

/-- The significand that whole digits lead to, and how many of them did not fit. -/
def significand (ds : List UInt8) : Nat × Nat :=
  ds.foldl (fun (n, dropped) d =>
    let n' := 10 * n + (d.toNat - 48)
    -- once a digit has been dropped, all that follow are
    if dropped = 0 ∧ n' ≤ significandLimit then (n', 0) else (n, dropped + 1)) (0, 0)

/-- The significand with as many more digits as fit, and the number of those. -/
def extend (n : Nat) : List UInt8 → Nat × Nat
  | [] => (n, 0)
  | d :: ds =>
    let n' := 10 * n + (d.toNat - 48)
    if n' ≤ significandLimit then
      let (m, count) := extend n' ds
      (m, count + 1)
    else (n, 0)

/-- Whether a number is too large for a float. -/
def overflows (significand : Nat) (exponent : Int) : Bool :=
  significand != 0 && 0 ≤ exponent &&
    (308 < exponent || (Float.ofNat significand * Number.ofDecimal 1 exponent).isInf)

/-- A number without its sign. It must not be too large for a float. -/
def unsigned (negative : Bool) : Reader Numeral := do
  let whole ← wholeDigits
  let (n, dropped) := significand whole
  let ahead := (← get).head?
  if ahead = some (code '.') then
    drop
    let (m, count) := extend n (← fractionDigits)
    finish m ((dropped : Int) - count)
  else if dropped = 0 ∧ ahead ≠ some (code 'e') ∧ ahead ≠ some (code 'E') then
    if negative then
      -- negative zero is no integer, nor is anything below 64 bits
      return if n = 0 ∨ -(n : Int) < Int64.minValue.toInt then .fraction else .integer (-(n : Int))
    else return .integer n
  else finish n dropped
where
  /-- The exponent, if there is one, and the check of the range. -/
  finish (n : Nat) (exponent : Int) : Reader Numeral := do
    let ahead := (← get).head?
    let exponent ←
      if ahead = some (code 'e') ∨ ahead = some (code 'E') then do
        drop
        pure (exponent + (← exponentRest))
      else pure exponent
    if overflows n exponent then fail .syntaxError
    return .fraction

/-- A number, of which the first byte is ahead. -/
def numeral : Reader Numeral := do
  match ← get with
  | b :: rest =>
    if b = code '-' then do
      set rest
      unsigned true
    else unsigned false
  | [] => fail .endOfText

/-- Skip a number, whatever its size. -/
def skipNumber : Reader Unit := do
  if (← get).head? = some (code '-') then drop
  match ← digits with
  | [] => fail .syntaxError
  | d :: ds => if d = code '0' ∧ ds ≠ [] then fail .syntaxError
  if (← get).head? = some (code '.') then
    drop
    if (← digits).isEmpty then fail .syntaxError
  let ahead := (← get).head?
  if ahead = some (code 'e') ∨ ahead = some (code 'E') then
    drop
    let sign := (← get).head?
    if sign = some (code '+') ∨ sign = some (code '-') then drop
    if (← digits).isEmpty then fail .syntaxError

/-! ### Values of another type -/

/-- Fail at a value that begins like no value of the type. What is wrong with the value itself
counts first. -/
def wrongType {α : Type} : Reader α := do
  match ← get with
  | [] => fail .syntaxError
  | b :: _ =>
    if b = code 'n' then exactly ("null".toList.map code)
    else if b = code 't' then exactly ("true".toList.map code)
    else if b = code 'f' then exactly ("false".toList.map code)
    else if b = code '-' || isDigitByte b then let _ ← numeral
    else if b = code '"' then do
      drop
      let _ ← stringRest
    else if b = code '[' || b = code '{' then pure ()
    else fail .syntaxError
    fail .typeError

/-- A string. -/
def string : Reader String := do
  if (← peek) = code '"' then
    drop
    stringRest
  else wrongType

/-- An integer between two bounds. -/
def integer (low high : Int) : Reader Int := do
  let b ← peek
  if b = code '-' || isDigitByte b then
    match ← numeral with
    | .integer n => if low ≤ n ∧ n ≤ high then return n else fail .typeError
    | .fraction => fail .typeError
  else wrongType

/-- The colon between a key and its value. -/
def colon : Reader Unit := do
  if (← peek) = code ':' then drop else fail .syntaxError

/-! ### Skipping -/

/-- The string that is ahead is skipped. -/
def skipStringAhead : Reader Unit := do
  drop
  set (← skipString .plain (← get))

/-- The key of a member and its colon, to be skipped. -/
def skipKey : Reader Unit := do
  if (← peek) = code '"' then
    skipStringAhead
    colon
  else fail .syntaxError

mutual

/-- Skip a value inside the containers that are open, given by their closing bytes, and then
everything to the end of the outermost. -/
def skipValue : (bound : Nat) → (openContainers : List UInt8) → Reader Unit
  | 0, _ => fail .endOfText
  | bound + 1, containers => do
    let b ← peek
    if b = code 'n' then do
      exactly ("null".toList.map code)
      skipAfter bound containers
    else if b = code 't' then do
      exactly ("true".toList.map code)
      skipAfter bound containers
    else if b = code 'f' then do
      exactly ("false".toList.map code)
      skipAfter bound containers
    else if b = code '-' || isDigitByte b then do
      skipNumber
      skipAfter bound containers
    else if b = code '"' then do
      skipStringAhead
      skipAfter bound containers
    else if b = code '[' then do
      drop
      if (← peek) = code ']' then do
        drop
        skipAfter bound containers
      else skipValue bound (code ']' :: containers)
    else if b = code '{' then do
      drop
      if (← peek) = code '}' then do
        drop
        skipAfter bound containers
      else do
        skipKey
        skipValue bound (code '}' :: containers)
    else fail .syntaxError

/-- Go on behind a value inside the containers that are open. -/
def skipAfter : (bound : Nat) → (openContainers : List UInt8) → Reader Unit
  | 0, _ => fail .endOfText
  | _ + 1, [] => return ()
  | bound + 1, closing :: containers => do
    let b ← peek
    if b = code ',' then do
      drop
      if closing = code '}' then skipKey
      skipValue bound (closing :: containers)
    else if b = closing then do
      drop
      skipAfter bound containers
    else fail .syntaxError

end

/-! ### Containers -/

/-- Go on behind an element: whether there is another one. Nothing but the closing byte or, behind
a first element, a comma and an element may follow. -/
def another (closing : UInt8) (first : Bool) : Reader Bool := do
  let b ← peek
  if b = closing then return false
  else if first then return true
  else if b = code ',' then do
    drop
    if (← peek) = closing then fail .syntaxError else return true
  else fail .syntaxError

/-- The elements of an array, up to its closing bracket. -/
def elements {α : Type} (element : Reader α) : (bound : Nat) → (first : Bool) → Reader (List α)
  | 0, _ => fail .endOfText
  | bound + 1, first => do
    if ← another (code ']') first then
      let a ← element
      return a :: (← elements element bound false)
    else
      drop
      return []

/-- An array. `inner` reads an element inside it. -/
def array {α : Type} (bound room : Nat) (inner : (room : Nat) → Reader α) : Reader (List α) := do
  if (← peek) = code '[' then
    match room with
    | 0 => fail .syntaxError
    | room + 1 =>
      drop
      elements (inner room) bound true
  else wrongType

/-- The members of an object, up to its closing brace: `member` gets each key. The colon has not
been read. -/
def members {α : Type} (member : α → String → Reader α) :
    (bound : Nat) → (first : Bool) → α → Reader α
  | 0, _, _ => fail .endOfText
  | bound + 1, first, a => do
    if ← another (code '}') first then
      if (← peek) = code '"' then
        drop
        let key ← stringRest
        members member bound false (← member a key)
      else fail .syntaxError
    else
      drop
      return a

/-- An object with arbitrary keys. Of a repeated key the last value counts; `put` adds a value. -/
def map {α β : Type} (bound room : Nat) (inner : (room : Nat) → Reader α) (empty : β)
    (put : β → String → α → β) : Reader β := do
  if (← peek) = code '{' then
    match room with
    | 0 => fail .syntaxError
    | room + 1 =>
      drop
      members (fun b key => do
        colon
        return put b key (← inner room)) bound true empty
  else wrongType

/-- A field of a record that is being read: its key, whether it has been read, how its value is
read, and whether it may be missing. -/
structure RecordField (α : Type) where
  key : String
  isSet : α → Bool
  read : (room : Nat) → α → Reader α
  hasDefault : Bool

/-- The value of a field, or of a key that is no field. A field comes only once. -/
def fieldValue {α : Type} (bound room : Nat) (fields : List (RecordField α)) (a : α)
    (key : String) : Reader α := do
  match fields.find? (·.key = key) with
  | none =>
    colon
    skipValue bound []
    return a
  | some field =>
    -- before the colon is looked at
    if field.isSet a then fail .typeError
    colon
    field.read room a

/-- The fields of a record that is written as an array, in their order. -/
def fieldElements {α : Type} (room : Nat) :
    List (RecordField α) → (first : Bool) → α → Reader α
  | [], _, a => do
    if (← peek) ≠ code ']' then fail .syntaxError
    drop
    return a
  | field :: fields, first, a => do
    if (← peek) = code ']' then
      if (field :: fields).all (·.hasDefault) then
        drop
        return a
      else fail .typeError
    else
      let _ ← another (code ']') first
      fieldElements room fields false (← field.read room a)

/-- A record, written as an object or as an array. Fields without a default have to be there. -/
def record {α : Type} (bound room : Nat) (fields : List (RecordField α)) (start : α) :
    Reader α := do
  let b ← peek
  if b = code '{' then
    match room with
    | 0 => fail .syntaxError
    | room + 1 =>
      drop
      let a ← members (fieldValue bound room fields) bound true start
      if fields.all fun f => f.hasDefault || f.isSet a then return a else fail .typeError
  else if b = code '[' then
    match room with
    | 0 => fail .syntaxError
    | room + 1 =>
      drop
      fieldElements room fields true start
  else wrongType

/-- A whole text: a value and nothing behind it. -/
def whole {α : Type} (value : (bound : Nat) → Reader α) (bytes : List UInt8) :
    Except ReadFault α := do
  let (a, rest) ← (value (bytes.length + 1)).run bytes
  if rest.all isBlankByte then return a else throw .syntaxError

end Reader

end Blockwork.Json
