/-!
# TOML values

The values of the configuration language TOML, and how the statements of a document add to a table.
A table remembers how it came to be (`Origin`), because that decides what may be added to it later:
what has been opened by a header or written between braces is complete in that respect, while a
table that was only passed on the way to another one may still be opened.

A statement that would define something twice gives a fault, and so does one that goes on below a
value that is no table.
-/

namespace Blockwork.Toml

/-- Why a text cannot be used. -/
inductive Fault where
  /-- It is not TOML. -/
  | malformed
  /-- A key is defined twice. -/
  | duplicateKey (key : String)
  /-- A path goes on below a value that is no table. -/
  | notATable (key : String)
  | wrongType
  | unknownKey (key : String)
  | missingKey (key : String)
deriving Repr, DecidableEq

def Fault.message : Fault → String
  | malformed => "the text is not TOML"
  | duplicateKey key => s!"key '{key}' is defined twice"
  | notATable key => s!"key '{key}' is no table"
  | wrongType => "a value has the wrong type"
  | unknownKey key => s!"key '{key}' is unknown"
  | missingKey key => s!"key '{key}' is missing"

/-- How a table came to be. -/
inductive Origin where
  /-- Opened by a header of its own. -/
  | header
  /-- On the way of a header to a table below. -/
  | passed
  /-- On the way of a key with dots. -/
  | dotted
  /-- Written between braces. -/
  | braces
deriving Repr, DecidableEq

/-- A value. -/
inductive Value where
  | text (s : String)
  | integer (n : Int)
  | float (x : Float)
  | bool (b : Bool)
  /-- A date, a time, or both. -/
  | moment
  | array (elements : List Value)
  | table (origin : Origin) (entries : List (String × Value))
  /-- An array to which headers in double brackets add tables. -/
  | tables (elements : List (List (String × Value)))

/-- The entries of a table, in the order in which they were written. -/
abbrev Entries := List (String × Value)

namespace Entries

/-- The value of a key. -/
def get? (es : Entries) (key : String) : Option Value :=
  List.lookup key es

/-- The entries with the value of a key they have replaced. -/
def set (es : Entries) (key : String) (value : Value) : Entries :=
  es.map fun (k, v) => if k = key then (k, value) else (k, v)

/-- The entries with one more at the end. -/
def add (es : Entries) (key : String) (value : Value) : Entries :=
  es ++ [(key, value)]

/-- Change the table at the end of a path. Tables on the way are made as they are needed, and of an
array of tables the last one is meant. A key with dots does not enter a table with a header of its
own. -/
def alter (dotted : Bool) (change : Origin → Entries → Except Fault Entries) :
    (path : List String) → Origin → Entries → Except Fault Entries
  | [], origin, es => change origin es
  | key :: path, _, es =>
    match es.get? key with
    | none => do
      let origin := if dotted then .dotted else .passed
      return es.add key (.table origin (← alter dotted change path origin []))
    | some (.table origin inner) => do
      if origin = .braces then throw (.notATable key)
      -- a header has said all there is to say on that table
      if dotted && origin = .header then throw (.duplicateKey key)
      return es.set key (.table origin (← alter dotted change path origin inner))
    | some (.tables elements) => do
      let inner ← alter dotted change path .header (elements.getLastD [])
      return es.set key (.tables (elements.dropLast ++ [inner]))
    | some _ => throw (.notATable key)

/-- Give a value to a key. With dots in it, the key leads into tables that such keys have made, and
into no others. -/
def assign (es : Entries) (path : List String) (key : String) (value : Value) :
    Except Fault Entries :=
  es.alter true (fun origin es => do
    -- tables that headers have passed are not open to keys with dots
    if path ≠ [] && origin ≠ .dotted then throw (.duplicateKey key)
    if (es.get? key).isSome then throw (.duplicateKey key)
    return es.add key value) path .header

/-- Open the table of a header. A table that headers have only passed so far may be opened. -/
def openTable (es : Entries) (path : List String) (key : String) : Except Fault Entries :=
  es.alter false (fun _ es =>
    match es.get? key with
    | none => .ok (es.add key (.table .header []))
    | some (.table .passed inner) => .ok (es.set key (.table .header inner))
    | some _ => .error (.duplicateKey key)) path .header

/-- Open a further table in the array of a header in double brackets. -/
def openElement (es : Entries) (path : List String) (key : String) : Except Fault Entries :=
  es.alter false (fun _ es =>
    match es.get? key with
    | none => .ok (es.add key (.tables [[]]))
    | some (.tables elements) => .ok (es.set key (.tables (elements ++ [[]])))
    | some _ => .error (.duplicateKey key)) path .header

end Entries

/-! ### Reading values of known types -/

namespace Value

def toText : Value → Except Fault String
  | text s => .ok s
  | _ => .error .wrongType

def toBool : Value → Except Fault Bool
  | bool b => .ok b
  | _ => .error .wrongType

/-- An integer that is not negative. -/
def toNat : Value → Except Fault Nat
  | integer (.ofNat n) => .ok n
  | _ => .error .wrongType

/-- A float, which may be written as an integer. -/
def toFloat : Value → Except Fault Float
  | float x => .ok x
  | integer n => .ok (Float.ofInt n)
  | _ => .error .wrongType

/-- An array, given how to read an element of it. -/
def toList {α : Type} (element : Value → Except Fault α) : Value → Except Fault (List α)
  | array elements => elements.mapM element
  | tables elements => elements.mapM fun es => element (.table .header es)
  | _ => .error .wrongType

/-- A field of a record: its key, and how its value is put into the record. -/
structure Field (α : Type) where
  key : String
  put : Value → α → Except Fault α

/-- The record whose fields are given by a table, or in their order by an array. A key that is no
field is a fault if the record is closed, and is skipped otherwise; in an array, elements beyond the
last field are skipped. -/
def toRecord {α : Type} (fields : List (Field α)) (closed : Bool) (start : α) :
    Value → Except Fault α
  | table _ entries =>
    entries.foldlM (fun a (key, value) =>
      match fields.find? (·.key = key) with
      | some field => field.put value a
      | none => if closed then throw (.unknownKey key) else return a) start
  | array elements => inOrder elements
  | tables elements => inOrder (elements.map (.table .header))
  | _ => .error .wrongType
where
  /-- The fields from values in their order. -/
  inOrder (values : List Value) : Except Fault α :=
    (fields.zip values).foldlM (fun a (field, value) => field.put value a) start

end Value

end Blockwork.Toml
