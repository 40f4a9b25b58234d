import Blockwork.Json.Reading
import Blockwork.Snapshot.Basic

/-!
# Reading snapshots

The JSON text of a snapshot gives a snapshot or a fault of reading. Roots, assets, slots and
children may be missing, and members of no meaning are skipped.
-/

namespace Blockwork

open Json

/-- Why a saved workspace cannot be used. -/
inductive SnapshotError where
  | malformed (fault : ReadFault)
  | unsupportedVersion (version : UInt32)
  | badAsset (name : String) (reason : Base64.DecodeError)
  /-- A tree that breaks a rule of placement, and where. -/
  | misplaced (path : String) (problem : PlacementError)
  | badToken (reason : Base64.DecodeError)
deriving Repr, DecidableEq

namespace SnapshotError

/-- What a fault of reading is called. -/
def readFaultMessage : ReadFault → String
  | .syntaxError => "the text is not JSON"
  | .typeError => "the JSON text is no snapshot"
  | .endOfText => "the text ends too early"

def message : SnapshotError → String
  | malformed fault => s!"malformed snapshot: {readFaultMessage fault}"
  | unsupportedVersion v =>
    s!"unsupported snapshot version {v.toNat} (expected {Snapshot.currentVersion.toNat})"
  | badAsset name reason => s!"asset '{name}' is not valid base64: {reason.message}"
  | misplaced path problem => s!"at {path}: {problem.message}"
  | badToken reason => s!"malformed share token: {reason.message}"

end SnapshotError

namespace Snapshot

open Reader

/-- The parts of a block that have been read. -/
structure BlockParts where
  type : Option String
  slots : Option (List (Slot (Block Unit)))
  children : Option (List (Block Unit))

/-- The fields of a block, given how to read a block inside it. -/
def blockFields (bound : Nat) (block : (room : Nat) → Reader (Block Unit)) :
    List (RecordField BlockParts) :=
  [{ key := "type"
     isSet := (·.type.isSome)
     read := fun _ p => return { p with type := some (← string) }
     hasDefault := false },
   { key := "slots"
     isSet := (·.slots.isSome)
     read := fun room p => do
       let slots ← map bound room slot [] fun slots name make => Slots.put (make name) slots
       return { p with slots := some slots }
     hasDefault := true },
   { key := "children"
     isSet := (·.children.isSome)
     read := fun room p => return { p with children := some (← array bound room block) }
     hasDefault := true }]
where
  /-- What is in a slot: an object whose one member is a literal or a reporter. -/
  slot (room : Nat) : Reader (String → Slot (Block Unit)) := do
    let b ← peek
    if b = code '"' then
      -- a bare variant name would need no value, and both variants have one
      let _ ← string
      fail .typeError
    else if b ≠ code '{' then fail .syntaxError
    else match room with
      | 0 => fail .syntaxError
      | room + 1 =>
        drop
        if (← peek) ≠ code '"' then fail .syntaxError
        let key ← string
        let make ←
          if key = "literal" then do
            colon
            let text ← string
            pure fun name => Slot.literal name text
          else if key = "reporter" then do
            colon
            let b ← block room
            pure fun name => Slot.reporter name b
          else fail .typeError
        if (← peek) = code '}' then drop else fail .syntaxError
        return make

/-- A block. Every block inside another takes room, so `levels` of them suffice. -/
def block (bound : Nat) : (levels room : Nat) → Reader (Block Unit)
  | 0, _ => fail .syntaxError
  | levels + 1, room => do
    let p ← record bound room (blockFields bound (block bound levels)) ⟨none, none, none⟩
    return .mk () (p.type.getD "") (p.slots.getD []) (p.children.getD [])

/-- The parts of a root that have been read. -/
structure RootParts where
  x : Option Int64
  y : Option Int64
  block : Option (Block Unit)

/-- A coordinate. -/
def coordinate : Reader Int64 :=
  return Int64.ofInt (← integer Int64.minValue.toInt Int64.maxValue.toInt)

/-- A root. -/
def root (bound room : Nat) : Reader (Root Unit) := do
  let fields : List (RecordField RootParts) :=
    [{ key := "x"
       isSet := (·.x.isSome)
       read := fun _ p => return { p with x := some (← coordinate) }
       hasDefault := false },
     { key := "y"
       isSet := (·.y.isSome)
       read := fun _ p => return { p with y := some (← coordinate) }
       hasDefault := false },
     { key := "block"
       isSet := (·.block.isSome)
       read := fun room p =>
         return { p with block := some (← block bound (containerLimit + 1) room) }
       hasDefault := false }]
  let p ← record bound room fields ⟨none, none, none⟩
  return ⟨p.x.getD 0, p.y.getD 0, p.block.getD (.bare () "")⟩

/-- The parts of a snapshot that have been read. -/
structure Parts where
  version : Option UInt32
  roots : Option (List (Root Unit))
  assets : Option (List (String × String))

/-- A snapshot. -/
def reader (bound : Nat) : Reader Snapshot := do
  let fields : List (RecordField Parts) :=
    [{ key := "version"
       isSet := (·.version.isSome)
       read := fun _ p =>
         return { p with version := some (UInt32.ofNat (← integer 0 (UInt32.size - 1)).toNat) }
       hasDefault := false },
     { key := "roots"
       isSet := (·.roots.isSome)
       read := fun room p => return { p with roots := some (← array bound room (root bound)) }
       hasDefault := true },
     { key := "assets"
       isSet := (·.assets.isSome)
       read := fun room p => do
         let assets ← map bound room (fun _ => string) [] fun saved name data =>
           putNamed name data saved
         return { p with assets := some assets }
       hasDefault := true }]
  let p ← record bound containerLimit fields ⟨none, none, none⟩
  return ⟨p.version.getD 0, p.roots.getD [], p.assets.getD []⟩

/-- The snapshot of a JSON text that is given by its bytes. -/
def ofBytes (bytes : List UInt8) : Except SnapshotError Snapshot :=
  (whole reader bytes).mapError .malformed

/-- The snapshot of a JSON text. -/
def ofText (text : String) : Except SnapshotError Snapshot :=
  ofBytes text.toUTF8.toList

/-- The snapshot of a share token, which may have blank characters around it. -/
def ofShareToken (token : String) : Except SnapshotError Snapshot :=
  match Base64.decode .link (Text.trim token).toUTF8.toList with
  | .ok bytes => ofBytes bytes
  | .error reason => .error (.badToken reason)

end Snapshot

end Blockwork
