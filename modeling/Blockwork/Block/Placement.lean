import Blockwork.Block.Tree

/-!
# Placing blocks

The rules of placement, and the edits of one block that obey them. A slot holds a reporter, or a
text; only a container has children, and no child is a reporter; a block of a known type has no
slots but those of its type; and no way down from a root is longer than `heightLimit`. An edit
that would break a rule gives the rule it would break instead.
-/

namespace Blockwork

/-- How many blocks may stand on one way down, the root included. -/
def heightLimit : Nat := 32

/-- What identifies a block in its workspace. -/
abbrev BlockId := Nat

/-- A block that can be addressed. -/
abbrev PlacedBlock := Block BlockId

/-- The rule that an edit would break, or what it does not find. -/
inductive PlacementError where
  | unknownType (type : String)
  | notAReporter (type : String)
  | reporterNotAllowed (type : String)
  | notAContainer (type : String)
  | unknownSlot (type slot : String)
  | blockNotFound (id : BlockId)
  | indexOutOfRange (index length : Nat)
  | tooDeep
deriving Repr, DecidableEq

def PlacementError.message : PlacementError → String
  | unknownType t => s!"unknown block type: {t}"
  | notAReporter t => s!"only reporter blocks fit in an input slot, not '{t}'"
  | reporterNotAllowed t => s!"reporter block '{t}' can only be placed in an input slot"
  | notAContainer t => s!"block '{t}' cannot hold child blocks"
  | unknownSlot t s => s!"block '{t}' has no input slot '{s}'"
  | blockNotFound id => s!"no block #{id} in the workspace"
  | indexOutOfRange i n => s!"child index {i} out of range (block has {n} children)"
  | tooDeep => s!"blocks cannot be nested more than {heightLimit} deep"

/-- Whether a tree of this height fits below a block at this depth. -/
def checkHeight (depth height : Nat) : Except PlacementError Unit :=
  if heightLimit < depth + 1 + height then .error .tooDeep else .ok ()

namespace Block

variable {ι : Type}

/-- The shape of a block, if its type is known. -/
def shape? (r : Registry) (b : Block ι) : Option Shape :=
  r.shape? b.type

/-- Whether the type of the block is known to have the slot. -/
def checkSlot (r : Registry) (b : Block ι) (slot : String) : Except PlacementError Unit :=
  match r.kind? b.type with
  | none => .error (.unknownType b.type)
  | some kind => if kind.hasSlot slot then .ok () else .error (.unknownSlot b.type slot)

/-- The block with other slots. -/
def withSlots (b : Block ι) (slots : List (Slot (Block ι))) : Block ι :=
  mk b.id b.type slots b.children

/-- The block with other children. -/
def withChildren (b : Block ι) (children : List (Block ι)) : Block ι :=
  mk b.id b.type b.slots children

/-- Put a slot in its place, whatever the rules say. -/
def putSlot (b : Block ι) (slot : Slot (Block ι)) : Block ι :=
  b.withSlots (Slots.put slot b.slots)

/-- Write a text in a slot. -/
def setLiteral (r : Registry) (b : Block ι) (slot text : String) :
    Except PlacementError (Block ι) := do
  b.checkSlot r slot
  return b.putSlot (.literal slot text)

/-- Put a reporter in a slot. -/
def insertReporter (r : Registry) (b : Block ι) (slot : String) (reporter : Block ι) :
    Except PlacementError (Block ι) := do
  b.checkSlot r slot
  if reporter.shape? r ≠ some .reporter then
    throw (.notAReporter reporter.type)
  checkHeight 0 reporter.height
  return b.putSlot (.reporter slot reporter)

/-- Empty a slot. -/
def clearSlot (b : Block ι) (slot : String) : Block ι :=
  b.withSlots (Slots.erase b.slots slot)

/-- Whether a block may become a child. -/
def checkChild (r : Registry) (b child : Block ι) : Except PlacementError Unit := do
  if b.shape? r ≠ some .container then
    throw (.notAContainer b.type)
  if child.shape? r = some .reporter then
    throw (.reporterNotAllowed child.type)
  checkHeight 0 child.height

/-- Add a child after the others. -/
def pushChild (r : Registry) (b child : Block ι) : Except PlacementError (Block ι) := do
  b.checkChild r child
  return b.withChildren (b.children ++ [child])

/-- Add a child before the one at the index. -/
def insertChild (r : Registry) (b : Block ι) (index : Nat) (child : Block ι) :
    Except PlacementError (Block ι) := do
  b.checkChild r child
  if b.children.length < index then
    throw (.indexOutOfRange index b.children.length)
  return b.withChildren (b.children.insertIdx index child)

/-- Take out the child at the index. -/
def removeChild (b : Block ι) (index : Nat) : Except PlacementError (Block ι × Block ι) :=
  match b.children[index]? with
  | none => .error (.indexOutOfRange index b.children.length)
  | some child => .ok (child, b.withChildren (b.children.eraseIdx index))

/-- Move the child at one index to another. -/
def moveChild (b : Block ι) (source target : Nat) : Except PlacementError (Block ι) :=
  match b.children[source]? with
  | none => .error (.indexOutOfRange (max source target) b.children.length)
  | some child =>
    if target < b.children.length then
      .ok (b.withChildren ((b.children.eraseIdx source).insertIdx target child))
    else .error (.indexOutOfRange (max source target) b.children.length)

end Block

/-! ### Reaching a block in a tree -/

namespace Block

variable {ε β : Type}

mutual

/-- Apply an edit to the first block with the identifier, if there is one. The edit may fail, and
gives a value besides the edited block. -/
def editAt? (id : BlockId) (edit : PlacedBlock → Except ε (PlacedBlock × β)) :
    PlacedBlock → Option (Except ε (PlacedBlock × β))
  | mk i t slots children =>
    if i = id then some (edit (mk i t slots children))
    else match editSlots? id edit slots with
      | some result => some (result.map fun (s, x) => (mk i t s children, x))
      | none => (editAll? id edit children).map fun result =>
          result.map fun (c, x) => (mk i t slots c, x)

/-- Apply an edit to the first block with the identifier in these slots. -/
def editSlots? (id : BlockId) (edit : PlacedBlock → Except ε (PlacedBlock × β)) :
    List (Slot PlacedBlock) → Option (Except ε (List (Slot PlacedBlock) × β))
  | [] => none
  | .literal n t :: rest => (editSlots? id edit rest).map fun result =>
      result.map fun (s, x) => (.literal n t :: s, x)
  | .reporter n b :: rest =>
    match editAt? id edit b with
    | some result => some (result.map fun (b', x) => (.reporter n b' :: rest, x))
    | none => (editSlots? id edit rest).map fun result =>
        result.map fun (s, x) => (.reporter n b :: s, x)

/-- Apply an edit to the first block with the identifier in these trees. -/
def editAll? (id : BlockId) (edit : PlacedBlock → Except ε (PlacedBlock × β)) :
    List PlacedBlock → Option (Except ε (List PlacedBlock × β))
  | [] => none
  | b :: rest =>
    match editAt? id edit b with
    | some result => some (result.map fun (b', x) => (b' :: rest, x))
    | none => (editAll? id edit rest).map fun result =>
        result.map fun (c, x) => (b :: c, x)

end

/-- The first block with the identifier, and the list without it. -/
def takeChild? (id : BlockId) : List PlacedBlock → Option (PlacedBlock × List PlacedBlock)
  | [] => none
  | b :: rest =>
    if b.id = id then some (b, rest)
    else (takeChild? id rest).map fun (found, others) => (found, b :: others)

/-- The first reporter with the identifier, and the slots without the one it was in. -/
def takeReporter? (id : BlockId) :
    List (Slot PlacedBlock) → Option (PlacedBlock × List (Slot PlacedBlock))
  | [] => none
  | .literal n t :: rest =>
    (takeReporter? id rest).map fun (found, others) => (found, .literal n t :: others)
  | .reporter n b :: rest =>
    if b.id = id then some (b, rest)
    else (takeReporter? id rest).map fun (found, others) => (found, .reporter n b :: others)

mutual

/-- Take the block with the identifier out of the tree below this block: a child of this block, or
else a reporter in its slots, or else one further down. -/
def detach? (id : BlockId) : PlacedBlock → Option (PlacedBlock × PlacedBlock)
  | mk i t slots children =>
    match takeChild? id children with
    | some (found, rest) => some (found, mk i t slots rest)
    | none =>
      match takeReporter? id slots with
      | some (found, rest) => some (found, mk i t rest children)
      | none =>
        match detachSlots? id slots with
        | some (found, rest) => some (found, mk i t rest children)
        | none => (detachAll? id children).map fun (found, rest) => (found, mk i t slots rest)

/-- Take the block out of the trees below the blocks in these slots. -/
def detachSlots? (id : BlockId) :
    List (Slot PlacedBlock) → Option (PlacedBlock × List (Slot PlacedBlock))
  | [] => none
  | .literal n t :: rest =>
    (detachSlots? id rest).map fun (found, others) => (found, .literal n t :: others)
  | .reporter n b :: rest =>
    match detach? id b with
    | some (found, b') => some (found, .reporter n b' :: rest)
    | none => (detachSlots? id rest).map fun (found, others) => (found, .reporter n b :: others)

/-- Take the block out of the trees below these blocks. -/
def detachAll? (id : BlockId) : List PlacedBlock → Option (PlacedBlock × List PlacedBlock)
  | [] => none
  | b :: rest =>
    match detach? id b with
    | some (found, b') => some (found, b' :: rest)
    | none => (detachAll? id rest).map fun (found, others) => (found, b :: others)

end

end Block

end Blockwork
