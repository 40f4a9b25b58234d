import Blockwork.Block.Compile
import Blockwork.Block.Placement
import Blockwork.Run.Asset
import Blockwork.Workspace.Grid

/-!
# Workspaces

A workspace is what its user edits: the roots with their places on the canvas, in the order in which
they were placed, and the assets that their programs may draw. Blocks are addressed by identifiers,
which are handed out in increasing order and never again.

Edits addressed to a block that is placed check the height of the whole tree it stands in. A failed
edit gives an error and no workspace, so the workspace before it is the one that goes on.
-/

namespace Blockwork

/-- A tree of blocks and its place on the canvas, over the identifiers of the blocks. -/
structure Root (ι : Type) where
  x : Int64
  y : Int64
  block : Block ι

/-- Roots and assets. -/
structure Workspace where
  registry : Registry
  roots : List (Root BlockId)
  assets : Run.AssetStore
  /-- The identifier that the next new block gets. -/
  nextId : BlockId

namespace Workspace

/-- A workspace with nothing in it. -/
def empty (registry : Registry) : Workspace :=
  ⟨registry, [], [], 1⟩

/-- The trees of the roots. -/
def blocks (ws : Workspace) : List PlacedBlock :=
  ws.roots.map Root.block

/-- How many blocks are placed. -/
def blockCount (ws : Workspace) : Nat :=
  (ws.blocks.map Block.count).foldr (· + ·) 0

/-- All identifiers of placed blocks. -/
def ids (ws : Workspace) : List BlockId :=
  ws.blocks.flatMap Block.ids

/-- The placed block with the identifier. -/
def find? (ws : Workspace) (id : BlockId) : Option PlacedBlock :=
  ws.blocks.findSome? (·.find? id)

/-- How far below its root a placed block stands. -/
def depthOf (ws : Workspace) (id : BlockId) : Except PlacementError Nat :=
  match ws.blocks.findSome? (·.depthOf? id) with
  | some depth => .ok depth
  | none => .error (.blockNotFound id)

/-! ### Blocks as a whole -/

/-- A new block whose slots hold their defaults, and the workspace that has given it its
identifier. The block is not placed yet. -/
def instantiate (ws : Workspace) (type : String) : PlacedBlock × Workspace :=
  let slots := match ws.registry.kind? type with
    | none => []
    | some kind => kind.slots.foldl (fun slots (name, _) =>
        match kind.default? name with
        | none => slots
        | some d => Slots.put (.literal name d.display) slots) []
  (.mk ws.nextId type slots [], { ws with nextId := ws.nextId + 1 })

/-- Place a block as a root. -/
def addRoot (ws : Workspace) (block : PlacedBlock) (x y : Float) :
    Except PlacementError Workspace :=
  if block.shape? ws.registry = some .reporter then .error (.reporterNotAllowed block.type)
  else .ok { ws with roots := ws.roots ++ [⟨snapToGrid x, snapToGrid y, block⟩] }

/-- Move the first root with the identifier. -/
def moveIn? (id : BlockId) (x y : Int64) : List (Root BlockId) → Option (List (Root BlockId))
  | [] => none
  | r :: rest =>
    if r.block.id = id then some ({ r with x, y } :: rest)
    else (moveIn? id x y rest).map (r :: ·)

/-- Move a root. -/
def moveRoot (ws : Workspace) (id : BlockId) (x y : Float) : Except PlacementError Workspace :=
  match moveIn? id (snapToGrid x) (snapToGrid y) ws.roots with
  | some roots => .ok { ws with roots }
  | none => .error (.blockNotFound id)

/-- The first root with the identifier, and the others. -/
def takeRoot? (id : BlockId) : List (Root BlockId) → Option (PlacedBlock × List (Root BlockId))
  | [] => none
  | r :: rest =>
    if r.block.id = id then some (r.block, rest)
    else (takeRoot? id rest).map fun (found, others) => (found, r :: others)

/-- Take a block out from below the roots. -/
def detachIn? (id : BlockId) : List (Root BlockId) → Option (PlacedBlock × List (Root BlockId))
  | [] => none
  | r :: rest =>
    match r.block.detach? id with
    | some (found, block) => some (found, { r with block } :: rest)
    | none => (detachIn? id rest).map fun (found, others) => (found, r :: others)

/-- Take a block out of the workspace, with everything below it. -/
def remove (ws : Workspace) (id : BlockId) : Except PlacementError (PlacedBlock × Workspace) :=
  match (takeRoot? id ws.roots).or (detachIn? id ws.roots) with
  | some (found, roots) => .ok (found, { ws with roots })
  | none => .error (.blockNotFound id)

/-- Remove all blocks and assets. Identifiers go on from where they were. -/
def clear (ws : Workspace) : Workspace :=
  { ws with roots := [], assets := [] }

/-! ### Edits of a placed block -/

/-- Apply an edit to the first block with the identifier below these roots. -/
def editIn? {β : Type} (id : BlockId)
    (edit : PlacedBlock → Except PlacementError (PlacedBlock × β)) :
    List (Root BlockId) → Option (Except PlacementError (List (Root BlockId) × β))
  | [] => none
  | r :: rest =>
    match r.block.editAt? id edit with
    | some result => some (result.map fun (block, x) => ({ r with block } :: rest, x))
    | none => (editIn? id edit rest).map fun result => result.map fun (c, x) => (r :: c, x)

/-- Apply an edit to a placed block. It gives a value besides the edited block. -/
def editBlock {β : Type} (ws : Workspace) (id : BlockId)
    (edit : PlacedBlock → Except PlacementError (PlacedBlock × β)) :
    Except PlacementError (Workspace × β) :=
  match editIn? id edit ws.roots with
  | none => .error (.blockNotFound id)
  | some result => result.map fun (roots, x) => ({ ws with roots }, x)

/-- Apply an edit to a placed block. -/
def modifyBlock (ws : Workspace) (id : BlockId)
    (edit : PlacedBlock → Except PlacementError PlacedBlock) : Except PlacementError Workspace :=
  (ws.editBlock id fun b => (edit b).map (·, ())).map Prod.fst

/-- Write a text in a slot. -/
def setLiteral (ws : Workspace) (id : BlockId) (slot text : String) :
    Except PlacementError Workspace :=
  ws.modifyBlock id (·.setLiteral ws.registry slot text)

/-- Put a reporter in a slot. -/
def insertReporter (ws : Workspace) (id : BlockId) (slot : String) (reporter : PlacedBlock) :
    Except PlacementError Workspace := do
  checkHeight (← ws.depthOf id) reporter.height
  ws.modifyBlock id (·.insertReporter ws.registry slot reporter)

/-- Empty a slot. The answer has what was in it. -/
def clearSlot (ws : Workspace) (id : BlockId) (slot : String) :
    Except PlacementError (Workspace × Option (Slot PlacedBlock)) :=
  ws.editBlock id fun b => .ok (b.clearSlot slot, Slots.get? b.slots slot)

/-- Add a child after the others. -/
def pushChild (ws : Workspace) (id : BlockId) (child : PlacedBlock) :
    Except PlacementError Workspace := do
  checkHeight (← ws.depthOf id) child.height
  ws.modifyBlock id (·.pushChild ws.registry child)

/-- Add a child before the one at the index. -/
def insertChild (ws : Workspace) (id : BlockId) (index : Nat) (child : PlacedBlock) :
    Except PlacementError Workspace := do
  checkHeight (← ws.depthOf id) child.height
  ws.modifyBlock id (·.insertChild ws.registry index child)

/-- Take out the child at the index. -/
def removeChild (ws : Workspace) (id : BlockId) (index : Nat) :
    Except PlacementError (Workspace × PlacedBlock) :=
  ws.editBlock id fun b => (b.removeChild index).map fun (child, rest) => (rest, child)

/-- Move the child at one index to another. -/
def moveChild (ws : Workspace) (id : BlockId) (source target : Nat) :
    Except PlacementError Workspace :=
  ws.modifyBlock id (·.moveChild source target)

/-! ### Texts -/

/-- The program of the workspace. -/
def compile (ws : Workspace) : Compiled :=
  compileRoots ws.registry ws.blocks

end Workspace

end Blockwork
