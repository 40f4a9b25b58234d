import Blockwork.Snapshot.Reading

/-!
# Restoring snapshots

A snapshot is restored as a whole or not at all. Its blocks get new identifiers, each block before
its reporters and those before its children, and every rule of placement is checked on the way. A
block of an unknown type keeps the slots it was saved with.
-/

namespace Blockwork

namespace Snapshot

/-- The state of numbering: the identifier that the next block gets. -/
abbrev Numbering := StateT BlockId (Except SnapshotError)

/-- A rule is broken at a path. -/
def misplaced {α : Type} (path : String) (problem : PlacementError) : Numbering α :=
  throw (.misplaced path problem)

/-- The next identifier. -/
def fresh : Numbering BlockId := do
  let id ← get
  set (id + 1)
  return id

mutual

/-- A saved block with identifiers, at a depth below its root. -/
def rebuild (r : Registry) (path : String) (depth : Nat) : Block Unit → Numbering PlacedBlock
  | .mk _ type slots children => do
    if heightLimit ≤ depth then misplaced path .tooDeep
    -- before the slots, so that identifiers go from the top down
    let id ← fresh
    let slots ← rebuildSlots r path depth type slots
    if !children.isEmpty && r.shape? type ≠ some .container then
      misplaced path (.notAContainer type)
    let children ← rebuildAll r path (depth + 1) 0 children
    return .mk id type slots children

/-- The saved slots of a block of the given type. -/
def rebuildSlots (r : Registry) (path : String) (depth : Nat) (type : String) :
    List (Slot (Block Unit)) → Numbering (List (Slot PlacedBlock))
  | [] => return []
  | slot :: rest => do
    let slotPath := s!"{path}.slots.{slot.name}"
    -- the slots of an unknown type are kept as they are
    if let some kind := r.kind? type then
      if !kind.hasSlot slot.name then misplaced slotPath (.unknownSlot type slot.name)
    let first ← match slot with
      | .literal name text => pure (Slot.literal name text)
      | .reporter name block => do
        if block.shape? r ≠ some .reporter then misplaced slotPath (.notAReporter block.type)
        pure (Slot.reporter name (← rebuild r slotPath (depth + 1) block))
    return first :: (← rebuildSlots r path depth type rest)

/-- The saved children of a block, from the one at an index on. -/
def rebuildAll (r : Registry) (path : String) (depth index : Nat) :
    List (Block Unit) → Numbering (List PlacedBlock)
  | [] => return []
  | child :: rest => do
    let childPath := s!"{path}.children[{index}]"
    if child.shape? r = some .reporter then
      misplaced childPath (.reporterNotAllowed child.type)
    let first ← rebuild r childPath depth child
    return first :: (← rebuildAll r path depth (index + 1) rest)

end

/-- The saved roots, from the one at an index on. -/
def rebuildRoots (r : Registry) (index : Nat) :
    List (Root Unit) → Numbering (List (Root BlockId))
  | [] => return []
  | root :: rest => do
    let path := s!"roots[{index}]"
    if root.block.shape? r = some .reporter then
      misplaced path (.reporterNotAllowed root.block.type)
    let block ← rebuild r path 0 root.block
    let first : Root BlockId :=
      ⟨snapToGrid (Float.ofInt root.x.toInt), snapToGrid (Float.ofInt root.y.toInt), block⟩
    return first :: (← rebuildRoots r (index + 1) rest)

/-- The data of the saved assets. -/
def assetStore : List (String × String) → Except SnapshotError Run.AssetStore
  | [] => .ok []
  | (name, text) :: rest => do
    match Base64.decode .standard text.toUTF8.toList with
    | .error reason => throw (.badAsset name reason)
    | .ok data => return ⟨name, data⟩ :: (← assetStore rest)

end Snapshot

namespace Workspace

/-- The workspace with its content replaced by that of a snapshot. -/
def restore (ws : Workspace) (s : Snapshot) : Except SnapshotError Workspace := do
  if s.version ≠ Snapshot.currentVersion then
    throw (.unsupportedVersion s.version)
  let assets ← Snapshot.assetStore s.assets
  -- only the last line makes a workspace, so a fault leaves none behind
  let (roots, nextId) ← (Snapshot.rebuildRoots ws.registry 0 s.roots).run ws.nextId
  return { ws with roots, assets, nextId }

/-- Replace the content by that of a JSON text. -/
def loadText (ws : Workspace) (text : String) : Except SnapshotError Workspace := do
  ws.restore (← Snapshot.ofText text)

/-- Replace the content by that of a share token. -/
def loadShareToken (ws : Workspace) (token : String) : Except SnapshotError Workspace := do
  ws.restore (← Snapshot.ofShareToken token)

end Workspace

end Blockwork
