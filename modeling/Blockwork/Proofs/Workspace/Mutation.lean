import Mathlib
import Blockwork.Snapshot.Restore
import Blockwork.Proofs.Workspace.Editing

/-!
# Working on a workspace in place

The functions of a workspace give a new workspace or a fault. An editor has one workspace and works
on it in place: its fields are written one after the other, and a fault leaves behind what has been
written by then. So that a failed edit leaves the workspace as it was is a fact about the order of
its checks and its writes.

Here the edits of a block, the edits of a placed block and the operations of a workspace are
mutations, which keep their state when they fail. A child that is moved is first taken out and then
put back, a block that is worked on is put back into the workspace in any case, and a snapshot that
is restored is written field by field. Each mutation comes to what the function gives, and where
that is a fault it leaves its state as it was (`Edit.outcome_acting`, `Edit.outcome_placing`,
`Workspace.outcome_restoring`).
-/

namespace Blockwork

variable {σ ε α : Type}

/-! ### Mutations -/

/-- A computation that works on a state in place. When it fails, the state is what it has made of it
by then. -/
abbrev Mutation (σ ε α : Type) :=
  ExceptT ε (StateM σ) α

/-- A new state takes the place of the old one; if there is a fault instead, the old one stays. -/
def settled (s : σ) : Except ε (σ × α) → Except ε α × σ
  | .ok (s', a) => (.ok a, s')
  | .error e => (.error e, s)

@[simp] theorem settled_ok (s s' : σ) (a : α) :
    settled s (.ok (s', a) : Except ε (σ × α)) = (.ok a, s') := rfl

@[simp] theorem settled_error (s : σ) (e : ε) :
    settled s (.error e : Except ε (σ × α)) = (.error e, s) := rfl

/-- A check looks at the state and leaves it. -/
@[simp] theorem outcome_liftExcept (x : Except ε α) (s : σ) :
    outcome (liftExcept x : Mutation σ ε α) s = (x, s) := by
  cases x <;> rfl

/-! ### A block -/

namespace Block

/-- Take out the child at the index. -/
def takingChild (index : Nat) : Mutation PlacedBlock PlacementError PlacedBlock := do
  let b ← get
  match b.children[index]? with
  | none => throw (.indexOutOfRange index b.children.length)
  | some child =>
    set (b.withChildren (b.children.eraseIdx index))
    return child

/-- Put in a child before the one at the index. -/
def puttingChild (index : Nat) (child : PlacedBlock) : Mutation PlacedBlock PlacementError Unit := do
  let b ← get
  if b.children.length < index then
    throw (.indexOutOfRange index b.children.length)
  set (b.withChildren (b.children.insertIdx index child))

theorem outcome_takingChild (b : PlacedBlock) (index : Nat) :
    outcome (takingChild index) b = settled b ((b.removeChild index).map fun (c, b') => (b', c)) := by
  unfold takingChild removeChild
  rw [outcome_bind_ok (outcome_get b)]
  cases b.children[index]? <;> rfl

theorem outcome_puttingChild (b : PlacedBlock) (index : Nat) (child : PlacedBlock) :
    outcome (puttingChild index child) b =
      if b.children.length < index then (.error (.indexOutOfRange index b.children.length), b)
      else (.ok (), b.withChildren (b.children.insertIdx index child)) := by
  unfold puttingChild
  rw [outcome_bind_ok (outcome_get b)]
  split <;> rfl

end Block

namespace Edit

/-- The edit of a block in place. The block that has come out of it is its value. -/
def acting (r : Registry) : Edit → Mutation PlacedBlock PlacementError (List PlacedBlock)
  | setLiteral slot text => do
    liftExcept ((← get).checkSlot r slot)
    modify (·.putSlot (.literal slot text))
    return []
  | insertReporter slot c => do
    liftExcept ((← get).checkSlot r slot)
    if c.shape? r ≠ some .reporter then
      throw (.notAReporter c.type)
    liftExcept (checkHeight 0 c.height)
    modify (·.putSlot (.reporter slot c))
    return []
  | clearSlot slot => do
    let found := Slots.get? (← get).slots slot
    modify (·.clearSlot slot)
    return (found.bind Slot.block?).toList
  | pushChild c => do
    liftExcept ((← get).checkChild r c)
    modify fun b => b.withChildren (b.children ++ [c])
    return []
  | insertChild index c => do
    liftExcept ((← get).checkChild r c)
    Block.puttingChild index c
    return []
  | removeChild index => do
    let c ← Block.takingChild index
    return [c]
  | moveChild source target => do
    let length := (← get).children.length
    if length ≤ source ∨ length ≤ target then
      throw (.indexOutOfRange (max source target) length)
    -- between these two the block is without the child
    let c ← Block.takingChild source
    Block.puttingChild target c
    return []

/-- **An edit of a block in place** comes to the edited block, or leaves the block as it was. -/
theorem outcome_acting (r : Registry) (e : Edit) (b : PlacedBlock) :
    outcome (e.acting r) b = settled b (e.ofBlock r b) := by
  cases e with
  | setLiteral slot text =>
    rw [acting, ofBlock, Block.setLiteral, outcome_bind_ok (outcome_get b)]
    cases b.checkSlot r slot <;> rfl
  | insertReporter slot c =>
    rw [acting, ofBlock, Block.insertReporter, outcome_bind_ok (outcome_get b)]
    cases b.checkSlot r slot with
    | error problem => rfl
    | ok _ =>
      by_cases hshape : c.shape? r ≠ some .reporter
      · rw [outcome_bind_ok (outcome_liftExcept _ b), if_pos hshape, if_pos hshape]
        rfl
      · rw [outcome_bind_ok (outcome_liftExcept _ b), if_neg hshape, if_neg hshape]
        cases checkHeight 0 c.height <;> rfl
  | clearSlot slot => rfl
  | pushChild c =>
    rw [acting, ofBlock, Block.pushChild, outcome_bind_ok (outcome_get b)]
    cases b.checkChild r c <;> rfl
  | insertChild index c =>
    rw [acting, ofBlock, Block.insertChild, outcome_bind_ok (outcome_get b)]
    cases b.checkChild r c with
    | error problem => rfl
    | ok _ =>
      rw [outcome_bind_ok (outcome_liftExcept _ b), outcome_bind, Block.outcome_puttingChild]
      by_cases hindex : b.children.length < index
      · rw [if_pos hindex, if_pos hindex]
        rfl
      · rw [if_neg hindex, if_neg hindex]
        rfl
  | removeChild index =>
    rw [acting, ofBlock, outcome_bind, Block.outcome_takingChild]
    cases b.removeChild index <;> rfl
  | moveChild source target =>
    rw [acting, ofBlock, outcome_bind_ok (outcome_get b)]
    dsimp only
    by_cases hout : b.children.length ≤ source ∨ b.children.length ≤ target
    · rw [if_pos hout, Block.moveChild_eq_error hout]
      rfl
    obtain ⟨hsource, htarget⟩ := not_or.mp hout
    have hget := List.getElem?_eq_getElem (not_le.mp hsource)
    have htaken : outcome (Block.takingChild source) b
        = (.ok b.children[source], b.withChildren (b.children.eraseIdx source)) := by
      rw [Block.outcome_takingChild, Block.removeChild, hget]
      rfl
    -- one child fewer, so that the target is still within the children or just behind them
    have hroom : ¬ (b.withChildren (b.children.eraseIdx source)).children.length < target := by
      change ¬ (b.children.eraseIdx source).length < target
      rw [List.length_eraseIdx_of_lt (not_le.mp hsource)]
      omega
    rw [if_neg hout, Block.moveChild_eq_ok hget (not_le.mp htarget), outcome_bind_ok htaken,
      outcome_bind, Block.outcome_puttingChild, if_neg hroom]
    rfl

/-- An edit that fails leaves the block as it was. -/
theorem acting_of_fails {r : Registry} {e : Edit} {b : PlacedBlock} {problem : PlacementError}
    (h : e.ofBlock r b = .error problem) : outcome (e.acting r) b = (.error problem, b) := by
  rw [outcome_acting, h]
  rfl

end Edit

/-! ### A placed block -/

namespace Workspace

/-- Work on the first block with the identifier where it stands. What is made of the block is put
back also when the work fails. -/
def onBlock (id : BlockId) (x : Mutation PlacedBlock PlacementError α) :
    Mutation Workspace PlacementError α := do
  let (ws, result) ← liftExcept ((← get).editBlock id fun b =>
    .ok ((outcome x b).2, (outcome x b).1))
  set ws
  liftExcept result

/-- **Working on a block** that is left as it was by a fault leaves the workspace as it was. -/
theorem outcome_onBlock {id : BlockId} {x : Mutation PlacedBlock PlacementError α}
    {edit : PlacedBlock → Except PlacementError (PlacedBlock × α)}
    (h : ∀ b, outcome x b = settled b (edit b)) (ws : Workspace) :
    outcome (onBlock id x) ws = settled ws (ws.editBlock id edit) := by
  unfold onBlock
  rw [outcome_bind_ok (outcome_get ws), editBlock_eq, editBlock_eq]
  cases hlocate : locateIn? id ws.roots with
  | none => rfl
  | some found =>
    obtain ⟨s, b⟩ := found
    dsimp only
    rw [h b]
    cases hedit : edit b with
    | ok result => rfl
    | error problem =>
      -- the block is put back where it was found
      have hback : { ws with roots := s.fill b } = ws := by
        rw [(fill_of_locateIn? hlocate).1]
      exact congrArg (Except.error problem, ·) hback

end Workspace

namespace Edit

/-- The edit of a placed block in place. -/
def placing (id : BlockId) (e : Edit) :
    Mutation Workspace PlacementError (List PlacedBlock) := do
  liftExcept (e.checkRoom (← get) id)
  Workspace.onBlock id (e.acting (← get).registry)

/-- **An edit of a placed block in place** comes to the edited workspace, or leaves the workspace as
it was. -/
theorem outcome_placing (id : BlockId) (e : Edit) (ws : Workspace) :
    outcome (e.placing id) ws = settled ws (e.ofPlaced ws id) := by
  unfold placing
  rw [outcome_bind_ok (outcome_get ws), ofPlaced_eq]
  cases e.checkRoom ws id with
  | error problem => rfl
  | ok _ =>
    rw [outcome_bind_ok (outcome_liftExcept _ ws), outcome_bind_ok (outcome_get ws)]
    exact Workspace.outcome_onBlock (outcome_acting ws.registry e) ws

end Edit

/-! ### Workspaces -/

namespace Workspace

/-- Place a block as a root in place. -/
def adding (block : PlacedBlock) (x y : Float) : Mutation Workspace PlacementError Unit := do
  if block.shape? (← get).registry = some .reporter then
    throw (.reporterNotAllowed block.type)
  modify fun ws => { ws with roots := ws.roots ++ [⟨snapToGrid x, snapToGrid y, block⟩] }

/-- Move a root in place. -/
def moving (id : BlockId) (x y : Float) : Mutation Workspace PlacementError Unit := do
  match moveIn? id (snapToGrid x) (snapToGrid y) (← get).roots with
  | none => throw (.blockNotFound id)
  | some roots => modify fun ws => { ws with roots }

/-- Take a block out in place. -/
def removing (id : BlockId) : Mutation Workspace PlacementError PlacedBlock := do
  let roots := (← get).roots
  match (takeRoot? id roots).or (detachIn? id roots) with
  | none => throw (.blockNotFound id)
  | some (found, roots) =>
    modify fun ws => { ws with roots }
    return found

theorem outcome_adding (block : PlacedBlock) (x y : Float) (ws : Workspace) :
    outcome (adding block x y) ws = settled ws ((ws.addRoot block x y).map (·, ())) := by
  unfold adding addRoot
  rw [outcome_bind_ok (outcome_get ws)]
  split <;> rfl

theorem outcome_moving (id : BlockId) (x y : Float) (ws : Workspace) :
    outcome (moving id x y) ws = settled ws ((ws.moveRoot id x y).map (·, ())) := by
  unfold moving moveRoot
  rw [outcome_bind_ok (outcome_get ws)]
  cases moveIn? id (snapToGrid x) (snapToGrid y) ws.roots <;> rfl

theorem outcome_removing (id : BlockId) (ws : Workspace) :
    outcome (removing id) ws = settled ws ((ws.remove id).map fun (b, ws') => (ws', b)) := by
  unfold removing remove
  rw [outcome_bind_ok (outcome_get ws)]
  dsimp only
  cases (takeRoot? id ws.roots).or (detachIn? id ws.roots) <;> rfl

/-- Replace the content by that of a snapshot in place. -/
def restoring (s : Snapshot) : Mutation Workspace SnapshotError Unit := do
  if s.version ≠ Snapshot.currentVersion then
    throw (.unsupportedVersion s.version)
  let assets ← liftExcept (Snapshot.assetStore s.assets)
  let ws ← get
  -- the numbering counts on its own, and the workspace takes over its count at the end
  let (roots, nextId) ← liftExcept ((Snapshot.rebuildRoots ws.registry 0 s.roots).run ws.nextId)
  modify fun ws => { ws with roots }
  modify fun ws => { ws with assets }
  modify fun ws => { ws with nextId }

/-- **Restoring in place** comes to the restored workspace, or leaves the workspace as it was. -/
theorem outcome_restoring (s : Snapshot) (ws : Workspace) :
    outcome (restoring s) ws = settled ws ((ws.restore s).map (·, ())) := by
  unfold restoring restore
  by_cases hversion : s.version ≠ Snapshot.currentVersion
  · rw [if_pos hversion, if_pos hversion]
    rfl
  rw [if_neg hversion, if_neg hversion]
  cases Snapshot.assetStore s.assets with
  | error problem => rfl
  | ok assets =>
    dsimp only
    rw [outcome_bind_ok (outcome_liftExcept _ ws), outcome_bind_ok (outcome_get ws)]
    cases (Snapshot.rebuildRoots ws.registry 0 s.roots).run ws.nextId <;> rfl

/-- Replace the content by that of a snapshot that is to be read first. -/
def loading (saved : Except SnapshotError Snapshot) : Mutation Workspace SnapshotError Unit := do
  restoring (← liftExcept saved)

theorem outcome_loading (saved : Except SnapshotError Snapshot) (ws : Workspace) :
    outcome (loading saved) ws
      = settled ws ((saved >>= fun s => ws.restore s).map (·, ())) := by
  unfold loading
  cases saved with
  | error problem => rfl
  | ok s => exact outcome_restoring s ws

end Workspace

end Blockwork
