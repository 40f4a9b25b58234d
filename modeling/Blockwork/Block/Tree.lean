import Blockwork.Block.Kind

/-!
# Trees of blocks

A block has a type, holds a literal text or a reporter in each of its filled slots, and has
children. Blocks placed in a workspace carry an identifier; the tree is made over an arbitrary type
`ι` of identifiers, so that a saved block, which has none, is a `Block Unit`.

The filled slots are kept in the order of their names. Wherever the blocks below a block are
visited, the reporters come first, in that order, and then the children.
-/

namespace Blockwork

/-- A filled slot, over what it may hold besides a text. -/
inductive Slot (β : Type) where
  | literal (name text : String)
  | reporter (name : String) (block : β)
deriving DecidableEq

namespace Slot

variable {β γ : Type}

def name : Slot β → String
  | literal n _ => n
  | reporter n _ => n

/-- The block in the slot. -/
def block? : Slot β → Option β
  | literal _ _ => none
  | reporter _ b => some b

/-- The slot with its block changed. -/
def map (f : β → γ) : Slot β → Slot γ
  | literal n t => .literal n t
  | reporter n b => .reporter n (f b)

end Slot

/-- A block and everything below it. -/
inductive Block (ι : Type) where
  | mk (id : ι) (type : String) (slots : List (Slot (Block ι))) (children : List (Block ι))

/-! ### Slots by name -/

namespace Slots

variable {β : Type}

/-- The slot of a name. -/
def get? (slots : List (Slot β)) (name : String) : Option (Slot β) :=
  slots.find? (·.name = name)

/-- The slots with one more, in its place by name, instead of the one of that name. -/
def put (slot : Slot β) : List (Slot β) → List (Slot β)
  | [] => [slot]
  | s :: rest =>
    if s.name < slot.name then s :: put slot rest
    else if s.name = slot.name then slot :: rest
    else slot :: s :: rest

/-- The slots without the one of a name. -/
def erase (slots : List (Slot β)) (name : String) : List (Slot β) :=
  slots.filter (·.name ≠ name)

/-- The blocks in the slots. -/
def blocks (slots : List (Slot β)) : List β :=
  slots.filterMap Slot.block?

end Slots

namespace Block

variable {ι κ α : Type}

def id : Block ι → ι
  | mk i _ _ _ => i

def type : Block ι → String
  | mk _ t _ _ => t

def slots : Block ι → List (Slot (Block ι))
  | mk _ _ s _ => s

def children : Block ι → List (Block ι)
  | mk _ _ _ c => c

/-- A block with nothing in its slots and no children. -/
def bare (id : ι) (type : String) : Block ι :=
  mk id type [] []

/-- The blocks directly below a block. -/
def parts (b : Block ι) : List (Block ι) :=
  Slots.blocks b.slots ++ b.children

/-! ### Folding -/

mutual

/-- Compute bottom up: `f` gets what has been computed for the slots and the children. -/
def fold (f : ι → String → List (Slot α) → List α → α) : Block ι → α
  | mk i t slots children => f i t (foldSlots f slots) (foldAll f children)

/-- The fold of what is in the slots. -/
def foldSlots (f : ι → String → List (Slot α) → List α → α) :
    List (Slot (Block ι)) → List (Slot α)
  | [] => []
  | .literal n t :: rest => .literal n t :: foldSlots f rest
  | .reporter n b :: rest => .reporter n (fold f b) :: foldSlots f rest

/-- The folds of blocks. -/
def foldAll (f : ι → String → List (Slot α) → List α → α) : List (Block ι) → List α
  | [] => []
  | b :: rest => fold f b :: foldAll f rest

end

theorem foldSlots_eq (f : ι → String → List (Slot α) → List α → α)
    (slots : List (Slot (Block ι))) : foldSlots f slots = slots.map (Slot.map (fold f)) := by
  induction slots with
  | nil => simp [foldSlots]
  | cons s rest ih => cases s <;> simp [foldSlots, ih, Slot.map]

theorem foldAll_eq (f : ι → String → List (Slot α) → List α → α) (bs : List (Block ι)) :
    foldAll f bs = bs.map (fold f) := by
  induction bs with
  | nil => simp [foldAll]
  | cons b rest ih => simp [foldAll, ih]

theorem fold_mk (f : ι → String → List (Slot α) → List α → α) (i : ι) (t : String)
    (slots : List (Slot (Block ι))) (children : List (Block ι)) :
    fold f (mk i t slots children) =
      f i t (slots.map (Slot.map (fold f))) (children.map (fold f)) := by
  rw [fold, foldSlots_eq, foldAll_eq]

/-- Other identifiers on the same tree. -/
def mapId (g : ι → κ) : Block ι → Block κ :=
  fold fun i t slots children => mk (g i) t slots children

/-- The number of blocks in the tree. -/
def count : Block ι → Nat :=
  fold fun _ _ slots children => (Slots.blocks slots ++ children).foldr (· + ·) 1

/-- The number of blocks on the longest way down. -/
def height : Block ι → Nat :=
  fold fun _ _ slots children => 1 + (Slots.blocks slots ++ children).foldl max 0

/-- All identifiers, each before those below it. -/
def ids : Block ι → List ι :=
  fold fun i _ slots children => i :: (Slots.blocks slots ++ children).flatten

/-- How far below the top a block stands. -/
def depthOf? [DecidableEq ι] (id : ι) : Block ι → Option Nat :=
  fold fun i _ slots children =>
    if i = id then some 0
    else ((Slots.blocks slots ++ children).findSome? fun d => d).map (· + 1)

/-! ### Subtrees -/

mutual

/-- The tree itself and all trees below, each before those below it. -/
def subtrees : Block ι → List (Block ι)
  | mk i t slots children =>
    mk i t slots children :: (slotSubtrees slots ++ allSubtrees children)

/-- The subtrees of the blocks in slots. -/
def slotSubtrees : List (Slot (Block ι)) → List (Block ι)
  | [] => []
  | .literal _ _ :: rest => slotSubtrees rest
  | .reporter _ b :: rest => subtrees b ++ slotSubtrees rest

/-- The subtrees of blocks. -/
def allSubtrees : List (Block ι) → List (Block ι)
  | [] => []
  | b :: rest => subtrees b ++ allSubtrees rest

end

/-- The first subtree with the identifier. -/
def find? [DecidableEq ι] (b : Block ι) (id : ι) : Option (Block ι) :=
  b.subtrees.find? (·.id = id)

end Block

end Blockwork
