import Blockwork.Workspace.Basic

/-!
# The outline of a workspace

One line for each root, which begins with its place, and below it one for each block in a
container, moved in by one step more than the container. Reporters show only in the labels of the
blocks they stand in.
-/

namespace Blockwork

namespace Block

variable {ι : Type}

mutual

/-- The lines of a block and of the children below it, at a level. -/
def outline (r : Registry) (level : Nat) : Block ι → List String
  | mk i t slots children =>
    (String.join (List.replicate level "  ") ++ (mk i t slots children).label r) ::
      outlineAll r (level + 1) children

/-- The lines of blocks at a level. -/
def outlineAll (r : Registry) (level : Nat) : List (Block ι) → List String
  | [] => []
  | b :: rest => outline r level b ++ outlineAll r level rest

end

end Block

/-- The lines of a root: its place and label, then its children. -/
def Root.outline {ι : Type} (r : Registry) (root : Root ι) : List String :=
  s!"({root.x.toInt}, {root.y.toInt}) {root.block.label r}" ::
    Block.outlineAll r 1 root.block.children

/-- The outline of a workspace, each line with its end. -/
def Workspace.outline (ws : Workspace) : String :=
  String.join ((ws.roots.flatMap (Root.outline ws.registry)).map (· ++ "\n"))

/-- A line of the palette: the type of a kind, its category, and a new block's label. -/
structure PaletteEntry where
  type : String
  category : String
  label : String
deriving Repr, DecidableEq

/-- The palette of a registry, in its order. -/
def Registry.palette (r : Registry) : List PaletteEntry :=
  r.kinds.map fun kind =>
    ⟨kind.typeName, kind.category.name, (Block.bare () kind.typeName).label r⟩

end Blockwork
