import Blockwork.Block.Fragment
import Blockwork.Block.Tree

/-!
# From trees to texts

The text of a slot is the executable text of its reporter, or its literal without the blank
characters around it, or the default of the slot. A block of a type that the registry does not know
is written as nothing, and what is written as nothing leaves no line behind. Reporters are compiled
at the depth of their block, children one deeper.
-/

namespace Blockwork

variable {ι : Type}

/-- The text that a filled slot stands for. -/
def Slot.resolve (depth : Nat) : Slot (Nat → Fragment) → String × String
  | .literal name text => (name, Text.trim text)
  | .reporter name fragment => (name, (fragment depth).executable)

/-- The fragment of a block, given those of the blocks below it. -/
def compileNode (r : Registry) (type : String) (slots : List (Slot (Nat → Fragment)))
    (children : List (Nat → Fragment)) (depth : Nat) : Fragment :=
  match r.kind? type with
  -- nor are the blocks below it written
  | none => .empty
  | some kind =>
    let inputs := slots.map (Slot.resolve depth)
    kind.write (fun name => (inputs.lookup name).getD (kind.defaultText name))
      ((children.map (· (depth + 1))).filter (!·.isEmpty)) depth

/-- The fragment of a block at a depth. -/
def Block.compile (r : Registry) (b : Block ι) (depth : Nat) : Fragment :=
  b.fold (fun _ type slots children => compileNode r type slots children) depth

/-- What a block reads like: literals and defaults in brackets, reporters in parentheses. -/
def Block.label (r : Registry) : Block ι → String :=
  fold fun _ type slots _ =>
    match r.kind? type with
    | none => s!"Unknown block type: {type}"
    | some kind => " ".intercalate <| kind.label.map fun
      | .word text => text
      | .slot name _ =>
        match Slots.get? slots name with
        | some (.literal _ text) => s!"[{text}]"
        | some (.reporter _ label) => s!"({label})"
        | none => s!"[{kind.defaultText name}]"

/-- A compiled workspace: the program that runs, and the text that is shown. -/
structure Compiled where
  executable : String
  display : String
deriving Repr, DecidableEq

/-- The blocks compiled one after the other, behind the line that declares the loop counter. -/
def compileRoots (r : Registry) (roots : List (Block ι)) : Compiled :=
  let fragments := (roots.map (·.compile r 0)).filter (!·.isEmpty)
  { executable := Text.joinLines (Fragment.prelude :: fragments.map (·.executable))
    display := Text.joinLines (fragments.map (·.display)) }

end Blockwork
