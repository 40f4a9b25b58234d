import Blockwork.Decimal.Shortest

/-!
# Kinds of blocks

The blocks that an editor offers. A kind decides the shape of its blocks, the category they are
listed under, what they read like, and what their slots hold at first. A registry is the kinds that
one editor offers, in the order of its palette.
-/

namespace Blockwork

/-- How a block takes part in the tree. -/
inductive Shape where
  /-- Runs for its effect; stands on its own or in a container. -/
  | command
  /-- Gives a value; stands in a slot of another block. -/
  | reporter
  /-- Runs the commands it holds, in their order. -/
  | container
deriving Repr, DecidableEq

/-- What a block is listed under. -/
inductive Category where
  | output | input | values | control | looks
deriving Repr, DecidableEq

def Category.name : Category → String
  | .output => "output"
  | .input => "input"
  | .values => "values"
  | .control => "control"
  | .looks => "looks"

/-- What a slot expects. -/
inductive SlotSort where
  | text
  | number
  /-- The name of an asset. -/
  | costume
deriving Repr, DecidableEq

/-- A part of what a block reads like. -/
inductive LabelPart where
  | word (text : String)
  | slot (name : String) (sort : SlotSort)
deriving Repr, DecidableEq

/-- What a slot holds unless something else is put there. -/
inductive DefaultValue where
  | text (value : String)
  | number (value : Float)
deriving DecidableEq

/-- The default as it is written in the slot. A whole number has no point, and is kept within 64
bits. -/
def DefaultValue.display : DefaultValue → String
  | .text s => s
  | .number x =>
    if !x.isNaN && !x.isInf && (Dyadic.ofFloat x).isWhole then
      toString (Number.truncateWithin Int64.minValue.toInt Int64.maxValue.toInt x)
    else Number.toDecimal x

/-- A kind of block. -/
inductive Kind where
  | print | alert | value | confirm | prompt | repeat | forever | addSprite
deriving Repr, DecidableEq

/-- The description of a kind of block. -/
structure Definition where
  shape : Shape
  category : Category
  label : List LabelPart
  defaults : List (String × DefaultValue)

namespace Kind

/-- All kinds, in the order of the palette. -/
def all : List Kind :=
  [.print, .alert, .value, .confirm, .prompt, .repeat, .forever, .addSprite]

/-- The name that identifies the kind in saved workspaces. -/
def typeName : Kind → String
  | .print => "print"
  | .alert => "alert"
  | .value => "value"
  | .confirm => "confirm"
  | .prompt => "prompt"
  | .repeat => "repeat"
  | .forever => "forever"
  | .addSprite => "add_sprite"

/-- A block whose label is a word and one slot for text. -/
def oneText (shape : Shape) (category : Category) (word : String) (default : DefaultValue) :
    Definition :=
  ⟨shape, category, [.word word, .slot "input1" .text], [("input1", default)]⟩

def definition : Kind → Definition
  | .print => oneText .command .output "Print" (.text "Hello World!")
  | .alert => oneText .command .output "Alert" (.text "Hi!")
  | .value => oneText .reporter .values "Value" (.number 5)
  | .confirm => oneText .command .input "Confirm" (.text "Hi!")
  | .prompt => oneText .command .input "Prompt" (.text "Hello world!")
  | .repeat =>
    ⟨.container, .control, [.word "Repeat", .slot "input1" .number, .word "times"],
      [("input1", .text "3")]⟩
  | .forever => ⟨.container, .control, [.word "Forever do"], []⟩
  | .addSprite =>
    ⟨.command, .looks, [.word "Add Sprite", .slot "imageinput1" .costume],
      [("imageinput1", .text "No costume selected")]⟩

def shape (k : Kind) : Shape :=
  k.definition.shape

def category (k : Kind) : Category :=
  k.definition.category

def label (k : Kind) : List LabelPart :=
  k.definition.label

/-- The slots in the order of the label. -/
def slots (k : Kind) : List (String × SlotSort) :=
  k.label.filterMap fun
    | .slot name sort => some (name, sort)
    | .word _ => none

def hasSlot (k : Kind) (name : String) : Bool :=
  k.slots.any (·.1 = name)

def default? (k : Kind) (slot : String) : Option DefaultValue :=
  k.definition.defaults.lookup slot

/-- The text of a slot that holds nothing. -/
def defaultText (k : Kind) (slot : String) : String :=
  ((k.default? slot).map DefaultValue.display).getD ""

end Kind

/-- The kinds that an editor offers. -/
structure Registry where
  kinds : List Kind
deriving Repr, DecidableEq

namespace Registry

/-- The registry of all kinds. -/
def standard : Registry :=
  ⟨Kind.all⟩

/-- The kind of the given name, if it is offered. -/
def kind? (r : Registry) (typeName : String) : Option Kind :=
  r.kinds.find? (·.typeName = typeName)

/-- The shape of the blocks of the given name, if they are offered. -/
def shape? (r : Registry) (typeName : String) : Option Shape :=
  (r.kind? typeName).map Kind.shape

end Registry

end Blockwork
