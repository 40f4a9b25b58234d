import Blockwork.Run.Machine

/-!
# Evaluating expressions

The operands of an operator and the arguments of a call are evaluated from left to right. The right
side of `&&` and `||` is evaluated only if the left one does not decide. Each level of the tree is
one deeper than the one above it, and beyond `depthLimit` evaluation fails.
-/

namespace Blockwork.Run

open Script Blockwork.Run.Action

/-- How deep statements and expressions may be nested when they run. -/
def depthLimit : Nat := 64

variable {σ : Type}

/-- The value of a variable. -/
def readVariable (name : String) : Action σ Value := do
  match (← get).env.get? name with
  | some value => return value
  | none => fail (.undefinedVariable name)

/-- The values as a console shows them, with a space between each two. -/
def joinValues (values : List Value) : String :=
  " ".intercalate (values.map Value.display)

/-- Draw the sprite of an asset at the next place. Without the asset, or without a canvas, there is
only a warning. -/
def drawSprite (setting : Setting σ) (name : String) (span : Span) : Action σ Unit := do
  if (setting.assets.get? name).isNone then
    warn setting s!"Costume not found: {name}" span
  else
    let m ← get
    match setting.host.canvas m.host with
    | none => warn setting "Canvas not found! Cannot draw sprite." span
    | some canvas =>
      let (x, y) := spritePlace setting.seed canvas m.drawn
      modify fun m => { m with drawn := m.drawn + 1 }
      tell (setting.host.draw ⟨name, x, y, spriteSize, spriteSize⟩)

/-- Call one of the functions of the host. A missing argument is undefined. -/
def callFunction (setting : Setting σ) (function : String) (arguments : List Value)
    (span : Span) : Action σ Value := do
  let first := (arguments.headD .undefined).display
  match function with
  | "print" =>
    ask (setting.host.print (joinValues arguments))
    return .undefined
  | "alert" =>
    ask (setting.host.alert first)
    return .undefined
  | "confirm" => return .bool (← ask (setting.host.confirm first))
  | "prompt" =>
    match ← ask (setting.host.prompt first) with
    | some answer => return .text answer
    | none => return .undefined
  | "warn" =>
    warn setting (joinValues arguments) span
    return .undefined
  | "draw_sprite" =>
    drawSprite setting first span
    return .undefined
  | _ => fail (.undefinedFunction function)

mutual

/-- The value of an expression at a depth. -/
def evaluate (setting : Setting σ) : Expr → (depth : Nat) → Action σ Value
  | e, depth =>
    if depthLimit < depth then fail .tooDeep
    else match e with
    | .number x => return .number x
    | .text s => return .text s
    | .bool b => return .bool b
    | .var name span => locate span setting.source (readVariable name)
    | .call function arguments span => do
      -- a fault in an argument is not one of the call
      let values ← evaluateAll setting arguments (depth + 1)
      locate span setting.source (callFunction setting function values span)
    | .unary op operand => return applyUnary op (← evaluate setting operand (depth + 1))
    | .binary op left right _ => do
      let l ← evaluate setting left (depth + 1)
      match op, l.isTrue with
      -- the deciding side is the value itself, not a truth value
      | .and, false => return l
      | .or, true => return l
      | _, _ => return applyBinary op l (← evaluate setting right (depth + 1))

/-- The values of expressions, from left to right. -/
def evaluateAll (setting : Setting σ) : List Expr → (depth : Nat) → Action σ (List Value)
  | [], _ => return []
  | e :: es, depth => do
    let value ← evaluate setting e depth
    return value :: (← evaluateAll setting es depth)

end

end Blockwork.Run
