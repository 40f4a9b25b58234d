import Blockwork.Run.Random

/-!
# Hosts

A program reaches the world through its *host*: a console, dialogs and a canvas. A host is given by
what each request does to its state. Printing and the dialogs may fail, with the text of an
input/output error; the rest may not.
-/

namespace Blockwork.Run

/-- The size of a canvas. -/
structure Canvas where
  width : Float
  height : Float
deriving DecidableEq

/-- The canvas that is there unless something else is said. -/
def Canvas.standard : Canvas :=
  ⟨480, 360⟩

/-- How wide and how high every sprite is. -/
def spriteSize : Float := 100

/-- The least distance of a sprite from the edges at its left and top, and from the other two. -/
def spriteMargin : Float := 10

/-- A sprite on the canvas. -/
structure Draw where
  name : String
  x : Float
  y : Float
  width : Float
  height : Float
deriving DecidableEq

/-- What a host with states `σ` does when it is asked. -/
structure Host (σ : Type) where
  print : String → σ → Except String Unit × σ
  alert : String → σ → Except String Unit × σ
  /-- A question to be answered by yes or no. -/
  confirm : String → σ → Except String Bool × σ
  /-- A question to be answered by a text, or not at all. -/
  prompt : String → σ → Except String (Option String) × σ
  warn : String → σ → σ
  canvas : σ → Option Canvas
  draw : Draw → σ → σ
  clearCanvas : σ → σ

/-! ### Places on the canvas -/

/-- How far a sprite may be moved along an edge. -/
def freeLength (edge : Float) : Float :=
  let free := edge - spriteSize - spriteMargin
  if 0 < free then free else 0

/-- The place of the sprite that is drawn as number `index` of a run. -/
def spritePlace (seed : UInt64) (canvas : Canvas) (index : Nat) : Float × Float :=
  (spriteMargin + Random.unit seed (2 * index) * freeLength canvas.width,
    spriteMargin + Random.unit seed (2 * index + 1) * freeLength canvas.height)

/-! ### A host that records -/

/-- What was asked of a recording host, and the answers it still has. -/
structure Recording where
  output : Array String
  alerts : Array String
  warnings : Array String
  draws : Array Draw
  canvas : Option Canvas
  confirmAnswers : List Bool
  promptAnswers : List String

namespace Recording

/-- Nothing asked yet. -/
def start (canvas : Option Canvas) (confirmAnswers : List Bool) (promptAnswers : List String) :
    Recording :=
  ⟨#[], #[], #[], #[], canvas, confirmAnswers, promptAnswers⟩

/-- The host that records every request. Questions are answered from two lists; without an answer
left, it is no and nothing. -/
def host : Host Recording where
  print text r := (.ok (), { r with output := r.output.push text })
  alert text r := (.ok (), { r with alerts := r.alerts.push text })
  confirm _ r := (.ok (r.confirmAnswers.headD false),
    { r with confirmAnswers := r.confirmAnswers.tail })
  prompt _ r := (.ok r.promptAnswers.head?, { r with promptAnswers := r.promptAnswers.tail })
  warn text r := { r with warnings := r.warnings.push text }
  canvas r := r.canvas
  draw d r := { r with draws := r.draws.push d }
  clearCanvas r := { r with draws := #[] }

end Recording

end Blockwork.Run
