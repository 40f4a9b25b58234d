import Blockwork.Run.Host
import Blockwork.Toml.Reading

/-!
# Settings

The settings of the command line tool, as a TOML document gives them. Every setting has a default,
and a key that is no setting is a fault.
-/

namespace Blockwork.Console

open Toml

/-- The settings of the canvas. -/
structure CanvasConfig where
  enabled : Bool
  width : Float
  height : Float
deriving DecidableEq

namespace CanvasConfig

def default : CanvasConfig :=
  ⟨true, Run.Canvas.standard.width, Run.Canvas.standard.height⟩

/-- The canvas, unless there is to be none. -/
def canvas? (c : CanvasConfig) : Option Run.Canvas :=
  if c.enabled then some ⟨c.width, c.height⟩ else none

def fields : List (Value.Field CanvasConfig) :=
  [{ key := "enabled", put := fun v c => return { c with enabled := ← v.toBool } },
   { key := "width", put := fun v c => return { c with width := ← v.toFloat } },
   { key := "height", put := fun v c => return { c with height := ← v.toFloat } }]

end CanvasConfig

/-- The settings. -/
structure Config where
  /-- What to log. -/
  log : Option String
  /-- The seed that fixes where sprites are placed. -/
  seed : Option UInt64
  /-- Whether questions are asked on the terminal. -/
  interactive : Bool
  canvas : CanvasConfig
deriving DecidableEq

namespace Config

def default : Config :=
  ⟨none, none, false, .default⟩

def fields : List (Value.Field Config) :=
  [{ key := "log", put := fun v c => return { c with log := some (← v.toText) } },
   { key := "seed", put := fun v c => return { c with seed := some (.ofNat (← v.toNat)) } },
   { key := "interactive", put := fun v c => return { c with interactive := ← v.toBool } },
   { key := "canvas"
     put := fun v c =>
       return { c with canvas := ← v.toRecord CanvasConfig.fields true .default } }]

/-- The settings of a document. -/
def read (text : String) : Except Fault Config := do
  (Value.table .header (← Toml.read text)).toRecord fields true default

end Config

end Blockwork.Console
