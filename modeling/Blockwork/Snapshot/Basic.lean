import Blockwork.Json.Value
import Blockwork.Text.Base64
import Blockwork.Workspace.Basic

/-!
# Snapshots

What is saved of a workspace: a version number, the trees of blocks without their identifiers, the
places of the roots, and the data of the assets in Base64. Slots and assets are kept in the order of
their names. Of several assets with one name the first is saved, since it is the one that counts.

A snapshot is written as JSON, with or without blank characters, or as a share token, which is the
shorter JSON text in the Base64 variant for links.
-/

namespace Blockwork

/-- A saved workspace. -/
structure Snapshot where
  version : UInt32
  roots : List (Root Unit)
  /-- The Base64 text of each asset, by name. -/
  assets : List (String × String)

namespace Snapshot

/-- The version that is written, and the only one that is restored. -/
def currentVersion : UInt32 := 1

/-- An ordered list of names and values with one more pair, in its place; it takes the place of the
pair of that name. -/
def putNamed {α : Type} (name : String) (value : α) : List (String × α) → List (String × α)
  | [] => [(name, value)]
  | (n, v) :: rest =>
    if n < name then (n, v) :: putNamed name value rest
    else if n = name then (name, value) :: rest
    else (name, value) :: (n, v) :: rest

/-- The Base64 texts of assets, of each name the first. -/
def savedAssets (store : Run.AssetStore) : List (String × String) :=
  -- from the last to the first, so that the first of a name is put last
  store.reverse.foldl (fun saved a => putNamed a.name (Base64.encode .standard a.data) saved) []

end Snapshot

/-- What is saved of a workspace. -/
def Workspace.snapshot (ws : Workspace) : Snapshot :=
  { version := Snapshot.currentVersion
    roots := ws.roots.map fun r => ⟨r.x, r.y, r.block.mapId fun _ => ()⟩
    assets := Snapshot.savedAssets ws.assets }

/-! ### As JSON -/

/-- A slot as a member of the object of slots. -/
def Slot.toMember : Slot Json.Value → String × Json.Value
  | .literal name text => (name, .object [("literal", .text text)])
  | .reporter name block => (name, .object [("reporter", block)])

/-- A block as an object. Without slots or children it has no member for them. -/
def Block.toJson {ι : Type} : Block ι → Json.Value :=
  fold fun _ type slots children => .object <|
    ("type", .text type) ::
      ((if slots.isEmpty then [] else [("slots", .object (slots.map Slot.toMember))]) ++
        (if children.isEmpty then [] else [("children", .array children)]))

/-- A root as an object. -/
def Root.toJson {ι : Type} (r : Root ι) : Json.Value :=
  .object [("x", .integer r.x.toInt), ("y", .integer r.y.toInt), ("block", r.block.toJson)]

namespace Snapshot

/-- A snapshot as an object. -/
def toJson (s : Snapshot) : Json.Value :=
  .object [("version", .integer s.version.toNat),
    ("roots", .array (s.roots.map Root.toJson)),
    ("assets", .object (s.assets.map fun (name, data) => (name, .text data)))]

/-- The JSON text that is saved, with a line for each element. -/
def pretty (s : Snapshot) : String :=
  String.ofList (s.toJson.indented 0)

/-- The JSON text without blank characters. -/
def compact (s : Snapshot) : String :=
  String.ofList s.toJson.compact

/-- The text that stands for the snapshot in a link. -/
def shareToken (s : Snapshot) : String :=
  Base64.encode .link s.compact.toUTF8.toList

end Snapshot

end Blockwork
