/-!
# Assets

An asset is an image that a program may draw, addressed by its name. A store keeps its assets in
the order in which they came. Several may have one name; the first of them is the one that counts.
-/

namespace Blockwork.Run

/-- A named piece of image data. -/
structure Asset where
  name : String
  data : List UInt8
deriving Repr, DecidableEq

namespace Asset

/-- What follows the last point of a name, if it has one. -/
def ending (name : List Char) : List Char :=
  if '.' ∈ name then (name.reverse.takeWhile (· ≠ '.')).reverse else []

/-- The media type that the ending of the name stands for. -/
def mediaType (a : Asset) : String :=
  match String.ofList ((ending a.name.toList).map Char.toLower) with
  | "png" => "image/png"
  | "jpg" | "jpeg" => "image/jpeg"
  | "gif" => "image/gif"
  | "svg" => "image/svg+xml"
  | "webp" => "image/webp"
  | _ => "application/octet-stream"

end Asset

/-- Assets in the order in which they were added. -/
abbrev AssetStore := List Asset

namespace AssetStore

/-- The first asset of the name. -/
def get? (store : AssetStore) (name : String) : Option Asset :=
  store.find? (·.name = name)

/-- With an asset more, at the end. -/
def add (store : AssetStore) (asset : Asset) : AssetStore :=
  store ++ [asset]

/-- Without all assets of the name. -/
def remove (store : AssetStore) (name : String) : AssetStore :=
  store.filter (·.name ≠ name)

/-- How many assets have the name. -/
def countNamed (store : AssetStore) (name : String) : Nat :=
  store.countP (·.name = name)

end AssetStore

end Blockwork.Run
