/-!
# Files

What the command line tool sees of the file system: what stands at a path, a file or a folder with
everything below it. `Node.find` says so for the paths below a folder.
-/

namespace Blockwork.Console

/-- Why nothing can be had from a path. -/
inductive FileError where
  | notFound
  /-- The path goes on behind a file. -/
  | notAFolder
  /-- A file is wanted where a folder is. -/
  | isAFolder
  | nameTooLong
  | notPermitted
  /-- The file is not UTF-8. -/
  | notText
  | other (text : String)
deriving Repr, DecidableEq

def FileError.message : FileError → String
  | notFound => "No such file or directory (os error 2)"
  | notAFolder => "Not a directory (os error 20)"
  | isAFolder => "Is a directory (os error 21)"
  | nameTooLong => "File name too long (os error 36)"
  | notPermitted => "Permission denied (os error 13)"
  | notText => "stream did not contain valid UTF-8"
  | other text => text

/-- A file or a folder. -/
inductive Node where
  | file (bytes : List UInt8)
  | folder (entries : List (String × Node))

namespace Node

/-- The entry of a name in a folder. -/
def child? (name : String) : Node → Option Node
  | file _ => none
  | folder entries => entries.lookup name

def isFolder : Node → Bool
  | file _ => false
  | folder _ => true

/-- The greatest number of bytes in a name. -/
def nameLimit : Nat := 255

/-- What the steps of a path lead to, from a folder with the given folders above it. -/
def walk : (above : List Node) → Node → (steps : List String) → Except FileError Node
  | _, node, [] => .ok node
  | above, node, step :: steps =>
    if !node.isFolder then .error .notAFolder
    else if step = "" ∨ step = "." then walk above node steps
    else if step = ".." then
      match above with
      | [] => .error .notFound
      | parent :: above => walk above parent steps
    else if nameLimit < step.utf8ByteSize then .error .nameTooLong
    else match node.child? step with
      | some child => walk (node :: above) child steps
      | none => .error .notFound

/-- What stands at a path from a folder. Nothing is known of the paths outside of it. -/
def find (root : Node) (path : String) : Except FileError Node :=
  if path.startsWith "/" ∨ path = "" then .error .notFound
  else walk [] root ((path.toList.splitOn '/').map String.ofList)

/-- A folder with a file more, at the end of a path. -/
def put (node : Node) (bytes : List UInt8) : (steps : List String) → Node
  | [] => file bytes
  | step :: steps =>
    let entries := match node with
      | folder entries => entries
      | file _ => []
    let child := ((entries.lookup step).getD (folder [])).put bytes steps
    folder ((entries.filter (·.1 ≠ step)) ++ [(step, child)])

end Node

/-- What stands at each path. -/
def Files := String → Except FileError Node

namespace Files

/-- The files below a folder. -/
def below (root : Node) : Files :=
  root.find

/-- The text of a file. -/
def read (files : Files) (path : String) : Except FileError String := do
  match ← files path with
  | .folder _ => throw .isAFolder
  | .file bytes =>
    match String.fromUTF8? ⟨bytes.toArray⟩ with
    | some text => return text
    | none => throw .notText

def isFile (files : Files) (path : String) : Bool :=
  match files path with
  | .ok (.file _) => true
  | _ => false

/-- The path of an entry of a folder. -/
def join (folder name : String) : String :=
  if folder.endsWith "/" then folder ++ name else folder ++ "/" ++ name

/-- The files of which is known what stands at some paths, and so what stands below them. -/
def ofKnown (known : List (String × Except FileError Node)) : Files := fun path =>
  match known.lookup path with
  | some found => found
  | none =>
    match known.find? fun (folder, _) => path.startsWith (join folder "") with
    | some (folder, found) => do
      (← found).find (String.ofList (path.toList.drop (join folder "").length))
    | none => .error .notFound

/-- The last step of a path that is a name. -/
def lastName (path : String) : String :=
  let steps := (path.toList.splitOn '/').map String.ofList
  (steps.filter fun s => s ≠ "" ∧ s ≠ ".").getLastD ""

end Files

end Blockwork.Console
