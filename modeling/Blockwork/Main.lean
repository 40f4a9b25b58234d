import Blockwork.Console.Command

/-!
# The command line tool

Reads the files that the arguments lead to, performs the command, and writes what it gives. A
command that asks questions is performed again whenever a further line of input has come, and each
time only what is new is written.
-/

namespace Blockwork.Console

/-- What stands at a path of the file system, which exists. Of the files in a folder only the test
cases matter. -/
partial def readNode (path : String) (below : Bool) : IO Node := do
  let here := (← IO.currentDir) / path
  if ← here.isDir then
    if !below then return .folder []
    let mut nodes := []
    for entry in ← here.readDir do
      if (← entry.path.isDir) || entry.fileName.endsWith caseEnding then
        let node ← readNode (Files.join path entry.fileName) true
        nodes := (entry.fileName, node) :: nodes
    return .folder nodes
  else return .file (← IO.FS.readBinFile path).toList

/-- What stands at a path of the file system. -/
def probe (access : Access) : IO (Except FileError Node) := do
  try
    return .ok (← readNode access.path access.below)
  catch
    | .noFileOrDirectory .. => return .error .notFound
    | .inappropriateType .. => return .error .notAFolder
    | .permissionDenied .. => return .error .notPermitted
    | e => return .error (.other (toString e))

/-- The part of a text that is new since so many bytes of it have been written. -/
def unwritten (text : String) (bytes : Nat) : ByteArray :=
  text.toUTF8.extract bytes text.utf8ByteSize

/-- Write what is new in the two outputs. -/
def writeNew (out err : String) (outBytes errBytes : Nat) : IO Unit := do
  let stdout ← IO.getStdout
  stdout.write (unwritten out outBytes)
  stdout.flush
  (← IO.getStderr).write (unwritten err errBytes)

/-- The next line of an input with its end, or nothing at the end of the input. -/
partial def readLine (input : IO.FS.Stream) : IO (List UInt8) := do
  match (← input.read 1).toList with
  | [] => return []
  | b :: _ => if b = 10 then return [b] else return b :: (← readLine input)

/-- Perform a command on the input so far, and go on for as long as it asks for more. -/
partial def session (around : Surroundings) (args : List String) (outBytes errBytes : Nat) :
    IO UInt32 := do
  let result := perform around args
  match result.waiting with
  | none =>
    writeNew result.out result.err outBytes errBytes
    return result.code
  | some (out, err) =>
    writeNew out err outBytes errBytes
    let line ← readLine (← IO.getStdin)
    if line.isEmpty then
      writeNew result.out result.err out.utf8ByteSize err.utf8ByteSize
      return result.code
    else
      let input := around.input ++ line
      session { around with input } args out.utf8ByteSize err.utf8ByteSize

/-- Whether the terminal has colors. -/
def hasColors : IO Bool := do
  let term ← IO.getEnv "TERM"
  let plain ← IO.getEnv "NO_COLOR"
  return term.any (· ≠ "dumb") && plain.isNone

/-- Perform the command that the arguments stand for. -/
def runTool (args : List String) : IO UInt32 := do
  let known ← (accesses args).mapM fun access => do return (access.path, ← probe access)
  let seed ← IO.rand 0 (UInt64.size - 1)
  let around : Surroundings :=
    ⟨.ofKnown known, [], ← hasColors, .ofNat seed⟩
  session around args 0 0

end Blockwork.Console

def main (args : List String) : IO UInt32 :=
  Blockwork.Console.runTool args
