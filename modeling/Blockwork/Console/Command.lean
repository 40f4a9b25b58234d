import Blockwork.Console.Arguments
import Blockwork.Console.Config
import Blockwork.Console.Suite
import Blockwork.Run.Terminal
import Blockwork.Workspace.Outline

/-!
# Commands

What each command of the tool does: what it reads from the files and the input, what it writes to
its two outputs, and with which code it ends. The code is zero if all went well, one if a workspace
or a test case failed, and two if the arguments or the settings cannot be used.
-/

namespace Blockwork.Console

/-- What a command has done. -/
structure Result where
  code : UInt32
  out : String
  err : String
  /-- What the outputs held when a question first found the input at its end. -/
  waiting : Option (String × String)
deriving Repr, DecidableEq

namespace Result

/-- A command that has gone well and written to the first output. -/
def written (out : String) : Result :=
  ⟨0, out, "", none⟩

/-- A command that has ended with a code and written lines to the second output. -/
def said (code : UInt32) (lines : List String) : Result :=
  ⟨code, "", String.join (lines.map (· ++ "\n")), none⟩

/-- A command that has failed. -/
def failed (code : UInt32) (message : String) : Result :=
  said code [s!"error: {message}"]

end Result

/-- What is around a command: the files, the input, whether the terminal has colors, and the seed
that is taken if none is given. -/
structure Surroundings where
  files : Files
  input : List UInt8
  colors : Bool
  seed : UInt64

/-! ### Settings -/

/-- Where the settings are unless something else is said. -/
def configPath : String := "blocks.toml"

/-- What is said on settings that are no valid document. -/
def badConfigMessage (path : String) (fault : Toml.Fault) : String :=
  s!"invalid config '{path}': {fault.message}"

/-- The settings: from the given file, which has to be there, or from the usual one, which need not
be. -/
def loadConfig (files : Files) (given : Option String) : Except String Config :=
  let path := given.getD configPath
  match files.read path with
  | .ok text => (Config.read text).mapError (badConfigMessage path)
  | .error e =>
    -- a file that was asked for by name has to be there
    if given.isNone && e = .notFound then .ok .default
    else .error s!"cannot read config '{path}': {e.message}"

/-! ### The commands -/

/-- The workspace that is saved in a file. -/
def loadWorkspace (files : Files) (path : String) : Except String Workspace := do
  let text ← (files.read path).mapError fun e => s!"cannot read '{path}': {e.message}"
  ((Workspace.empty .standard).loadText text).mapError fun e =>
    s!"cannot load '{path}': {e.message}"

/-- Do something with the workspace that is saved in a file. -/
def withWorkspace (files : Files) (path : String) (use : Workspace → Result) : Result :=
  match loadWorkspace files path with
  | .ok ws => use ws
  | .error message => .failed 1 message

/-- What is said on a workspace that could be loaded. -/
def checkLines (path : String) (ws : Workspace) : List String :=
  s!"ok: {path} loaded ({ws.blockCount} blocks)" ::
    ws.assets.map fun a => s!"  asset {a.name} ({a.mediaType}, {a.data.length} bytes)"

/-- What is said behind a run: the program as it is shown, the warnings and the fault. -/
def reportText (colored : Bool) (report : Report) : String :=
  let diagnostics := report.warnings.toList ++ report.fault.toList
  let note := if report.guardTripped then
      s!"note: loops stopped early after {report.iterations} iterations\n"
    else ""
  s!"--- program ---\n{report.program.display}\n" ++
    String.join (diagnostics.map (showDiagnostic colored report.program.executable)) ++ note

/-- Run a workspace on a terminal. -/
def runWorkspace (around : Surroundings) (colored : Bool) (config : Config)
    (options : RunOptions) (ws : Workspace) : Result :=
  let terminal :=
    { Run.Terminal.start around.input config.canvas.canvas? with
      quiet := options.quiet
      interactive := options.interactive || config.interactive }
  let seed := (options.seed.or config.seed).getD around.seed
  let (report, terminal) := ws.run Run.Terminal.host seed terminal
  let before := if options.showCode then ws.compile.executable ++ "\n" else ""
  { code := if report.succeeded then 0 else 1
    out := terminal.out.text
    err := before ++ terminal.err.text ++ reportText colored report
    waiting := terminal.ended.map fun (out, err) => (out.text, before ++ err.text) }

/-- A text with blanks behind it, up to a width. -/
def padded (width : Nat) (text : String) : String :=
  text ++ String.ofList (List.replicate (width - text.length) ' ')

/-- A line of the palette. -/
def paletteLine (e : PaletteEntry) : String :=
  s!"{padded 12 e.type} {padded 8 e.category} {e.label}\n"

/-- Do what a command says. -/
def Command.perform (around : Surroundings) (noColor : Bool) (config : Config) :
    Command → Result
  | .run path options =>
    withWorkspace around.files path fun ws =>
      if options.check then .said 0 (checkLines path ws)
      else if options.tree then .written ws.outline
      else runWorkspace around (around.colors && !noColor) config options ws
  | .compile path executable =>
    withWorkspace around.files path fun ws =>
      .written ((if executable then ws.compile.executable else ws.compile.display) ++ "\n")
  | .palette => .written (String.join (Registry.standard.palette.map paletteLine))
  | .share path =>
    withWorkspace around.files path fun ws => .written (ws.snapshot.shareToken ++ "\n")
  | .unshare token =>
    match Snapshot.ofShareToken token with
    | .ok s => .written (s.pretty ++ "\n")
    | .error e => .failed 1 e.message
  | .test path categories =>
    let report := runSuite around.files (!noColor) path categories
    .said (if report.passed then 0 else 1) report.lines
  | .listCategories path => .said 0 (categoryLines around.files path)

/-- Do what an invocation says, once its settings are loaded. -/
def Invocation.perform (around : Surroundings) (i : Invocation) : Result :=
  match loadConfig around.files i.config with
  | .ok config => i.command.perform around i.noColor config
  | .error message => .failed 2 message

/-- The name of the tool and its version. -/
def versionLine : String := "blocks 0.1.0"

/-- How the tool is called. -/
def usageLines : List String :=
  ["Usage: blocks [--no-color] [--config FILE] COMMAND",
    "",
    "  run FILE [--check] [--tree] [-q] [--seed N] [-i] [--show-code]",
    "  compile FILE [--executable]",
    "  palette",
    "  share FILE | share --decode TOKEN",
    "  test PATH [-c CATEGORY]... [--list-categories]"]

/-- Do what the arguments say. -/
def perform (around : Surroundings) (args : List String) : Result :=
  match Invocation.ofArguments args with
  | .ok i => i.perform around
  | .error .version => .written (versionLine ++ "\n")
  | .error .help => .written (String.join (usageLines.map (· ++ "\n")))
  | .error (.fault f) => .said 2 (s!"error: {f.message}" :: "" :: usageLines)

/-- A path that is read, and whether what stands below it is read too. -/
structure Access where
  path : String
  below : Bool
deriving Repr, DecidableEq

/-- What a command reads. -/
def Command.access? : Command → Option Access
  | .run path _ | .compile path _ | .share path => some ⟨path, false⟩
  | .test path _ | .listCategories path => some ⟨path, true⟩
  | .palette | .unshare _ => none

/-- What the arguments lead to. Nothing else is read. -/
def accesses (args : List String) : List Access :=
  match Invocation.ofArguments args with
  | .error _ => []
  | .ok i => ⟨i.config.getD configPath, false⟩ :: i.command.access?.toList

end Blockwork.Console
