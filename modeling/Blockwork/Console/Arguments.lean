import Blockwork.Decimal.Reading
import Blockwork.Text.Search

/-!
# Command line arguments

The arguments of the tool are read from left to right. Options may come anywhere behind the level
they belong to; an option with a value takes it from behind an equals sign or from the next
argument, which must not look like an option itself. Letters of single options may stand together.
Behind two hyphens everything is taken as it is.

The first argument that cannot be used decides what is said, and so does a request for help or for
the version.
-/

namespace Blockwork.Console

/-- Why the arguments cannot be used. -/
inductive ArgumentFault where
  | unknownOption (option : String)
  | unknownCommand (name : String)
  | unexpectedArgument (text : String)
  | unexpectedValue (option : String)
  | missingValue (option : String)
  | badValue (option value : String)
  | repeated (option : String)
  | conflict (first second : String)
  | missingArgument (name : String)
  | missingCommand
deriving Repr, DecidableEq

def ArgumentFault.message : ArgumentFault → String
  | unknownOption option => s!"unexpected option '{option}'"
  | unknownCommand name => s!"unknown command '{name}'"
  | unexpectedArgument text => s!"unexpected argument '{text}'"
  | unexpectedValue option => s!"option '{option}' takes no value"
  | missingValue option => s!"option '{option}' needs a value"
  | badValue option value => s!"'{value}' is no value for '{option}'"
  | repeated option => s!"option '{option}' can be given only once"
  | conflict first second => s!"'{first}' and '{second}' exclude each other"
  | missingArgument name => s!"'{name}' is missing"
  | missingCommand => "a command is missing"

/-- Why the reading of arguments ends before they are all read. -/
inductive Stop where
  | fault (f : ArgumentFault)
  | help
  | version
deriving Repr, DecidableEq

/-! ### Options -/

/-- What an option does. -/
inductive OptionSort where
  /-- It is given or not. -/
  | flag
  /-- It has a value, which may have to be of some form. -/
  | value (isValid : String → Bool)
  /-- It has a value, and may be given several times. -/
  | values
  | help
  | version

/-- An option, with its name and perhaps a letter. -/
structure OptionSpec where
  name : String
  letter : Option Char
  sort : OptionSort

/-- A path is a text that is not empty. -/
def isPath (text : String) : Bool :=
  text ≠ ""

/-- The integer of 64 bits that a text of digits, perhaps behind a plus sign, stands for. -/
def readSeed? (text : String) : Option UInt64 :=
  let digits := match text.toList with
    | '+' :: ds => ds
    | ds => ds
  let n := Number.ofDigits digits
  if digits.isEmpty || digits.any (!·.isDigit) || UInt64.size ≤ n then none else some (.ofNat n)

/-- What has been read: options with their values in order, and arguments that are no options. -/
structure Parsed where
  options : List (String × String)
  plain : List String
deriving Repr, DecidableEq

namespace Parsed

def empty : Parsed :=
  ⟨[], []⟩

def has (p : Parsed) (name : String) : Bool :=
  p.options.any (·.1 = name)

def value? (p : Parsed) (name : String) : Option String :=
  p.options.lookup name

def valuesOf (p : Parsed) (name : String) : List String :=
  (p.options.filter (·.1 = name)).map (·.2)

/-- An option more. One that comes only once must not be there yet. -/
def add (p : Parsed) (spec : OptionSpec) (value : String) : Except Stop Parsed := do
  let added := { p with options := p.options ++ [(spec.name, value)] }
  let once := if p.has spec.name then throw (.fault (.repeated spec.name)) else pure added
  match spec.sort with
  | .flag => once
  | .value isValid =>
    if isValid value then once else throw (.fault (.badValue spec.name value))
  | .values => return added
  | .help => throw .help
  | .version => throw .version

/-- An argument more that is no option: a path, for which there must be room. -/
def addPlain (p : Parsed) (room : Nat) (text : String) : Except Stop Parsed := do
  -- one argument too many counts before what it says
  if room ≤ p.plain.length then throw (.fault (.unexpectedArgument text))
  if !isPath text then throw (.fault (.badValue "path" text))
  return { p with plain := p.plain ++ [text] }

end Parsed

def OptionSpec.hasValue (spec : OptionSpec) : Bool :=
  match spec.sort with
  | .value _ | .values => true
  | .flag | .help | .version => false

/-- Whether an argument looks like an option. A single hyphen does not. -/
def looksLikeOption (arg : String) : Bool :=
  arg.startsWith "-" && arg ≠ "-"

/-- The value of an option that is not given with it: the next argument. -/
def nextValue (option : String) : List String → Except Stop (String × List String)
  | arg :: rest =>
    if looksLikeOption arg then .error (.fault (.missingValue option)) else .ok (arg, rest)
  | [] => .error (.fault (.missingValue option))

/-- An option given by its name, perhaps with a value behind an equals sign. -/
def readNamed (specs : List OptionSpec) (p : Parsed) (text : List Char) (rest : List String) :
    Except Stop (Parsed × List String) := do
  let name := String.ofList (text.takeWhile (· ≠ '='))
  let attached := match text.dropWhile (· ≠ '=') with
    | [] => none
    | _ :: value => some (String.ofList value)
  let some spec := specs.find? (·.name = name) | throw (.fault (.unknownOption name))
  if spec.hasValue then
    let (value, rest) ← match attached with
      | some value => pure (value, rest)
      | none => nextValue name rest
    return (← p.add spec value, rest)
  else if attached.isSome then throw (.fault (.unexpectedValue name))
  else return (← p.add spec "", rest)

/-- Options given by their letters, the last one perhaps with a value behind it. -/
def readLetters (specs : List OptionSpec) (p : Parsed) (rest : List String) :
    List Char → Except Stop (Parsed × List String)
  | [] => .ok (p, rest)
  | letter :: text => do
    let some spec := specs.find? (·.letter = some letter)
      | throw (.fault (.unknownOption (String.ofList [letter])))
    if spec.hasValue then
      let (value, rest) ← match text with
        | [] => nextValue spec.name rest
        | '=' :: value => pure (String.ofList value, rest)
        | value => pure (String.ofList value, rest)
      return (← p.add spec value, rest)
    else readLetters specs (← p.add spec "") rest text

/-- The option that an argument is, and the arguments behind it and its value. -/
def readOption (specs : List OptionSpec) (p : Parsed) (arg : String) (rest : List String) :
    Except Stop (Parsed × List String) :=
  match arg.toList with
  | '-' :: '-' :: text => readNamed specs p text rest
  | '-' :: text => readLetters specs p rest text
  | _ => .ok (p, rest)

/-- The arguments of a command, given its options and how many plain ones it takes. Every step reads
an argument, so as many steps as there are arguments suffice. -/
def readArguments (specs : List OptionSpec) (room : Nat) : (steps : Nat) → Parsed →
    List String → Except Stop Parsed
  | 0, p, _ => .ok p
  | _, p, [] => .ok p
  | steps + 1, p, arg :: rest => do
    if arg = "--" then rest.foldlM (fun p arg => p.addPlain room arg) p
    else if looksLikeOption arg then
      let (p, rest) ← readOption specs p arg rest
      readArguments specs room steps p rest
    else readArguments specs room steps (← p.addPlain room arg) rest

/-- The options before the name of a command, that name, and the arguments behind it. -/
def readUpToCommand (specs : List OptionSpec) : (steps : Nat) → Parsed → List String →
    Except Stop (Parsed × String × List String)
  | 0, _, _ => .error (.fault .missingCommand)
  | _, _, [] => .error (.fault .missingCommand)
  | steps + 1, p, arg :: rest => do
    if arg = "--" then
      throw (.fault (match rest with
        | [] => .missingCommand
        | arg :: _ => .unexpectedArgument arg))
    else if looksLikeOption arg then
      let (p, rest) ← readOption specs p arg rest
      readUpToCommand specs steps p rest
    else return (p, arg, rest)

/-! ### Commands -/

/-- The options of a run. -/
structure RunOptions where
  /-- Only load the workspace. -/
  check : Bool
  /-- Only show the outline. -/
  tree : Bool
  quiet : Bool
  seed : Option UInt64
  interactive : Bool
  showCode : Bool
deriving Repr, DecidableEq

/-- What the tool is asked to do. -/
inductive Command where
  | run (path : String) (options : RunOptions)
  | compile (path : String) (executable : Bool)
  | palette
  /-- Write the share token of a workspace. -/
  | share (path : String)
  /-- Write the workspace of a share token. -/
  | unshare (token : String)
  | test (path : String) (categories : List String)
  | listCategories (path : String)
deriving Repr, DecidableEq

/-- A command with the options of all commands. -/
structure Invocation where
  noColor : Bool
  config : Option String
  command : Command
deriving Repr, DecidableEq

namespace Invocation

def helpOption : OptionSpec := ⟨"help", some 'h', .help⟩

/-- The options that may stand before and behind the name of a command. -/
def commonOptions : List OptionSpec :=
  [⟨"no-color", none, .flag⟩, ⟨"config", none, .value isPath⟩, helpOption]

/-- The options before the name of a command. -/
def firstOptions : List OptionSpec :=
  commonOptions ++ [⟨"version", some 'V', .version⟩]

def runOptions : List OptionSpec :=
  [⟨"check", none, .flag⟩, ⟨"tree", none, .flag⟩, ⟨"quiet", some 'q', .flag⟩,
    ⟨"seed", none, .value fun s => (readSeed? s).isSome⟩, ⟨"interactive", some 'i', .flag⟩,
    ⟨"show-code", none, .flag⟩]

/-- The one path that a command needs. -/
def pathOf (p : Parsed) (name : String) : Except Stop String :=
  match p.plain with
  | path :: _ => .ok path
  | [] => .error (.fault (.missingArgument name))

/-- A command given by its name and its arguments. -/
def readCommand (name : String) (args : List String) : Except Stop (Parsed × Command) := do
  let parse (specs : List OptionSpec) (room : Nat) : Except Stop Parsed :=
    readArguments (commonOptions ++ specs) room args.length .empty args
  match name with
  | "run" =>
    let p ← parse runOptions 1
    let path ← pathOf p "file"
    return (p, .run path
      { check := p.has "check"
        tree := p.has "tree"
        quiet := p.has "quiet"
        seed := (p.value? "seed").bind readSeed?
        interactive := p.has "interactive"
        showCode := p.has "show-code" })
  | "compile" =>
    let p ← parse [⟨"executable", none, .flag⟩] 1
    return (p, .compile (← pathOf p "file") (p.has "executable"))
  | "palette" => return (← parse [] 0, .palette)
  | "share" =>
    let p ← parse [⟨"decode", none, .value fun _ => true⟩] 1
    match p.value? "decode" with
    | none => return (p, .share (← pathOf p "file"))
    | some token =>
      if !p.plain.isEmpty then throw (.fault (.conflict "decode" "file"))
      return (p, .unshare token)
  | "test" =>
    let p ← parse [⟨"category", some 'c', .values⟩, ⟨"list-categories", none, .flag⟩] 1
    let path ← pathOf p "path"
    return (p, if p.has "list-categories" then .listCategories path
      else .test path (p.valuesOf "category"))
  | "help" =>
    match args with
    | [] => throw .help
    | [topic] =>
      if commandNames.contains topic then throw .help
      else throw (.fault (.unknownCommand topic))
    | _ :: topic :: _ => throw (.fault (.unknownCommand topic))
  | name => throw (.fault (.unknownCommand name))
where
  commandNames : List String :=
    ["run", "compile", "palette", "share", "test", "help"]

/-- The invocation that the arguments stand for. Of a common option given twice, the value behind
the name of the command counts. -/
def ofArguments (args : List String) : Except Stop Invocation := do
  let (first, name, rest) ← readUpToCommand firstOptions args.length .empty args
  let (p, command) ← readCommand name rest
  return {
    noColor := first.has "no-color" || p.has "no-color"
    config := (p.value? "config").or (first.value? "config")
    command }

end Invocation

end Blockwork.Console
