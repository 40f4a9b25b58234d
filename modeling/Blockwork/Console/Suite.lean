import Blockwork.Case.Verdict
import Blockwork.Console.Excerpt
import Blockwork.Console.Files

/-!
# Suites of test cases

A folder with test cases is a suite. The files whose names end in `caseEnding` are its cases, and
the folder in which a case lies, seen from that of the suite, is its category. Categories are run in
the order of their names, and the cases of a category in that of their paths.
-/

namespace Blockwork.Console

open Case

/-- What the names of test cases end in. -/
def caseEnding : String := ".test.blocks"

/-- A test case in a suite. -/
structure CaseFile where
  /-- The folders between the suite and the file, and the name of the file. -/
  steps : List String
  path : String
  category : String
deriving Repr, DecidableEq

/-- The category of a folder that is reached by the given steps. A backslash in a name counts as a
step. -/
def categoryOf (steps : List String) : String :=
  String.ofList (("/".intercalate steps).toList.map fun c => if c = '\\' then '/' else c)

mutual

/-- The cases at a path, which is reached from the suite by the given steps. -/
def casesAt (path : String) (folders : List String) (name : String) : Node → List CaseFile
  | .file _ =>
    if name.endsWith caseEnding then [⟨folders ++ [name], path, categoryOf folders⟩] else []
  | .folder entries => casesIn path (folders ++ [name]) entries

/-- The cases among the entries of a folder. -/
def casesIn (path : String) (folders : List String) : List (String × Node) → List CaseFile
  | [] => []
  | (name, node) :: rest =>
    casesAt (Files.join path name) folders name node ++ casesIn path folders rest

end

/-- A category and its cases. -/
structure Category where
  name : String
  paths : List String
deriving Repr, DecidableEq

/-- What a category is called. -/
def Category.title (name : String) : String :=
  if name = "" then "(root)" else name

/-- Whether the one path stands before the other, or is the same. Their steps are compared, so that
a folder stands before one whose name goes on behind its own. -/
def isBefore : List String → List String → Bool
  | [], _ => true
  | _ :: _, [] => false
  | s :: ss, t :: ts => if s = t then isBefore ss ts else s < t

/-- The categories of a suite, in order. -/
def categories (files : Files) (path : String) : List Category :=
  let cases := match files path with
    | .ok (.folder entries) => casesIn path [] entries
    | _ => []
  let sorted := cases.mergeSort fun a b => isBefore a.steps b.steps
  let names := (cases.map (·.category)).eraseDups.mergeSort fun a b => !decide (b < a)
  names.map fun name => ⟨name, (sorted.filter (·.category = name)).map (·.path)⟩

/-- A requested category without the slashes around it. -/
def trimSlashes (name : String) : String :=
  let drop (cs : List Char) := cs.dropWhile (· == '/')
  String.ofList (drop (drop name.toList).reverse).reverse

/-- Whether a category is the requested one or lies below it. -/
def isWithin (requested name : String) : Bool :=
  name == requested || name.startsWith (requested ++ "/")

/-! ### Reports -/

/-- What is said on the outcome of a run of test cases: lines, and whether all have passed. -/
structure SuiteReport where
  lines : List String
  passed : Bool
deriving Repr, DecidableEq

/-- A text in a style, if there are colors. -/
def marked (colored : Bool) (style text : String) : String :=
  if colored then styleCode style ++ text ++ resetCode else text

/-- The style of what is well. -/
def passStyle : String := "32"

/-- The style of what is not. -/
def failStyle : String := "31"

/-- The line that is said when a suite has no cases. -/
def noCasesLine (path : String) : String :=
  s!"no {caseEnding} files found in {path}"

/-- A file name without the ending of test cases, however often it is there. -/
def dropCaseEnding (name : String) : String :=
  String.ofList (go name.length name.toList.reverse).reverse
where
  /-- The reversed name without the reversed ending, dropped at most so often. -/
  go : Nat → List Char → List Char
    | 0, cs => cs
    | n + 1, cs =>
      match Text.dropStart? caseEnding.toList.reverse cs with
      | some rest => go n rest
      | none => cs

/-- What a case is called: its description, or else its file name. -/
def caseTitle (path : String) (outcome : Outcome) : String :=
  outcome.description.getD (dropCaseEnding (Files.lastName path))

/-- The outcome of the case at a path. -/
def runCase (files : Files) (path : String) : Outcome :=
  .of ((files.read path).mapError FileError.message)

/-- The line on one case. -/
def caseLine (colored : Bool) (path : String) (outcome : Outcome) : String :=
  let mark := match outcome.verdict with
    | .ok _ => marked colored passStyle "PASS"
    | .error _ => marked colored failStyle "FAIL"
  s!"  {mark}  {caseTitle path outcome}"

/-- The lines on why a case has failed. -/
def failureLines (path : String) (outcome : Outcome) : List String :=
  match outcome.verdict with
  | .ok _ => []
  | .error m => "" :: s!"  --- {path} ---" :: (Text.lines m.message).map ("  " ++ ·)

/-- The line on all cases together. -/
def totalLine (colored : Bool) (passed failed : Nat) : String :=
  if failed = 0 then
    let mark := marked colored passStyle "ok"
    s!"test result: {mark}. {passed} passed, 0 failed"
  else
    let mark := marked colored failStyle "FAILED"
    s!"test result: {mark}. {passed} passed, {failed} failed (of {passed + failed})"

/-- Run the cases of categories. Titles of categories are shown if there may be several. -/
def runCategories (files : Files) (colored titles : Bool) (cats : List Category) : SuiteReport :=
  let outcomes := cats.map fun c => (c, c.paths.map fun p => (p, runCase files p))
  let all := outcomes.flatMap (·.2)
  let failures := all.flatMap fun (p, o) => failureLines p o
  let failed := all.countP fun (_, o) => !o.verdict.isOk
  let shown := outcomes.flatMap fun (c, cases) =>
    (if titles then ["", marked colored boldStyle (Category.title c.name)] else []) ++
      cases.map fun (p, o) => caseLine colored p o
  { lines := shown ++ (if failed = 0 then [] else "" :: "failures:" :: failures) ++
      ["", totalLine colored (all.length - failed) failed]
    passed := failed = 0 }

/-- The lines on requested categories that are not there. -/
def missingLines (cats : List Category) (requested : List String) : List String :=
  requested.filterMap fun request =>
    let request := trimSlashes request
    if cats.any (isWithin request ·.name) then none
    else
      let available := ", ".intercalate (cats.map fun c => Category.title c.name)
      some s!"warning: category '{request}' not found (available: {available})"

/-- Run the case or the suite at a path. If categories are requested, only those are run. -/
def runSuite (files : Files) (colored : Bool) (path : String) (requested : List String) :
    SuiteReport :=
  if files.isFile path then runCategories files colored false [⟨"", [path]⟩]
  else
    let cats := categories files path
    if cats.isEmpty then ⟨[noCasesLine path], false⟩
    else if requested.isEmpty then runCategories files colored true cats
    else
      let missing := missingLines cats requested
      let chosen := cats.filter fun c => requested.any fun r => isWithin (trimSlashes r) c.name
      if chosen.isEmpty then ⟨missing ++ ["no matching categories found"], false⟩
      else
        let report := runCategories files colored true chosen
        { report with lines := missing ++ report.lines }

/-- The lines that list the categories of a suite. -/
def categoryLines (files : Files) (path : String) : List String :=
  if files.isFile path then ["(single file, no categories)"]
  else match categories files path with
    | [] => [noCasesLine path]
    | cats => "available categories:" ::
      cats.map fun c => s!"  {Category.title c.name} ({c.paths.length} tests)"

end Blockwork.Console
