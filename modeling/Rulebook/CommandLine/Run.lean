import Rulebook.CommandLine.Help
import Rulebook.Settings.Engine
import Rulebook.Export.Markup
import Rulebook.Json.Description
import Rulebook.Json.Report
import Rulebook.Json.Sorted

/-!
# Running the program

The program reads its settings, the catalog and the document, and then writes the tree or evaluates
it on records. Settings that are refused are replaced by the usual ones. The first file that cannot
be used ends the program.
-/

namespace Rulebook.CommandLine

open Calendar (Date)

/-- What the program sees of its surroundings. -/
structure Host where
  /-- The text of a file, if it can be read. -/
  file? : String → Option String
  /-- The names and values of the environment. -/
  environment : List (String × String)
  /-- The date. -/
  today : Date

/-- Why the program ends without a result. -/
inductive Complaint where
  /-- A file cannot be read; `role` says what it was to hold. -/
  | unreadable (role path : String)
  /-- A file holds no catalog. -/
  | noCatalog (path : String)
  /-- A document is refused. -/
  | refusedMarkup (path : String) (refusal : Refusal)
  /-- A file holds no record. -/
  | noRecord (path : String)
  /-- A text is no date. -/
  | noDate (text : String)
  /-- An evaluation is refused. -/
  | refusedEvaluation (refusal : Refusal)
  deriving DecidableEq, Repr

/-- The wording of a complaint. -/
def Complaint.message : Complaint → String
  | .unreadable role path => s!"failed to read {role}: {path}"
  | .noCatalog path => s!"invalid attribute catalog: {path}"
  | .refusedMarkup path _ => s!"failed to compile {path}"
  | .noRecord path => s!"invalid record: {path}"
  | .noDate text => s!"invalid --today value: {text}"
  | .refusedEvaluation refusal => refusal.message

/-- How the program ends. -/
structure Ending where
  /-- The exit code. -/
  code : UInt8
  /-- What is written to the standard output. -/
  output : String := ""
  /-- Why there is no result. -/
  complaint : Option Complaint := none
  deriving DecidableEq, Repr

namespace Host

/-- The path of a file in a directory. -/
def join (directory name : String) : String :=
  if directory = "" ∨ directory.toList.getLast? = some '/' then directory ++ name
  else directory ++ "/" ++ name

/-- The directory of settings of a request. -/
def settingsDirectory (environment : List (String × String)) (directory? : Option String) :
    String :=
  (directory?.or (environment.lookup "CONFIG_DIR")).getD "config"

/-- The files that the program may read when it is run with arguments. -/
def paths (environment : List (String × String)) (words : List String) : List String :=
  match readArguments words with
  | .error _ => []
  | .ok request =>
    let directory := settingsDirectory environment request.settings
    (Settings.fileNames.flatMap fun name =>
      (Settings.candidates name).map fun place => join directory place.1) ++ request.command.paths

/-- The settings that a request is carried out with. -/
def settings (host : Host) (directory? : Option String) : Settings :=
  let directory := settingsDirectory host.environment directory?
  (Settings.load? (fun name => host.file? (join directory name)) host.environment).getD {}

/-- The text of a file. -/
def text (host : Host) (role path : String) : Except Complaint String :=
  match host.file? path with
  | some text => .ok text
  | none => .error (.unreadable role path)

/-- The tree of a document. -/
def compile (host : Host) (settings : Settings) (markup attributes : String) :
    Except Complaint RuleTree := do
  let catalogText ← host.text "attributes" attributes
  let some catalog := Catalog.ofText? catalogText | throw (.noCatalog attributes)
  let document ← host.text "markup" markup
  match (settings.compiler catalog).compile document with
  | .ok (tree, _) => return tree
  | .error refusal => throw (.refusedMarkup markup refusal)

/-- The record of a file. -/
def record (host : Host) (path : String) : Except Complaint Record := do
  match Record.ofText? (← host.text "record" path) with
  | some record => return record
  | none => throw (.noRecord path)

/-- Carries out a command: whether it passed, and what is written. -/
def carryOut (host : Host) (settings : Settings) : Command → Except Complaint (Bool × String)
  | .export markup attributes format => do
    let description := (← host.compile settings markup attributes).describe
    match format with
    | .json => return (true, description.jsonText)
    | .markup => return (true, description.markup)
  | .evaluate markup attributes new old? traced today? => do
    let tree ← host.compile settings markup attributes
    let new ← host.record new
    let old ← old?.elim (pure Record.empty) host.record
    let today ←
      match today? with
      | none => pure none
      | some text =>
        match Calendar.readDate? settings.datePattern text with
        | some date => pure (some date)
        | none => throw (.noDate text)
    let executor := { settings.executor with today, traced := settings.traced || traced }
    match executor.evaluate host.today tree { new, old } with
    | (.ok report, records) =>
      let output := Json.object [Json.member "new" records.new.toJson,
        Json.member "old" records.old.toJson, Json.member "report" report.toJson]
      return (report.passed, output.sorted.indented)
    | (.error refusal, _) => throw (.refusedEvaluation refusal)

/-- Runs the program with the arguments behind its name. -/
def run (host : Host) (words : List String) : Ending :=
  match readArguments words with
  | .error (.help topic) => { code := 0, output := topic.text ++ "\n" }
  | .error .misuse => { code := 2 }
  | .ok request =>
    match host.carryOut (host.settings request.settings) request.command with
    | .ok (passed, output) => { code := if passed then 0 else 2, output := output ++ "\n" }
    | .error complaint => { code := 1, complaint := some complaint }

end Host

end Rulebook.CommandLine
