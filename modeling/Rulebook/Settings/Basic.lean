import Rulebook.Settings.Conversion
import Rulebook.Settings.File
import Rulebook.Settings.Way

/-!
# Settings

Settings come from the files `default.toml` and `rule-engine.toml` and from the environment, later
sources laid over earlier ones; what no source gives has a usual value. Only the value that is left
in the end has to fit, and one that does not fit refuses the settings as a whole.
-/

namespace Rulebook

/-- What is decided outside of documents and records. -/
structure Settings where
  /-- The pattern of dates in rules and records. -/
  datePattern : String := "%m/%d/%Y"
  /-- The distance that makes a number less or greater than another. -/
  epsilon : Float := 0.001
  /-- The limit for nested elements. -/
  maxDepth : UInt64 := 64
  /-- Reports list the steps of an evaluation. -/
  traced : Bool := false
  /-- The least severity of log lines. -/
  logLevel : String := "info"
  /-- Log lines are written as JSON. -/
  jsonLogs : Bool := false
  deriving DecidableEq

namespace Settings

/-- The start of the names in the environment that hold settings. -/
def environmentPrefix : List Char := "rule_engine__".toList

/-- Every pair of underscores becomes a point. -/
def pointed : List Char → List Char
  | '_' :: '_' :: rest => '.' :: pointed rest
  | c :: rest => c :: pointed rest
  | [] => []

/-- The entries that the environment gives. Case does not matter in its names, and two underscores
separate the names of tables and entries. -/
def ofEnvironment (environment : List (String × String)) : List (String × Setting) :=
  environment.filterMap fun (name, value) =>
    let name := Text.lower name.toList
    if environmentPrefix.isPrefixOf name then
      some (String.ofList (pointed (name.drop environmentPrefix.length)), Setting.ofWord value)
    else none

/-- The value of a field: the usual one unless an entry gives another, which has to fit. -/
def field? {α : Type} (entries : List (String × Setting)) (name : String)
    (read : Setting → Option α) (usual : α) : Option α :=
  match entries.lookup name with
  | none => some usual
  | some value => read value

/-- The value of a field at a place in a list. -/
def fieldAt? {α : Type} (items : List Setting) (place : Nat) (read : Setting → Option α)
    (usual : α) : Option α :=
  match items[place]? with
  | none => some usual
  | some value => read value

/-- The settings of logs: their level, and whether they are written as JSON. A list gives them in
this order. -/
def logs? (usual : Settings) : Setting → Option (String × Bool)
  | .table entries => do
    return (← field? entries "log_level" Setting.asText? usual.logLevel,
      ← field? entries "json_logs" Setting.asBool? usual.jsonLogs)
  | .list items => do
    return (← fieldAt? items 0 Setting.asText? usual.logLevel,
      ← fieldAt? items 1 Setting.asBool? usual.jsonLogs)
  | _ => none

/-- The settings that the entries give. -/
def ofEntries? (entries : List (String × Setting)) : Option Settings := do
  let usual : Settings := {}
  let (logLevel, jsonLogs) ←
    field? entries "observability" (logs? usual) (usual.logLevel, usual.jsonLogs)
  return {
    datePattern := ← field? entries "date_format" Setting.asText? usual.datePattern
    epsilon := ← field? entries "numeric_epsilon" Setting.asNumber? usual.epsilon
    maxDepth := ← field? entries "max_depth" Setting.asCount? usual.maxDepth
    traced := ← field? entries "trace_enabled" Setting.asBool? usual.traced
    logLevel
    jsonLogs }

/-- The settings that sources give, later ones laid over earlier ones. -/
def ofLayers? (layers : List (List (String × Setting))) : Option Settings :=
  ofEntries? (layers.foldl Setting.layer (.table [])).entries

/-- The settings of a text. -/
def ofText? (text : String) : Option Settings := do ofLayers? [← Toml.read? text]

/-- The names of the files with settings, in the order in which they are laid over each other. -/
def fileNames : List String := ["default.toml", "rule-engine.toml"]

/-- The settings of the files of a directory and of the environment. A file that is not there gives
nothing; one that cannot be read refuses the settings as a whole. -/
def load? (file? : String → Option String) (environment : List (String × String)) :
    Option Settings := do
  let layers ← fileNames.mapM fun name => firstEntries? file? (candidates name)
  ofLayers? (layers ++ [ofEnvironment environment])

end Settings

end Rulebook
