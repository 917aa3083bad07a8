/-!
# Arguments of the command line

A command is followed by its options. An option has the form `--name value` or `--name=value`; a
value that stands by itself does not start with a hyphen. An option is given once, and the directory
of settings may be given before the command and behind it, where it counts more.
-/

namespace Rulebook.CommandLine

/-- The forms in which a tree is written. -/
inductive Format where
  /-- As a description in JSON. -/
  | json
  /-- As a document. -/
  | markup
  deriving DecidableEq, Repr

/-- What is to be done. -/
inductive Command where
  /-- A document is compiled and the tree is written. -/
  | export (markup attributes : String) (format : Format)
  /-- A document is compiled and the tree is evaluated. -/
  | evaluate (markup attributes new : String) (old : Option String) (traced : Bool)
      (today : Option String)
  deriving DecidableEq, Repr

/-- The files that a command reads. -/
def Command.paths : Command → List String
  | .export markup attributes _ => [attributes, markup]
  | .evaluate markup attributes new old _ _ => [attributes, markup, new] ++ old.toList

/-- The commands that help can be asked for. -/
inductive Topic where
  /-- All commands. -/
  | all
  /-- Writing trees. -/
  | export
  /-- Evaluating trees. -/
  | evaluate
  /-- Help itself. -/
  | help
  deriving DecidableEq, Repr

/-- Why arguments ask for no command. -/
inductive Stop where
  /-- Help is asked for. -/
  | help (topic : Topic)
  /-- The arguments have no meaning. -/
  | misuse
  deriving DecidableEq, Repr

/-- What the arguments ask for. -/
structure Request where
  /-- The directory of settings. -/
  settings : Option String
  /-- What is to be done. -/
  command : Command
  deriving DecidableEq, Repr

/-- What an option takes. -/
inductive Argument where
  /-- Nothing. -/
  | nothing
  /-- The path of a file or directory, which is not empty. -/
  | path
  /-- Any text. -/
  | text
  /-- One of some words. -/
  | word (words : List String)

/-- A value is accepted by an option. -/
def Argument.accepts : Argument → String → Bool
  | .nothing, _ => false
  | .path, value => value != ""
  | .text, _ => true
  | .word words, value => words.contains value

/-- The options of a place in the command line. -/
abbrev Known := List (String × Argument)

/-- The options that were given, the last one first. -/
abbrev Given := List (String × String)

/-- The option in front of commands, which they share. -/
def shared : Known := [("config-dir", .path)]

/-- The options of the command that writes trees. -/
def exportOptions : Known :=
  shared ++ [("markup", .path), ("attributes", .path), ("format", .word ["json", "markup"])]

/-- The options of the command that evaluates trees. -/
def evaluateOptions : Known :=
  shared ++ [("markup", .path), ("attributes", .path), ("new", .path), ("old", .path),
    ("trace", .nothing), ("today", .text)]

/-- The name and the value of an option that may have its value behind an equals sign. -/
def splitOption (word : List Char) : String × Option String :=
  match word.dropWhile (· != '=') with
  | [] => (String.ofList word, none)
  | _ :: value => (String.ofList (word.takeWhile (· != '=')), some (String.ofList value))

/-- The word may be the value of the option in front of it. -/
def isValue (word : String) : Bool := word == "-" || word.toList.head? != some '-'

/-- Notes an option. -/
def note (given : Given) (name : String) (argument : Argument) (value : String) :
    Except Stop Given :=
  if (given.lookup name).isSome || !argument.accepts value then .error .misuse
  else .ok ((name, value) :: given)

/-- Reads options up to the first word that is none: the options and the words from there on. -/
def readOptions (known : Known) (topic : Topic) (given : Given) :
    List String → Except Stop (Given × List String)
  | [] => .ok (given, [])
  | word :: more =>
    match word.toList with
    | ['-'] => .ok (given, word :: more)
    | ['-', '-'] => if more.isEmpty then .ok (given, []) else .error .misuse
    | '-' :: '-' :: option =>
      let (name, value?) := splitOption option
      match known.lookup name, value?, more with
      | none, none, _ => .error (if name = "help" then .help topic else .misuse)
      | none, some _, _ => .error .misuse
      | some .nothing, none, more =>
        if (given.lookup name).isSome then .error .misuse
        else readOptions known topic ((name, "") :: given) more
      | some argument, some value, more => do
        readOptions known topic (← note given name argument value) more
      | some _, none, [] => .error .misuse
      | some argument, none, value :: more =>
        if isValue value then do
          readOptions known topic (← note given name argument value) more
        else .error .misuse
    | '-' :: 'h' :: _ => .error (.help topic)
    | '-' :: _ => .error .misuse
    | _ => .ok (given, word :: more)

/-- Reads the options of a command, behind which nothing may follow. -/
def readAll (known : Known) (topic : Topic) (words : List String) : Except Stop Given := do
  match ← readOptions known topic [] words with
  | (given, []) => return given
  | _ => throw .misuse

/-- The value of an option that has to be given. -/
def need (given : Given) (name : String) : Except Stop String :=
  match given.lookup name with
  | some value => .ok value
  | none => .error .misuse

/-- Reads a command from its options. -/
def readCommand (name : String) (words : List String) : Except Stop (Command × Given) := do
  if name = "export" then
    let given ← readAll exportOptions .export words
    let markup ← need given "markup"
    let attributes ← need given "attributes"
    let format := if given.lookup "format" = some "markup" then Format.markup else Format.json
    return (.export markup attributes format, given)
  else if name = "eval" then
    let given ← readAll evaluateOptions .evaluate words
    let markup ← need given "markup"
    let attributes ← need given "attributes"
    let new ← need given "new"
    return (.evaluate markup attributes new (given.lookup "old") (given.lookup "trace").isSome
      (given.lookup "today"), given)
  else throw .misuse

/-- What is to be explained by the command that helps. -/
def helpTopic : List String → Stop
  | [] => .help .all
  | ["export"] => .help .export
  | ["eval"] => .help .evaluate
  | ["help"] => .help .help
  | _ => .misuse

/-- Reads the arguments behind the name of the program. -/
def readArguments (words : List String) : Except Stop Request := do
  match ← readOptions shared .all [] words with
  | (_, []) => throw .misuse
  | (outer, name :: words) =>
    if name = "help" then throw (helpTopic words)
    let (command, inner) ← readCommand name words
    return { settings := (inner.lookup "config-dir").or (outer.lookup "config-dir"), command }

end Rulebook.CommandLine
