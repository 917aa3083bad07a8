import Rulebook.Toml.Document
import Rulebook.Json.Reader

/-!
# Files with settings

A file with settings is written in TOML. Where there is no file of its name, the name of a format
may be added to it, and the file is then written in that format. A mark of byte order in front of a
file does not belong to its text.
-/

namespace Rulebook

mutual
/-- The value that a JSON value stands for. -/
def Setting.ofJson? : Json → Option Setting
  | .null => some .missing
  | .bool value => some (.bool value)
  | .number spelling =>
    match (Json.number spelling).int64? with
    | some value => some (.whole value)
    | none => (Json.number spelling).float?.map .number
  | .string spelling => (Json.decode spelling.toList).map fun text => .text (String.ofList text)
  | .array items => (Setting.itemsOfJson? items).map .list
  | .object members => (Setting.entriesOfJson? [] members).map .table
  | .deep => none

/-- The items that JSON values stand for. -/
def Setting.itemsOfJson? : List Json → Option (List Setting)
  | [] => some []
  | item :: more => do return (← Setting.ofJson? item) :: (← Setting.itemsOfJson? more)

/-- The entries that the members of an object add to others. Of members with the same name the last
one counts. -/
def Setting.entriesOfJson? (entries : List (String × Setting)) :
    List (String × Json) → Option (List (String × Setting))
  | [] => some entries
  | (spelling, value) :: more => do
    let name ← Json.decode spelling.toList
    let value ← Setting.ofJson? value
    Setting.entriesOfJson? (Setting.update (String.ofList name) (fun _ => value) entries) more
end

namespace Settings

/-- A format of files with settings. -/
inductive FileFormat where
  /-- Tables and entries line by line. -/
  | toml
  /-- One object. -/
  | json
  deriving DecidableEq, Repr

namespace FileFormat

/-- The end of the names of files. -/
def ending : FileFormat → String
  | .toml => ".toml"
  | .json => ".json"

/-- All formats. -/
def all : List FileFormat := [.toml, .json]

/-- The entries of a text. -/
def read? (text : String) : FileFormat → Option (List (String × Setting))
  | .toml => Toml.read? text
  | .json => do
    match ← Setting.ofJson? (← Json.read? text) with
    | .table entries => some entries
    | _ => none

end FileFormat

/-- A text without the mark of byte order in front of it. -/
def withoutMark (text : String) : String :=
  match text.toList with
  | '\ufeff' :: rest => String.ofList rest
  | _ => text

/-- The names under which a file is looked for, in order, each with the format that it implies. -/
def candidates (name : String) : List (String × FileFormat) :=
  (name, .toml) :: FileFormat.all.map fun format => (name ++ format.ending, format)

/-- The entries of the first of some files that is there. No file gives no entries, and one that
cannot be read in its format is refused. -/
def firstEntries? (file? : String → Option String) :
    List (String × FileFormat) → Option (List (String × Setting))
  | [] => some []
  | (name, format) :: more =>
    match file? name with
    | none => firstEntries? file? more
    | some text => format.read? (withoutMark text)

end Settings

end Rulebook
