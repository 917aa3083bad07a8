import Rulebook.Toml.Document

/-!
# Ways to settings

The name of an entry may lead through several tables and lists: names are separated by points, and
the places of items are given in brackets.
-/

namespace Rulebook.Setting

/-- The name at the start of a way, and what follows it. -/
def takeName (text : List Char) : List Char × List Char :=
  (text.takeWhile Toml.isBare, text.dropWhile Toml.isBare)

/-- The index in brackets at the start of a text, and what follows it. -/
def takeIndex? (text : List Char) : Option (Int × List Char) :=
  let text := text.dropWhile Toml.isSpace
  let negative := text.head? = some '-'
  let text := if negative then text.drop 1 else text
  let run := text.takeWhile Decimal.isDigit
  if run = [] ∨ Int64.maxValue.toInt < Decimal.digits run then none
  else
    match (text.dropWhile Decimal.isDigit).dropWhile Toml.isSpace with
    | ']' :: rest =>
      some (if negative then -(Decimal.digits run : Int) else Decimal.digits run, rest)
    | _ => none

/-- The steps behind the first name of a way, at most `bound` of them. -/
def stepsUpTo? : (bound : Nat) → List Char → Option (List Step)
  | _, [] => some []
  | 0, _ :: _ => none
  | bound + 1, '.' :: rest =>
    let (name, rest) := takeName rest
    if name = [] then none
    else (stepsUpTo? bound rest).map (.key (String.ofList name) :: ·)
  | bound + 1, '[' :: rest =>
    (takeIndex? rest).bind fun (index, rest) => (stepsUpTo? bound rest).map (.place index :: ·)
  | _, _ => none

/-- The way that a name describes: names with points between and indices in brackets. Any other name
is a way of one step. -/
def way (name : String) : List Step :=
  let (first, rest) := takeName name.toList
  if first = [] then [.key name]
  else
    match stepsUpTo? rest.length rest with
    | some steps => .key (String.ofList first) :: steps
    | none => [.key name]

/-- Lays the entries of a source over older ones. Their names are ways. -/
def layer (old : Setting) (entries : List (String × Setting)) : Setting :=
  entries.foldl (fun old entry => assign entry.2 (way entry.1) old) old

end Rulebook.Setting
