import Rulebook.Json.Quoted
import Rulebook.Json.Number

/-!
# Structures and choices in JSON

A structure is an object with one member per field, in any order, or an array with one item per
field in the order of declaration. Members of other names are passed over; a field may be given
once. A field that may be absent is absent or `null`.

A choice among names is a string, or an object whose only member has the name and the value `null`.
A choice among structures is tagged: one member, or the first item, names the structure, and the
rest holds its fields. The rest has to be sound in all its parts, and a choice in it may be written
in more ways: with `{}` in place of `null`, and with the place of a tag in place of its name.
-/

namespace Rulebook.Json

/-- The members of an object with their names decoded. -/
def namedMembers? (members : List (String × Json)) : Option (List (String × Json)) :=
  members.mapM fun (spelling, value) =>
    (decode spelling.toList).map fun name => (String.ofList name, value)

/-- The value given for a field: at most one is allowed. -/
def field? (members : List (String × Json)) (name : String) : Option (Option Json) :=
  match members.filter fun entry => entry.1 == name with
  | [] => some none
  | [entry] => some (some entry.2)
  | _ => none

/-- The values given for the fields of a structure, in the order of the names. -/
def fields? (names : List String) : Json → Option (List (Option Json))
  | .array items => if items.length = names.length then some (items.map some) else none
  | .object members => do names.mapM (field? (← namedMembers? members))
  | _ => none

/-- A field that has to be given. -/
def required {α : Type} (read : Json → Option α) (value : Option Json) : Option α :=
  value.bind read

/-- A field that may be absent. -/
def optional {α : Type} (read : Json → Option α) : Option Json → Option (Option α)
  | none => some none
  | some .null => some none
  | some value => (read value).map some

/-- One of the literals `true` and `false`. -/
def bool? : Json → Option Bool
  | .bool value => some value
  | _ => none

/-- The items of an array, each read in the same way. -/
def list? {α : Type} (read : Json → Option α) : Json → Option (List α)
  | .array items => items.mapM read
  | _ => none

/-- Where a choice is read. -/
inductive Site where
  /-- Outside of tagged structures. -/
  | plain
  /-- Among the fields of a tagged structure. -/
  | tagged
  deriving DecidableEq, Repr

/-- A choice among names. -/
def choice? {α : Type} (site : Site) (table : List (String × α)) : Json → Option α
  | .object [(spelling, .null)] => do table.lookup (String.ofList (← decode spelling.toList))
  | .object [(spelling, .object [])] =>
    match site with
    | .plain => none
    | .tagged => do table.lookup (String.ofList (← decode spelling.toList))
  | value => value.text?.bind fun name => table.lookup name

mutual
/-- All strings and member names have a meaning, all numbers are in range, and nothing is nested too
deeply. -/
def isSound : Json → Bool
  | .null | .bool _ => true
  | .deep => false
  | .number spelling => (Json.number spelling).float?.isSome
  | .string spelling => (decode spelling.toList).isSome
  | .array items => allSound items
  | .object members => membersSound members

/-- All items are sound. -/
def allSound : List Json → Bool
  | [] => true
  | item :: more => item.isSound && allSound more

/-- All members are sound. -/
def membersSound : List (String × Json) → Bool
  | [] => true
  | (spelling, value) :: more =>
    (decode spelling.toList).isSome && value.isSound && membersSound more
end

/-- The name that a tag gives, which is one of the names of the choice. -/
def tagName? (site : Site) (names : List String) : Json → Option String
  | .number spelling =>
    match site with
    | .plain => none
    | .tagged => (Json.number spelling).uint64?.bind fun place => names[place.toNat]?
  | value => value.text?.bind fun name => if names.contains name then some name else none

/-- The name of a choice among structures, and the value that holds the fields. -/
def tagged? (site : Site) (tag : String) (names : List String) : Json → Option (String × Json)
  | .array (name :: fields) => do
    if !allSound fields then none
    return (← tagName? site names name, .array fields)
  | .object members => do
    let named ← namedMembers? members
    let name ← (← field? named tag).bind (tagName? site names)
    let fields := members.filter fun entry =>
      (decode entry.1.toList).map String.ofList ≠ some tag
    if !membersSound fields then none
    return (name, .object fields)
  | _ => none

/-- The structure without fields: an object, whatever its members, or an empty array. -/
def noFields? : Json → Option Unit
  | .object _ => some ()
  | .array [] => some ()
  | _ => none

mutual
/-- Reads a structure of which the field `branch` is a list of structures of the same kind; `build`
makes it from the values of its fields and those structures. -/
def tree? {α : Type} (names : List String) (branch : String)
    (build : List (Option Json) → List α → Option α) : Json → Option α
  | .array items => do
    let fields ← (Json.array items).fields? names
    build fields (← branchAt? names branch build (names.idxOf branch) items)
  | .object members => do
    let fields ← (Json.object members).fields? names
    build fields (← branchIn? names branch build members)
  | _ => none

/-- Reads the structures in the item at a place. -/
def branchAt? {α : Type} (names : List String) (branch : String)
    (build : List (Option Json) → List α → Option α) : Nat → List Json → Option (List α)
  | 0, .array items :: _ => trees? names branch build items
  | place + 1, _ :: more => branchAt? names branch build place more
  | _, _ => none

/-- Reads the structures in the member with the name `branch`. -/
def branchIn? {α : Type} (names : List String) (branch : String)
    (build : List (Option Json) → List α → Option α) : List (String × Json) → Option (List α)
  | (spelling, .array items) :: more =>
    if (decode spelling.toList).map String.ofList = some branch then trees? names branch build items
    else branchIn? names branch build more
  | (spelling, _) :: more =>
    if (decode spelling.toList).map String.ofList = some branch then none
    else branchIn? names branch build more
  | [] => none

/-- Reads a list of structures. -/
def trees? {α : Type} (names : List String) (branch : String)
    (build : List (Option Json) → List α → Option α) : List Json → Option (List α)
  | [] => some []
  | item :: more => do
    return (← tree? names branch build item) :: (← trees? names branch build more)
end

end Rulebook.Json
