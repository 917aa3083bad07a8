import Rulebook.Json.Quoted

/-!
# JSON in a fixed order

The members of every object in ascending order of their names.
-/

namespace Rulebook.Json

/-- The name that a spelling stands for; a spelling without meaning stands for itself. -/
def nameOf (spelling : String) : String :=
  ((decode spelling.toList).map String.ofList).getD spelling

mutual
/-- The value with the members of all its objects in order. -/
def sorted : Json → Json
  | .array items => .array (sortedItems items)
  | .object members =>
    .object ((sortedMembers members).mergeSort fun left right =>
      decide (nameOf left.1 ≤ nameOf right.1))
  | value => value

/-- Items with the members of all their objects in order. -/
def sortedItems : List Json → List Json
  | [] => []
  | item :: more => item.sorted :: sortedItems more

/-- Members whose values have the members of all their objects in order. -/
def sortedMembers : List (String × Json) → List (String × Json)
  | [] => []
  | (name, value) :: more => (name, value.sorted) :: sortedMembers more
end

end Rulebook.Json
