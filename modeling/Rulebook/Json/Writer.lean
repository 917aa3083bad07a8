import Rulebook.Json.Quoted

/-!
# Writing JSON

Values are written in two layouts. The compact one has no blanks outside strings. The indented one
puts each item and member on a line of its own, two blanks deeper than the bracket that opens it;
empty arrays and objects stay on one line. What is nested too deeply to be read is written as
`null`.
-/

namespace Rulebook.Json

/-- A quoted spelling. -/
def quoted (spelling : String) : List Char := '"' :: (spelling.toList ++ ['"'])

/-- A line break and the blanks at the start of a line of some depth. -/
def newLine (depth : Nat) : List Char := '\n' :: List.replicate (2 * depth) ' '

mutual
/-- The compact form of a value. -/
def compactChars : Json → List Char
  | .null | .deep => ['n', 'u', 'l', 'l']
  | .bool true => ['t', 'r', 'u', 'e']
  | .bool false => ['f', 'a', 'l', 's', 'e']
  | .number spelling => spelling.toList
  | .string spelling => quoted spelling
  | .array items => '[' :: (compactItems items ++ [']'])
  | .object members => '{' :: (compactMembers members ++ ['}'])

/-- Items with commas between. -/
def compactItems : List Json → List Char
  | [] => []
  | [item] => compactChars item
  | item :: more => compactChars item ++ ',' :: compactItems more

/-- Members with commas between. -/
def compactMembers : List (String × Json) → List Char
  | [] => []
  | [(name, value)] => quoted name ++ ':' :: compactChars value
  | (name, value) :: more =>
    quoted name ++ ':' :: (compactChars value ++ ',' :: compactMembers more)
end

mutual
/-- The indented form of a value whose first line is at some depth. -/
def indentedChars (depth : Nat) : Json → List Char
  | .null | .deep => ['n', 'u', 'l', 'l']
  | .bool true => ['t', 'r', 'u', 'e']
  | .bool false => ['f', 'a', 'l', 's', 'e']
  | .number spelling => spelling.toList
  | .string spelling => quoted spelling
  | .array [] => ['[', ']']
  | .array (item :: more) =>
    '[' :: (newLine (depth + 1) ++ indentedChars (depth + 1) item ++
      indentedItems (depth + 1) more ++ newLine depth ++ [']'])
  | .object [] => ['{', '}']
  | .object ((name, value) :: more) =>
    '{' :: (newLine (depth + 1) ++ quoted name ++ [':', ' '] ++ indentedChars (depth + 1) value ++
      indentedMembers (depth + 1) more ++ newLine depth ++ ['}'])

/-- Further items, each behind a comma on a line of its own. -/
def indentedItems (depth : Nat) : List Json → List Char
  | [] => []
  | item :: more => ',' :: (newLine depth ++ indentedChars depth item ++ indentedItems depth more)

/-- Further members, each behind a comma on a line of its own. -/
def indentedMembers (depth : Nat) : List (String × Json) → List Char
  | [] => []
  | (name, value) :: more =>
    ',' :: (newLine depth ++ quoted name ++ [':', ' '] ++ indentedChars depth value ++
      indentedMembers depth more)
end

/-- The compact text of a value. -/
def compact (value : Json) : String := String.ofList (compactChars value)

/-- The indented text of a value. -/
def indented (value : Json) : String := String.ofList (indentedChars 0 value)

end Rulebook.Json
