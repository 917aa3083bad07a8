import Rulebook.Toml.Scalar
import Rulebook.Decimal.Shortest
import Rulebook.Text.Letter

/-!
# What a setting means

Texts, numbers and truth values are taken for each other where that has a meaning. A list or a table
is none of them.
-/

namespace Rulebook

namespace Setting

/-- The words that stand for a truth value, without regard to case. -/
def truth? (word : String) : Option Bool :=
  let word := Text.smalls word
  if ["true", "on", "yes"].contains word then some true
  else if ["false", "off", "no"].contains word then some false
  else none

/-- A value as a text. -/
def asText? : Setting → Option String
  | .bool value => some (if value then "true" else "false")
  | .whole value => some (toString value)
  | .number value => some (Decimal.text value)
  | .text value => some value
  | .missing | .list _ | .table _ => none

/-- A value as a truth value: a number is true unless it is zero. -/
def asBool? : Setting → Option Bool
  | .bool value => some value
  | .whole value => some (value != 0)
  | .number value => some (value != 0.0)
  | .text "1" => some true
  | .text "0" => some false
  | .text value => truth? value
  | .missing | .list _ | .table _ => none

/-- A value as a number. -/
def asNumber? : Setting → Option Float
  | .bool value => some (if value then 1.0 else 0.0)
  | .whole value => some (Float.ofInt value)
  | .number value => some value
  | .text value =>
    match truth? value with
    | some value => some (if value then 1.0 else 0.0)
    | none => Decimal.read? value.toList
  | .missing | .list _ | .table _ => none

/-- The count that digits with an optional plus stand for. -/
def countOf? (text : List Char) : Option UInt64 :=
  let run := if text.head? = some '+' then text.drop 1 else text
  if run ≠ [] ∧ run.all Decimal.isDigit ∧ Decimal.digits run < UInt64.size then
    some (Decimal.digits run).toUInt64
  else none

/-- A value as a count. Numbers are rounded, a half away from zero, and brought into the range. -/
def asCount? : Setting → Option UInt64
  | .bool value => some (if value then 1 else 0)
  | .whole value => if 0 ≤ value then some value.toNat.toUInt64 else none
  | .number value => some value.round.toUInt64
  | .text value =>
    match truth? value with
    | some value => some (if value then 1 else 0)
    | none => countOf? value.toList
  | .missing | .list _ | .table _ => none

/-- The whole number of 64 bits that digits with an optional sign stand for. -/
def wholeOf? (text : List Char) : Option Int :=
  let (negative, run) := Decimal.splitSign text
  if run ≠ [] ∧ run.all Decimal.isDigit then
    Toml.inRange? (if negative then -(Decimal.digits run : Int) else Decimal.digits run)
  else none

/-- The value that a text of the environment stands for. -/
def ofWord (text : String) : Setting :=
  if Text.smalls text = "true" then .bool true
  else if Text.smalls text = "false" then .bool false
  else
    match wholeOf? text.toList with
    | some value => .whole value
    | none =>
      match Decimal.read? text.toList with
      | some value => .number value
      | none => .text text

end Setting

end Rulebook
