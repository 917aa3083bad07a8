import Rulebook.Refusal
import Rulebook.Decimal.Numeral
import Rulebook.Calendar.Pattern

/-!
# Numbers and dates in texts

Records hold texts only. A rule that compares numbers or dates reads them from the texts, without
the blanks around them; a fault names the text as it stands in the record.
-/

namespace Rulebook

/-- The finite number that a text stands for. -/
def readNumber (text : String) : Except CoercionFault Float :=
  match Decimal.read? (Text.trim text.toList) with
  | some value => if value.isFinite then .ok value else .error (.notANumber text)
  | none => .error (.notANumber text)

/-- The number that a text stands for, and zero for every other text. -/
def numberOrZero (text : String) : Float :=
  match readNumber text with
  | .ok value => value
  | .error _ => 0.0

/-- The date that a text stands for by a pattern. -/
def readDate (text pattern : String) : Except CoercionFault Calendar.Date :=
  match Calendar.readDate? pattern (Text.trimmed text) with
  | some date => .ok date
  | none => .error (.notADate text pattern)

end Rulebook
