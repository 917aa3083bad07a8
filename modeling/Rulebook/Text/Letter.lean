/-!
# Letters without case

Operator words, tags and attribute names of the markup are compared without regard to the case of
the letters `A` to `Z`. Letters beyond ASCII keep their case.
-/

namespace Rulebook.Text

/-- The text with the letters `a` to `z` written as capitals. -/
def upper (text : List Char) : List Char := text.map Char.toUpper

/-- The text with the letters `A` to `Z` written small. -/
def lower (text : List Char) : List Char := text.map Char.toLower

/-- The string with the letters `a` to `z` written as capitals. -/
def capitals (text : String) : String := String.ofList (upper text.toList)

/-- The string with the letters `A` to `Z` written small. -/
def smalls (text : String) : String := String.ofList (lower text.toList)

/-- Two strings are alike when they differ at most in the case of the letters `A` to `Z`. -/
def alike (left right : String) : Bool := lower left.toList == lower right.toList

@[simp] theorem length_upper (text : List Char) : (upper text).length = text.length := by
  simp [upper]

theorem alike_refl (text : String) : alike text text = true := by simp [alike]

end Rulebook.Text
