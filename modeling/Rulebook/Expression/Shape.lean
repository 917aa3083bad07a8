import Rulebook.Operator.Phrase

/-!
# The shape of a rule's text

A rule is written as an optional `NOT`, the target in parentheses, the operator segment, and
optionally the operands in parentheses. Blanks may stand around all parts. The target holds no
parentheses and the segment no opening one, so the operands begin at the first opening parenthesis
behind the target; they end at the last closing one, behind which only blanks may stand.
-/

namespace Rulebook

/-- The parts of a rule's text. -/
structure Shape where
  /-- The text begins with `NOT`. -/
  negated : Bool
  /-- The text between the first pair of parentheses. -/
  target : List Char
  /-- The text between target and operands without the blanks around it. -/
  segment : List Char
  /-- The text between the parentheses of the operands, if there are any. -/
  operands : Option (List Char)
  deriving DecidableEq, Repr

namespace Shape

/-- The text behind a leading `NOT` and the blanks that have to follow it. -/
def afterNot? : List Char → Option (List Char)
  | n :: o :: t :: blank :: rest =>
    if Text.upper [n, o, t] = notWord ∧ Text.isBlank blank then some (Text.trimStart rest) else none
  | _ => none

/-- A character that is no parenthesis. -/
def isPlain (c : Char) : Bool := c != '(' && c != ')'

/-- The text in a pair of parentheses at the front, which holds none, and what follows it. -/
def parenthesis? : List Char → Option (List Char × List Char)
  | '(' :: rest =>
    match rest.dropWhile isPlain with
    | ')' :: more => some (rest.takeWhile isPlain, more)
    | _ => none
  | _ => none

/-- The operands: nothing, or a text from the parenthesis at the front to the one at the end. -/
def operands? : List Char → Option (Option (List Char))
  | [] => some none
  | _ :: rest =>
    let body := Text.trimEnd rest
    if body.getLast? = some ')' then some (some body.dropLast) else none

/-- The parts behind a leading `NOT`. -/
def unsigned? (negated : Bool) (text : List Char) : Option Shape := do
  let (target, rest) ← parenthesis? text
  let operands ← operands? (rest.dropWhile (· != '('))
  return ⟨negated, target, Text.trim (rest.takeWhile (· != '(')), operands⟩

/-- The parts of a rule's text. -/
def ofText? (text : List Char) : Option Shape :=
  match afterNot? (Text.trimStart text) with
  | some rest => unsigned? true rest
  | none => unsigned? false (Text.trimStart text)

end Shape

end Rulebook
