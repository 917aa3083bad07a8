import Rulebook.Rule
import Rulebook.Coercion
import Rulebook.Operator.Registry

/-!
# Operands

Operands are separated by commas. A text in single quotes is a literal in which references stand for
characters, so that a literal can hold a comma; a number is a literal as it stands; every other
operand names an attribute. The prefix `O.` of a name selects the old record, every other prefix and
none at all the new one.
-/

namespace Rulebook

/-- What rules are read with. -/
structure RuleReader where
  /-- The attributes that may be named. -/
  catalog : Catalog
  /-- The custom operators that may be used. -/
  registry : Registry := {}
  /-- The distance that a strict limit keeps from its bound. -/
  epsilon : Float := 0.001
  /-- The pattern of dates. -/
  datePattern : String := Calendar.defaultPattern

namespace RuleReader

/-- The operands between the parentheses; blanks alone are no operand. -/
def splitOperands (text : List Char) : List (List Char) :=
  if Text.trim text = [] then [] else (Text.pieces (· == ',') text).map Text.trim

/-- The text between single quotes. -/
def unquoted? : List Char → Option (List Char)
  | '\'' :: rest => if rest.getLast? = some '\'' then some rest.dropLast else none
  | _ => none

/-- The record that a prefix selects. -/
def recordOf (namePrefix : List Char) : Selector :=
  if Text.upper (Text.trim namePrefix) = ['O'] then .old else .new

/-- The record and the name in a reference to an attribute. -/
def splitReference (text : List Char) : Selector × List Char :=
  let text := Text.trim text
  match text.dropWhile (· != '.') with
  | [] => (.new, text)
  | _ :: name => (recordOf (text.takeWhile (· != '.')), Text.trim name)

/-- The attribute that a reference means. -/
def readLink (reader : RuleReader) (text : List Char) : Except Refusal Link :=
  let (record, name) := splitReference text
  match reader.catalog.byName? (String.ofList name) with
  | some attr => .ok ⟨attr, record⟩
  | none => .error (.unknownAttribute (String.ofList name))

/-- One operand. Faults name the text of the whole rule. -/
def readOperand (reader : RuleReader) (expression : String) (operand : List Char) :
    Except Refusal Source :=
  let operand := Text.trim operand
  if operand = [] then .error (.expression expression .emptyOperand)
  else
    match unquoted? operand with
    | some body =>
      match Text.unescape body with
      | .ok text => .ok (.literal (String.ofList text))
      | .error fault => .error (.expression expression (.reference fault))
    | none =>
      match readNumber (String.ofList operand) with
      | .ok _ => .ok (.literal (String.ofList operand))
      | .error _ => do return .linked (← reader.readLink operand)

/-- A list of operands. -/
def readOperands (reader : RuleReader) (expression : String) (operands : List (List Char)) :
    Except Refusal (List Source) :=
  operands.mapM (reader.readOperand expression)

/-- The operand of an operator that takes one. -/
def single (expression : String) (operands : List (List Char)) : Except Refusal (List Char) :=
  match operands with
  | [operand] => .ok operand
  | _ => .error (.expression expression (.operandCount operands.length))

/-- The word for the date of the evaluation. -/
def todayWord : String := "TODAY"

/-- The operand of a limit on dates: the word for today, a date with or without quotes, or an
attribute. A quoted text has to be a date. -/
def readDateOperand (reader : RuleReader) (expression : String) (operand : List Char) :
    Except Refusal (Source × DateBound) :=
  let operand := Text.trim operand
  let body := unquoted? operand
  let text := String.ofList (Text.trim (body.getD operand))
  if Text.alike text todayWord then .ok (.literal todayWord, .today)
  else
    match readDate text reader.datePattern with
    | .ok date => .ok (.literal text, .literal date)
    | .error fault =>
      if body.isSome then .error (.expression expression (.coercion fault))
      else do
        let link ← reader.readLink operand
        return (.linked link, .linked link)

end RuleReader

end Rulebook
