import Rulebook.Attribute
import Rulebook.Operator.Vocabulary
import Rulebook.Calendar.Date

/-!
# Rules

A rule has a target, which is an attribute in one of the two records, and a clause that says what is
tested or written there. Operands are literals or attributes; an attribute is read anew each time
the rule runs.
-/

namespace Rulebook

open Calendar (Date)

/-- An attribute in a record. -/
structure Link where
  /-- The attribute. -/
  attr : Attribute
  /-- The record. -/
  record : Selector
  deriving DecidableEq, Repr

/-- Where the text of an operand comes from. -/
inductive Source where
  /-- The text itself. -/
  | literal (text : String)
  /-- An attribute that is read when the rule runs. -/
  | linked (link : Link)
  deriving DecidableEq, Repr

/-- The operand is a text itself. -/
def Source.isLiteral : Source → Bool
  | .literal _ => true
  | .linked _ => false

/-- One end of a range of numbers, which belongs to the range. -/
inductive NumericBound where
  /-- A number. -/
  | literal (value : Float)
  /-- The number that an attribute holds, plus an offset. -/
  | linked (link : Link) (offset : Float)
  deriving DecidableEq

/-- One end of a range of dates, which does not belong to the range. -/
inductive DateBound where
  /-- A date. -/
  | literal (date : Date)
  /-- The date of the evaluation. -/
  | today
  /-- The date that an attribute holds. -/
  | linked (link : Link)
  deriving DecidableEq, Repr

/-- What a rule tests or writes. -/
inductive Clause where
  /-- The target is not empty. -/
  | populated
  /-- The target is one of the members; with `allRows`, the target in some row is. -/
  | domain (members : List Source) (allRows : Bool)
  /-- The target is a number from `min` to `max`. -/
  | numericLimit (comparison : Comparison) (min max : NumericBound)
  /-- The target is a date between `min` and `max`; `today` tells that one end is the date of the
  evaluation. -/
  | dateLimit (comparison : DateComparison) (min max : DateBound) (today : Bool)
  /-- The target becomes the value; with `defaultOnly`, only where it was empty. -/
  | assignment (value : Source) (defaultOnly : Bool)
  /-- The target becomes the whole part of the result of arithmetic. -/
  | arithmetic (operation : Arithmetic) (operands : List Source)
  /-- The target becomes the value of a custom operator. -/
  | custom (name : String) (arguments : List Source)
  deriving DecidableEq

/-- The kind of a clause. -/
def Clause.kind : Clause → ClauseKind
  | .populated => .populated
  | .domain .. => .domain
  | .numericLimit .. => .numericLimit
  | .dateLimit .. => .dateLimit
  | .assignment .. => .assignment
  | .arithmetic .. => .arithmetic
  | .custom .. => .custom

/-- A rule. -/
structure Rule where
  /-- The number of the rule. -/
  id : UInt32
  /-- The name that the document gives the rule. -/
  label : Option String
  /-- The text of the rule. -/
  expression : String
  /-- The text of the operator phrase. -/
  operator : String
  /-- The attribute that is tested or written. -/
  target : Attribute
  /-- The record in which it is tested or written. -/
  record : Selector
  /-- The test holds when its condition does not. -/
  negated : Bool
  /-- The operands as they are written. -/
  operands : List Source
  /-- What is tested or written. -/
  clause : Clause
  deriving DecidableEq

/-- A passive rule only reads. -/
def Rule.isPassive (rule : Rule) : Bool := rule.clause.kind.isPassive

end Rulebook
