import Rulebook.Text.Letter
import Rulebook.Text.Blank

/-!
# The vocabulary of rules

The closed sets of words that rules, rule sets and their markup are made of, each with its spelling.
-/

namespace Rulebook

/-- How the conditions of a rule set are joined. -/
inductive Combinator where
  /-- All conditions have to hold. -/
  | and
  /-- One condition has to hold. -/
  | or
  deriving DecidableEq, Repr, Inhabited

/-- The spelling of a combinator. -/
def Combinator.text : Combinator → String
  | .and => "AND"
  | .or => "OR"

/-- The combinator with a spelling, without regard to case and blanks around it. -/
def Combinator.ofText? (text : String) : Option Combinator :=
  let word := Text.capitals (Text.trimmed text)
  if word = "AND" then some .and else if word = "OR" then some .or else none

/-- How grave the failure of a rule set is. -/
inductive Severity where
  /-- The record is still accepted. -/
  | warning
  /-- The record is refused. -/
  | severe
  deriving DecidableEq, Repr

/-- The spelling of a severity. -/
def Severity.text : Severity → String
  | .warning => "warning"
  | .severe => "severe"

/-- The severity with a spelling, without regard to case and blanks around it. -/
def Severity.ofText? (text : String) : Option Severity :=
  let word := Text.smalls (Text.trimmed text)
  if word = "warning" then some .warning else if word = "severe" then some .severe else none

/-- What a rule set is for. -/
inductive NodeKind where
  /-- The whole tree. -/
  | root
  /-- A branch that is taken when its conditions hold. -/
  | flow
  /-- A check whose failure is reported. -/
  | validate
  deriving DecidableEq, Repr

/-- The name of a node kind in exports. -/
def NodeKind.text : NodeKind → String
  | .root => "root"
  | .flow => "flow"
  | .validate => "validate"

/-- The tag that makes a node of a kind. -/
def NodeKind.tag : NodeKind → String
  | .root => "rules"
  | .flow => "if"
  | .validate => "validate"

/-- The record that a rule or an operand means. -/
inductive Selector where
  /-- The record as it shall become. -/
  | new
  /-- The record as it was. -/
  | old
  /-- No record: everything reads as missing and nothing can be written. -/
  | none
  deriving DecidableEq, Repr, Inhabited

/-- The name of a selector in exports. -/
def Selector.text : Selector → String
  | .new => "new"
  | .old => "old"
  | .none => "none"

/-- The prefix of attribute names that selects the record. -/
def Selector.namePrefix : Selector → String
  | .new => "N."
  | .old => "O."
  | .none => ""

/-- The comparisons of numbers. -/
inductive Comparison where
  /-- Less than. -/
  | lt
  /-- Greater than. -/
  | gt
  /-- At most. -/
  | le
  /-- At least. -/
  | ge
  /-- Equal to. -/
  | eq
  deriving DecidableEq, Repr

/-- The name of a comparison in exports. -/
def Comparison.text : Comparison → String
  | .lt => "lt"
  | .gt => "gt"
  | .le => "le"
  | .ge => "ge"
  | .eq => "eq"

/-- The comparisons of dates. -/
inductive DateComparison where
  /-- Earlier than. -/
  | before
  /-- Later than. -/
  | after
  deriving DecidableEq, Repr

/-- The name of a date comparison in exports. -/
def DateComparison.text : DateComparison → String
  | .before => "before"
  | .after => "after"

/-- The arithmetic of assignments. -/
inductive Arithmetic where
  /-- Addition. -/
  | sum
  /-- Subtraction. -/
  | diff
  /-- Multiplication. -/
  | prod
  /-- Division. -/
  | quot
  deriving DecidableEq, Repr

/-- The name of an arithmetic operation. -/
def Arithmetic.text : Arithmetic → String
  | .sum => "sum"
  | .diff => "diff"
  | .prod => "prod"
  | .quot => "quot"

/-- The result of an arithmetic operation. -/
def Arithmetic.apply : Arithmetic → (left right : Float) → Float
  | .sum, left, right => left + right
  | .diff, left, right => left - right
  | .prod, left, right => left * right
  | .quot, left, right => left / right

/-- What a rule does, without its operands. -/
inductive ClauseKind where
  /-- Tests that a value is there. -/
  | populated
  /-- Tests that a value is in a set. -/
  | domain
  /-- Tests that a number lies between bounds. -/
  | numericLimit
  /-- Tests that a date lies between bounds. -/
  | dateLimit
  /-- Writes a value. -/
  | assignment
  /-- Writes the result of arithmetic. -/
  | arithmetic
  /-- Writes the result of a custom operator. -/
  | custom
  deriving DecidableEq, Repr

/-- The name of a clause kind in exports. -/
def ClauseKind.text : ClauseKind → String
  | .populated => "populated"
  | .domain => "domain"
  | .numericLimit => "arithmetic_limit"
  | .dateLimit => "date_limit"
  | .assignment => "assignment"
  | .arithmetic => "arithmetic"
  | .custom => "custom_op"

/-- A passive clause only reads. -/
def ClauseKind.isPassive : ClauseKind → Bool
  | .populated | .domain | .numericLimit | .dateLimit => true
  | .assignment | .arithmetic | .custom => false

/-- All combinators. -/
def Combinator.all : List Combinator := [.and, .or]

/-- All severities. -/
def Severity.all : List Severity := [.warning, .severe]

/-- All node kinds. -/
def NodeKind.all : List NodeKind := [.root, .flow, .validate]

/-- All selectors. -/
def Selector.all : List Selector := [.new, .old, .none]

/-- All comparisons of numbers. -/
def Comparison.all : List Comparison := [.lt, .gt, .le, .ge, .eq]

/-- All comparisons of dates. -/
def DateComparison.all : List DateComparison := [.before, .after]

/-- All arithmetic operations. -/
def Arithmetic.all : List Arithmetic := [.sum, .diff, .prod, .quot]

/-- All clause kinds. -/
def ClauseKind.all : List ClauseKind :=
  [.populated, .domain, .numericLimit, .dateLimit, .assignment, .arithmetic, .custom]

end Rulebook
