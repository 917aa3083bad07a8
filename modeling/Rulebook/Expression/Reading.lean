import Rulebook.Expression.Shape
import Rulebook.Expression.Operand

/-!
# Reading rules

A rule is read from its text in the order target, operator, operands; the first fault is reported.
The bounds of a limit come from its operand: a strict limit keeps the distance epsilon from it, and
the side that the comparison leaves open ends at the extreme value.
-/

namespace Rulebook

open Calendar (Date)

namespace RuleReader

/-- The least finite number. -/
def leastNumber : Float := Float.ofBits 0xFFEFFFFFFFFFFFFF

/-- The greatest finite number. -/
def greatestNumber : Float := Float.ofBits 0x7FEFFFFFFFFFFFFF

/-- The bound that an operand makes with an offset. -/
def numericBound (expression : String) (operand : Source) (offset : Float) :
    Except Refusal NumericBound :=
  match operand with
  | .literal text =>
    match readNumber text with
    | .ok value => .ok (.literal (value + offset))
    | .error fault => .error (.expression expression (.coercion fault))
  | .linked link => .ok (.linked link offset)

/-- The range of a limit on numbers. -/
def numericRange (reader : RuleReader) (expression : String) (comparison : Comparison)
    (operand : Source) : Except Refusal (NumericBound × NumericBound) := do
  match comparison with
  | .lt => return (.literal leastNumber, ← numericBound expression operand (-reader.epsilon))
  | .gt => return (← numericBound expression operand reader.epsilon, .literal greatestNumber)
  | .le => return (.literal leastNumber, ← numericBound expression operand 0.0)
  | .ge => return (← numericBound expression operand 0.0, .literal greatestNumber)
  | .eq =>
    return (← numericBound expression operand 0.0, ← numericBound expression operand 0.0)

/-- The range of a limit on dates. -/
def dateRange (comparison : DateComparison) (bound : DateBound) : DateBound × DateBound :=
  match comparison with
  | .before => (.literal Date.first, bound)
  | .after => (bound, .literal Date.last)

/-- A clause with the operands as they are written. -/
abbrev Reading := Except Refusal (Clause × List Source)

/-- The clause of a set of values: each member counts once. -/
def readDomain (reader : RuleReader) (expression : String) (operands : List (List Char))
    (allRows : Bool) : Reading := do
  if operands = [] then throw (.expression expression .noMembers)
  let sources ← reader.readOperands expression operands
  return (.domain sources.eraseDups allRows, sources)

/-- The clause of an assignment. -/
def readAssignment (reader : RuleReader) (expression : String) (operands : List (List Char))
    (defaultOnly : Bool) : Reading := do
  let value ← reader.readOperand expression (← single expression operands)
  return (.assignment value defaultOnly, [value])

/-- The clause of arithmetic. -/
def readArithmetic (reader : RuleReader) (expression : String) (operands : List (List Char))
    (operation : Arithmetic) : Reading := do
  if operands = [] then throw (.expression expression .noOperands)
  let sources ← reader.readOperands expression operands
  return (.arithmetic operation sources, sources)

/-- The clause of an operator that is neither a limit nor custom. -/
def readBasic (reader : RuleReader) (expression : String) (operands : List (List Char))
    (operator : BasicOperator) : Reading :=
  match operator with
  | .notPopulated | .populated => .ok (.populated, [])
  | .notEqual | .equal | .notIn | .isIn => reader.readDomain expression operands false
  | .existsAs => reader.readDomain expression operands true
  | .default => reader.readAssignment expression operands true
  | .assign => reader.readAssignment expression operands false
  | .assignSum => reader.readArithmetic expression operands .sum
  | .assignDiff => reader.readArithmetic expression operands .diff
  | .assignProd => reader.readArithmetic expression operands .prod
  | .assignQuot => reader.readArithmetic expression operands .quot

/-- The clause of an operator. -/
def readClause (reader : RuleReader) (expression : String) (operands : List (List Char))
    (token : OperatorToken) : Reading := do
  match token with
  | .custom name =>
    if maxArguments < operands.length then throw (.expression expression .tooManyArguments)
    let sources ← reader.readOperands expression operands
    return (.custom name sources, sources)
  | .limit comparison =>
    let operand ← reader.readOperand expression (← single expression operands)
    let (min, max) ← reader.numericRange expression comparison operand
    return (.numericLimit comparison min max, [operand])
  | .date comparison =>
    let (operand, bound) ← reader.readDateOperand expression (← single expression operands)
    let (min, max) := dateRange comparison bound
    return (.dateLimit comparison min max (bound == .today), [operand])
  | .basic operator => reader.readBasic expression operands operator

/-- Reads a rule from its text. -/
def read (reader : RuleReader) (expression : String) (id : UInt32) (label : Option String) :
    Except Refusal Rule := do
  let some shape := Shape.ofText? expression.toList | throw (.expression expression .shape)
  let target ← reader.readLink shape.target
  if shape.segment = [] then throw (.expression expression .missingOperator)
  let segment := String.ofList shape.segment
  let some found := findOperator? segment reader.registry.names
    | throw (.expression expression (.unknownOperator segment))
  let operands := (shape.operands.map splitOperands).getD []
  let (clause, sources) ← reader.readClause expression operands found.token
  return {
    id, label
    expression := Text.trimmed expression
    operator := found.text
    target := target.attr
    record := target.record
    negated := found.negated || shape.negated
    operands := sources
    clause }

end RuleReader

end Rulebook
