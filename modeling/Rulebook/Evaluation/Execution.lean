import Rulebook.Rule
import Rulebook.Record
import Rulebook.Coercion
import Rulebook.Operator.Registry

/-!
# Running one rule

A rule runs on the pair of the new and the old record. A passive rule tests and changes nothing; the
others write the first row of their target. Texts that are no number or date where one is needed,
results that are no finite number, and a missing target record make the rule fail with a message;
only a custom operator without a function stops the evaluation.
-/

namespace Rulebook

open Calendar (Date)

/-- The records that an evaluation reads and writes. -/
structure Records where
  /-- The record as it shall become. -/
  new : Record := {}
  /-- The record as it was. -/
  old : Record := {}
  deriving DecidableEq

namespace Records

/-- The record that a selector means. -/
def select? (records : Records) : Selector → Option Record
  | .new => some records.new
  | .old => some records.old
  | .none => none

/-- The text of an attribute in the first row, empty if it is missing. -/
def value (records : Records) (link : Link) : String :=
  ((records.select? link.record).bind fun record => record.value? link.attr).getD ""

/-- The texts of an attribute in all rows that have it. -/
def values (records : Records) (link : Link) : List String :=
  ((records.select? link.record).map fun record => record.values link.attr).getD []

/-- The texts of an attribute in all rows. -/
def column (records : Records) (link : Link) : List String :=
  ((records.select? link.record).map fun record => record.column link.attr).getD []

/-- Writes the text of an attribute in the first row of its group. -/
def write? (records : Records) (link : Link) (text : String) : Option Records :=
  match link.record with
  | .new => some { records with new := records.new.setValue link.attr text }
  | .old => some { records with old := records.old.setValue link.attr text }
  | .none => none

end Records

/-- What a rule is run with besides the records. -/
structure Environment where
  /-- The date of the evaluation. -/
  today : Date
  /-- The pattern of dates in the records. -/
  datePattern : String := Calendar.defaultPattern
  /-- The custom operators. -/
  registry : Registry := {}

/-- Why a rule failed that could not be decided or carried out. -/
inductive RuleFault where
  /-- A text is no value of the kind that is needed. -/
  | coercion (fault : CoercionFault)
  /-- The result of arithmetic is no finite number. -/
  | notFinite (operation : Arithmetic)
  /-- There is no record to write into. -/
  | noRecord (target : String)
  deriving DecidableEq, Repr

/-- The wording of a fault of the rule with a number. -/
def RuleFault.message (id : UInt32) : RuleFault → String
  | .coercion fault => s!"规则 {id}: {fault.message}"
  | .notFinite operation => s!"规则 {id}: {operation.text} 运算结果无效"
  | .noRecord target => s!"规则 {id}: 未指定目标记录，无法写入 {target}"

/-- The result of running a rule. -/
structure Outcome where
  /-- The rule passed. -/
  passed : Bool
  /-- Why the rule failed, if it could not be decided or carried out. -/
  message : Option String := none
  deriving DecidableEq, Repr

/-- Why a rule was refused, and the records as they are then. -/
structure Stopped where
  /-- The refusal. -/
  refusal : Refusal
  /-- The records. -/
  records : Records
  deriving DecidableEq

instance : Coe Stopped Refusal := ⟨Stopped.refusal⟩

namespace Rule

/-- The target of a rule. -/
def link (rule : Rule) : Link := ⟨rule.target, rule.record⟩

/-- The outcome of a test, which the rule may negate. -/
def decided (rule : Rule) (holds : Bool) : Outcome := { passed := holds != rule.negated }

/-- The outcome of a rule with a fault. -/
def failed (rule : Rule) (fault : RuleFault) : Outcome :=
  { passed := false, message := some (fault.message rule.id) }

/-- The outcome of a test that may have a fault. -/
def checked (rule : Rule) : Except CoercionFault Bool → Outcome
  | .ok holds => rule.decided holds
  | .error fault => rule.failed (.coercion fault)

end Rule

/-- The text of an operand: a literal, or an attribute in its first row. -/
def Source.value (records : Records) : Source → String
  | .literal text => text
  | .linked link => records.value link

/-- The texts that a member of a set stands for: a literal, or an attribute in all rows. -/
def Source.values (records : Records) : Source → List String
  | .literal text => [text]
  | .linked link => records.values link

/-- The texts that arithmetic takes from an operand: one per row, and an empty one if there is no
row. -/
def Source.column (records : Records) : Source → List String
  | .literal text => [text]
  | .linked link =>
    match records.column link with
    | [] => [""]
    | texts => texts

/-- The number at the end of a range. -/
def NumericBound.value (records : Records) : NumericBound → Except CoercionFault Float
  | .literal value => .ok value
  | .linked link offset => do return (← readNumber (records.value link)) + offset

/-- The date at the end of a range. -/
def DateBound.value (records : Records) (environment : Environment) :
    DateBound → Except CoercionFault Date
  | .literal date => .ok date
  | .today => .ok environment.today
  | .linked link => readDate (records.value link) environment.datePattern

namespace Rule

/-- The target is not empty. -/
def isPopulated (rule : Rule) (records : Records) : Bool :=
  records.value rule.link != ""

/-- The texts of the target that are looked for in a set. -/
def candidates (rule : Rule) (records : Records) (allRows : Bool) : List String :=
  if allRows then
    match records.values rule.link with
    | [] => [""]
    | texts => texts
  else [records.value rule.link]

/-- One of the texts of the target is in the set of the members. -/
def isInDomain (rule : Rule) (records : Records) (members : List Source) (allRows : Bool) : Bool :=
  (rule.candidates records allRows).any fun text =>
    (members.flatMap fun member => member.values records).contains text

/-- The target is a number in a range, the ends included. -/
def isInRange (rule : Rule) (records : Records) (min max : NumericBound) :
    Except CoercionFault Bool := do
  let value ← readNumber (records.value rule.link)
  let min ← min.value records
  let max ← max.value records
  return decide (min ≤ value) && decide (value ≤ max)

/-- The target is a date between two others. -/
def isBetween (rule : Rule) (records : Records) (environment : Environment) (min max : DateBound) :
    Except CoercionFault Bool := do
  let date ← readDate (records.value rule.link) environment.datePattern
  let min ← min.value records environment
  let max ← max.value records environment
  return decide (min < date) && decide (date < max)

/-- The result of arithmetic on the numbers of the operands, from the left; zero without numbers. -/
def compute (records : Records) (operation : Arithmetic) (operands : List Source) : Float :=
  match (operands.flatMap fun operand => operand.column records).map numberOrZero with
  | [] => 0.0
  | first :: more => more.foldl operation.apply first

/-- Writes a text to the target. -/
def write (rule : Rule) (records : Records) (text : String) : Outcome × Records :=
  match records.write? rule.link text with
  | some written => ({ passed := true }, written)
  | none => (rule.failed (.noRecord rule.target.name), records)

/-- Runs a rule: its outcome, or why it was refused, with the records behind it. -/
def execute (rule : Rule) (environment : Environment) (records : Records) :
    Except Stopped (Outcome × Records) :=
  match rule.clause with
  | .populated => .ok (rule.decided (rule.isPopulated records), records)
  | .domain members allRows =>
    .ok (rule.decided (rule.isInDomain records members allRows), records)
  | .numericLimit _ min max => .ok (rule.checked (rule.isInRange records min max), records)
  | .dateLimit _ min max _ =>
    .ok (rule.checked (rule.isBetween records environment min max), records)
  | .assignment value defaultOnly =>
    if defaultOnly && records.value rule.link != "" then .ok ({ passed := true }, records)
    else .ok (rule.write records (value.value records))
  | .arithmetic operation operands =>
    let result := compute records operation operands
    if result.isFinite then .ok (rule.write records (Decimal.wholePart result))
    else .ok (rule.failed (.notFinite operation), records)
  | .custom name arguments =>
    match environment.registry.invoke name
        (arguments.map fun argument => argument.value records) with
    | .ok text => .ok (rule.write records text)
    | .error refusal => .error ⟨refusal, records⟩

end Rule

end Rulebook
