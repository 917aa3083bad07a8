import Rulebook.RuleSet

/-!
# Reports

The report of an evaluation lists the rule sets that were visited, the rules that were run and the
failures, each in the order in which it happened. An evaluation is passed when no failure is severe.
The time that the evaluation took is left out: it is read off a clock, and nothing depends on it.
-/

namespace Rulebook

/-- The conditions of a rule set did not hold. -/
structure Failure where
  /-- The number of the rule set. -/
  setId : UInt32
  /-- How grave the failure is. -/
  severity : Severity
  /-- The description of the rule set. -/
  description : String
  /-- The name of the failure that other systems know. -/
  customId : Option String
  /-- The message of the rule set. -/
  message : Option String
  /-- What kept the conditions from holding. -/
  diagnostics : List String
  deriving DecidableEq, Repr

/-- One step of an evaluation. -/
inductive TraceEntry where
  /-- The conditions of a rule set are tested next. -/
  | entered (setId : UInt32) (combinator : Combinator) (conditions : Nat)
  /-- A rule was run. -/
  | fired (ruleId : UInt32) (expression : String) (passed : Bool)
  /-- A condition does not hold, so not all do. -/
  | conditionFailed (setId ruleId : UInt32)
  /-- All conditions hold. -/
  | allHold (setId : UInt32)
  /-- A condition holds, so one does. -/
  | conditionHolds (setId ruleId : UInt32)
  /-- No condition holds. -/
  | noneHolds (setId : UInt32)
  /-- The rest of a rule set is passed over. -/
  | skipped (setId : UInt32)
  /-- A rule that is no condition was carried out. -/
  | carriedOut (setId : UInt32) (expression : String) (passed : Bool)
  deriving DecidableEq, Repr

/-- The wording of a step. -/
def TraceEntry.text : TraceEntry → String
  | .entered setId combinator conditions =>
    s!"规则集 {setId}: 开始评估 {combinator.text} 条件 (共 {conditions} 条规则)"
  | .fired ruleId expression passed =>
    s!"规则 {ruleId}: {expression} => " ++ (if passed then "MATCHED" else "NOT_MATCHED")
  | .conditionFailed setId ruleId => s!"规则集 {setId}: AND 短路 - 规则 {ruleId} 不满足"
  | .allHold setId => s!"规则集 {setId}: AND 条件全部满足"
  | .conditionHolds setId ruleId => s!"规则集 {setId}: OR 短路 - 规则 {ruleId} 满足"
  | .noneHolds setId => s!"规则集 {setId}: OR 条件无满足"
  | .skipped setId => s!"规则集 {setId}: 条件不成立，跳过子节点"
  | .carriedOut setId expression passed =>
    s!"规则集 {setId}: 执行 {expression} => " ++ (if passed then "OK" else "FAILED")

/-- What an evaluation found. -/
structure Report where
  /-- No failure is severe. -/
  passed : Bool := true
  /-- The failures, in order of visit. -/
  failures : List Failure := []
  /-- The numbers of the rules that were run, in order. -/
  fired : List UInt32 := []
  /-- The numbers of the rule sets that were visited, in order. -/
  visited : List UInt32 := []
  /-- The steps of the evaluation, if they were asked for. -/
  trace : List TraceEntry := []
  deriving DecidableEq, Repr

namespace Report

/-- The numbers of the rule sets with failures of a severity. -/
def setIds (report : Report) (severity : Severity) : List UInt32 :=
  (report.failures.filter fun failure => failure.severity == severity).map Failure.setId

/-- The numbers of the rule sets with failures. -/
def failedSetIds (report : Report) : List UInt32 := report.failures.map Failure.setId

/-- The report with the verdict that its failures give. -/
def judged (report : Report) : Report :=
  { report with passed := report.failures.all fun failure => failure.severity != .severe }

end Report

end Rulebook
