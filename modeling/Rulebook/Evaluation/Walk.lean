import Rulebook.RuleTree
import Rulebook.Evaluation.Execution
import Rulebook.Evaluation.Report

/-!
# Evaluating a tree

The walk visits a rule set, tests its conditions from the left until they are decided and, when they
hold, runs its other rules and visits its children. Rules read what earlier rules wrote. A custom
operator without a function stops the walk; what was written before stays written.
-/

namespace Rulebook

open Calendar (Date)

/-- How trees are evaluated on a given day. -/
structure Evaluator where
  /-- The date of the evaluation. -/
  today : Date
  /-- The pattern of dates in the records. -/
  datePattern : String := Calendar.defaultPattern
  /-- The report lists the steps. -/
  traced : Bool := false

/-- The records and the report so far. -/
structure Walk where
  /-- The records. -/
  records : Records
  /-- The report. -/
  report : Report := {}
  deriving DecidableEq

/-- A part of a walk, which may stop it. -/
abbrev Walking := EStateM Refusal Walk

/-- What a walk keeps in hand: how to evaluate, and what rules are run with. -/
structure Guide where
  /-- The report lists the steps. -/
  traced : Bool
  /-- What rules are run with. -/
  environment : Environment

namespace Guide

/-- Notes a step if steps are asked for. -/
def note (guide : Guide) (entry : TraceEntry) : Walking Unit :=
  modify fun walk =>
    if guide.traced then
      { walk with report := { walk.report with trace := walk.report.trace ++ [entry] } }
    else walk

/-- Notes that a rule set is visited. -/
def enter (id : UInt32) : Walking Unit :=
  modify fun walk =>
    { walk with report := { walk.report with visited := walk.report.visited ++ [id] } }

/-- Notes a failure. -/
def fail (failure : Failure) : Walking Unit :=
  modify fun walk =>
    { walk with report := { walk.report with failures := walk.report.failures ++ [failure] } }

/-- Runs a rule, which is noted before it runs. -/
def fire (guide : Guide) (rule : Rule) : Walking Outcome := do
  modify fun walk =>
    { walk with report := { walk.report with fired := walk.report.fired ++ [rule.id] } }
  match rule.execute guide.environment (← get).records with
  | .error stopped =>
    modify fun walk => { walk with records := stopped.records }
    throw stopped.refusal
  | .ok (outcome, records) =>
    modify fun walk => { walk with records }
    guide.note (.fired rule.id rule.expression outcome.passed)
    return outcome

/-- Why a condition does not hold. -/
def diagnostic (rule : Rule) (outcome : Outcome) : String :=
  outcome.message.getD s!"规则 {rule.id} 不满足: {rule.expression}"

/-- Tests whether all conditions hold, up to the first that does not. -/
def testAll (guide : Guide) (setId : UInt32) : List Rule → Walking (Bool × List String)
  | [] => do
    guide.note (.allHold setId)
    return (true, [])
  | rule :: more => do
    let outcome ← guide.fire rule
    if outcome.passed then guide.testAll setId more
    else
      guide.note (.conditionFailed setId rule.id)
      return (false, [diagnostic rule outcome])

/-- Tests whether one condition holds, up to the first that does; `diagnostics` tells of the
conditions before. -/
def testAny (guide : Guide) (setId : UInt32) (diagnostics : List String) :
    List Rule → Walking (Bool × List String)
  | [] => do
    guide.note (.noneHolds setId)
    return (false, diagnostics)
  | rule :: more => do
    let outcome ← guide.fire rule
    if outcome.passed then
      guide.note (.conditionHolds setId rule.id)
      return (true, [])
    else guide.testAny setId (diagnostics ++ [diagnostic rule outcome]) more

/-- Tests the conditions of a rule set: whether they hold, and why not. Without conditions a rule
set holds. -/
def test (guide : Guide) (head : RuleSet.Head) : Walking (Bool × List String) :=
  match head.evaluative, head.combinator with
  | [], _ => return (true, [])
  | rules, .and => guide.testAll head.id rules
  | rules, .or => guide.testAny head.id [] rules

/-- Runs the rules of a rule set that are no conditions. -/
def carryOut (guide : Guide) (setId : UInt32) : List Rule → Walking Unit
  | [] => return ()
  | rule :: more => do
    let outcome ← guide.fire rule
    guide.note (.carriedOut setId rule.expression outcome.passed)
    guide.carryOut setId more

/-- Notes that the conditions of a rule set do not hold; it is a failure if the rule set has a
severity. -/
def skip (guide : Guide) (head : RuleSet.Head) (diagnostics : List String) : Walking Unit := do
  match head.severity with
  | some severity =>
    fail ⟨head.id, severity, head.description, head.customId, head.failureMessage, diagnostics⟩
  | none => pure ()
  guide.note (.skipped head.id)

mutual
/-- Visits a rule set. -/
def visit (guide : Guide) : RuleSet → Walking Unit
  | ⟨head, children⟩ => do
    enter head.id
    guide.note (.entered head.id head.combinator head.evaluative.length)
    let (holds, diagnostics) ← guide.test head
    if holds then
      guide.carryOut head.id head.assertive
      guide.visitAll children
    else guide.skip head diagnostics

/-- Visits rule sets in order. -/
def visitAll (guide : Guide) : List RuleSet → Walking Unit
  | [] => return ()
  | set :: more => do
    guide.visit set
    guide.visitAll more
end

end Guide

namespace Evaluator

/-- What a walk through a tree keeps in hand. -/
def guide (evaluator : Evaluator) (tree : RuleTree) : Guide where
  traced := evaluator.traced
  environment :=
    { today := evaluator.today, datePattern := evaluator.datePattern, registry := tree.registry }

/-- Evaluates a tree: the report or the refusal that stopped the walk, and the records as they are
afterwards. -/
def evaluate (evaluator : Evaluator) (tree : RuleTree) (records : Records) :
    Except Refusal Report × Records :=
  match (evaluator.guide tree).visit tree.root { records } with
  | .ok _ walk => (.ok walk.report.judged, walk.records)
  | .error refusal walk => (.error refusal, walk.records)

end Evaluator

/-- How trees are evaluated, on whichever day it is asked for. -/
structure Executor where
  /-- The date of every evaluation; without one it is the day on which an evaluation is asked
  for. -/
  today : Option Date := none
  /-- The pattern of dates in the records. -/
  datePattern : String := Calendar.defaultPattern
  /-- The report lists the steps. -/
  traced : Bool := false

namespace Executor

/-- The evaluator of a day. -/
def on (executor : Executor) (day : Date) : Evaluator where
  today := executor.today.getD day
  datePattern := executor.datePattern
  traced := executor.traced

/-- Evaluates a tree when it is asked for on a day. -/
def evaluate (executor : Executor) (day : Date) (tree : RuleTree) (records : Records) :
    Except Refusal Report × Records :=
  (executor.on day).evaluate tree records

/-- With a date of its own an executor gives the same on all days. -/
theorem evaluate_of_today {executor : Executor} {date : Date} (h : executor.today = some date)
    (day other : Date) (tree : RuleTree) (records : Records) :
    executor.evaluate day tree records = executor.evaluate other tree records := by
  have hon : executor.on day = executor.on other := by rw [on, on, h, Option.getD_some]; rfl
  rw [evaluate, evaluate, hon]

end Executor

end Rulebook
