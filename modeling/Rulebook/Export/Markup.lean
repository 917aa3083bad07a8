import Rulebook.Export.Description
import Rulebook.Markup.Event
import Rulebook.Outline

/-!
# Descriptions as documents

A description is written as a document that describes the same tree. The rules of a rule set stand
in elements of conditions between its children, so that reading the document gives every rule its
number again: a child follows the rules whose numbers are not above the least number in the child.
The way in which conditions are joined is written with the rules, and alone where there are none and
it is not the usual one.
-/

namespace Rulebook

open Markup (Event)

/-- The lesser of two numbers that may be missing. -/
def leastId : Option UInt32 → Option UInt32 → Option UInt32
  | none, right => right
  | left, none => left
  | some left, some right => some (if right < left then right else left)

namespace RuleDescription

/-- The parts that a rule is written as. -/
def events (rule : RuleDescription) : List Event :=
  [.start Outline.ruleTag (rule.label.map fun label => ("id", label)).toList,
   .text rule.expression,
   .stop Outline.ruleTag]

end RuleDescription

namespace RuleSetDescription

/-- The rules of a rule set in ascending order of their numbers; rules with the same number stay in
order. -/
def Head.sortedRules (head : Head) : List RuleDescription :=
  (head.evaluative ++ head.assertive).mergeSort fun left right => decide (left.id ≤ right.id)

/-- The least number of a list of rules. -/
def leastRuleId (rules : List RuleDescription) : Option UInt32 :=
  rules.foldr (fun rule least => leastId (some rule.id) least) none

mutual
/-- The least number of a rule in a tree of rule sets. -/
def firstRuleId : RuleSetDescription → Option UInt32
  | ⟨head, children⟩ =>
    leastId (leastRuleId (head.evaluative ++ head.assertive)) (firstRuleIdAll children)

/-- The least number of a rule in a list of trees. -/
def firstRuleIdAll : List RuleSetDescription → Option UInt32
  | [] => none
  | set :: more => leastId set.firstRuleId (firstRuleIdAll more)
end

/-- The parts that an element with conditions is written as. -/
def criteriaEvents (combinator : Combinator) (rules : List RuleDescription) : List Event :=
  let attributes := [("op", combinator.text)]
  if rules.isEmpty then [.empty Outline.criteriaTag attributes]
  else
    .start Outline.criteriaTag attributes ::
      (rules.flatMap RuleDescription.events ++ [.stop Outline.criteriaTag])

/-- The parts that an element with a text is written as. -/
def textEvents (tag text : String) : List Event :=
  [.start tag [], .text (String.ofList (Text.escape text.toList)), .stop tag]

/-- The attributes of the element of a rule set. -/
def Head.attributes (head : Head) : List (String × String) :=
  (if head.kind ≠ .root ∧ head.description ≠ "" then [("description", head.description)] else []) ++
    (head.severity.map fun severity => ("err", severity.text)).toList

/-- The parts that the message and name of a failure are written as. -/
def Head.failureEvents (head : Head) : List Event :=
  if head.kind = .validate then
    (head.failureMessage.map (textEvents Outline.failureMessageTag)).getD [] ++
      (head.customId.map (textEvents Outline.customIdTag)).getD []
  else []

/-- The rules that stand in front of a child with a least number, and the rules behind them. -/
def splitRules (first : Option UInt32) (pending : List RuleDescription) :
    List RuleDescription × List RuleDescription :=
  match first with
  | none => ([], pending)
  | some first => pending.span fun rule => decide (rule.id ≤ first)

mutual
/-- The parts that a rule set is written as. -/
def events : RuleSetDescription → List Event
  | ⟨head, children⟩ =>
    .start head.kind.tag head.attributes ::
      (head.failureEvents ++ bodyEvents head.combinator head.sortedRules false children ++
        [.stop head.kind.tag])

/-- The parts that rules and children are written as. `pending` are the rules that are not written
yet, and `written` tells that conditions were written before. -/
def bodyEvents (combinator : Combinator) (pending : List RuleDescription) (written : Bool) :
    List RuleSetDescription → List Event
  | [] =>
    if !pending.isEmpty || (!written && combinator != .and) then criteriaEvents combinator pending
    else []
  | child :: more =>
    let (front, rest) := splitRules child.firstRuleId pending
    (if front.isEmpty then [] else criteriaEvents combinator front) ++
      (child.events ++ bodyEvents combinator rest (written || !front.isEmpty) more)
end

end RuleSetDescription

/-- The document that a description is written as. -/
def TreeDescription.markup (tree : TreeDescription) : String := Event.document tree.root.events

end Rulebook
