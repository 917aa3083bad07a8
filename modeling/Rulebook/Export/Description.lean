import Rulebook.RuleTree

/-!
# Descriptions of rule trees

A description tells other systems what a tree holds: what each rule does and with which operands,
without the bounds and sets that the rules keep for themselves. Rules are told apart by their
numbers, which follow the order of the document.
-/

namespace Rulebook

/-- What an operand is. -/
inductive OperandDescription where
  /-- A text. -/
  | literal (value : String)
  /-- An attribute in a record. -/
  | linked (name : String) (attributeId : UInt32) (record : Selector)
  deriving DecidableEq, Repr

/-- What a rule does. -/
structure RuleDescription where
  /-- The number of the rule. -/
  id : UInt32
  /-- The name that the document gives the rule. -/
  label : Option String
  /-- The text of the rule. -/
  expression : String
  /-- The text of the operator phrase. -/
  operator : String
  /-- What the rule does, without its operands. -/
  kind : ClauseKind
  /-- The name of the target. -/
  targetName : String
  /-- The number of the target. -/
  targetId : UInt32
  /-- The record of the target. -/
  record : Selector
  /-- The test holds when its condition does not. -/
  negated : Bool
  /-- The rule only reads. -/
  passive : Bool
  /-- The operands as they are written. -/
  operands : List OperandDescription
  deriving DecidableEq, Repr

/-- What a rule set holds besides its children. -/
structure RuleSetDescription.Head where
  /-- The number of the rule set. -/
  id : UInt32
  /-- The number of the rule set above. -/
  parent : Option UInt32
  /-- What the rule set is for. -/
  kind : NodeKind
  /-- A description for readers. -/
  description : String
  /-- A name for the failure that other systems know. -/
  customId : Option String
  /-- The message of a failure. -/
  failureMessage : Option String
  /-- How grave it is when the conditions do not hold. -/
  severity : Option Severity
  /-- How the conditions are joined. -/
  combinator : Combinator
  /-- The conditions, in order. -/
  evaluative : List RuleDescription
  /-- The other rules, in order. -/
  assertive : List RuleDescription
  deriving DecidableEq, Repr

/-- A rule set with its children. -/
structure RuleSetDescription where
  /-- What the rule set holds itself. -/
  head : RuleSetDescription.Head
  /-- The rule sets below it, in order. -/
  children : List RuleSetDescription
  deriving Repr

mutual
/-- Decides whether two descriptions of rule sets are the same. -/
def RuleSetDescription.decEq : (left right : RuleSetDescription) → Decidable (left = right)
  | ⟨head, children⟩, ⟨head', children'⟩ =>
    if h : head = head' then
      match RuleSetDescription.decEqAll children children' with
      | .isTrue k => .isTrue (by rw [h, k])
      | .isFalse k => .isFalse (by intro e; cases e; exact k rfl)
    else .isFalse (by intro e; cases e; exact h rfl)

/-- Decides whether two lists of descriptions are the same. -/
def RuleSetDescription.decEqAll :
    (left right : List RuleSetDescription) → Decidable (left = right)
  | [], [] => .isTrue rfl
  | a :: as, b :: bs =>
    match RuleSetDescription.decEq a b, RuleSetDescription.decEqAll as bs with
    | .isTrue h, .isTrue k => .isTrue (by rw [h, k])
    | .isFalse h, _ => .isFalse (by intro e; cases e; exact h rfl)
    | _, .isFalse k => .isFalse (by intro e; cases e; exact k rfl)
  | [], _ :: _ => .isFalse (by intro e; cases e)
  | _ :: _, [] => .isFalse (by intro e; cases e)
end

instance : DecidableEq RuleSetDescription := RuleSetDescription.decEq

/-- What a tree holds. -/
structure TreeDescription where
  /-- The number of the compilation that made the tree. -/
  version : UInt64
  /-- The names of the custom operators. -/
  customOperators : List String
  /-- The root. -/
  root : RuleSetDescription
  deriving DecidableEq, Repr

/-- The description of an operand. -/
def Source.describe : Source → OperandDescription
  | .literal text => .literal text
  | .linked link => .linked link.attr.name link.attr.attributeId link.record

/-- The description of a rule. -/
def Rule.describe (rule : Rule) : RuleDescription where
  id := rule.id
  label := rule.label
  expression := rule.expression
  operator := rule.operator
  kind := rule.clause.kind
  targetName := rule.target.name
  targetId := rule.target.attributeId
  record := rule.record
  negated := rule.negated
  passive := rule.isPassive
  operands := rule.operands.map Source.describe

/-- The description of a rule set without its children. -/
def RuleSet.Head.describe (head : RuleSet.Head) : RuleSetDescription.Head where
  id := head.id
  parent := head.parent
  kind := head.kind
  description := head.description
  customId := head.customId
  failureMessage := head.failureMessage
  severity := head.severity
  combinator := head.combinator
  evaluative := head.evaluative.map Rule.describe
  assertive := head.assertive.map Rule.describe

mutual
/-- The description of a rule set. -/
def RuleSet.describe : RuleSet → RuleSetDescription
  | ⟨head, children⟩ => ⟨head.describe, RuleSet.describeAll children⟩

/-- The descriptions of a list of rule sets. -/
def RuleSet.describeAll : List RuleSet → List RuleSetDescription
  | [] => []
  | set :: more => set.describe :: RuleSet.describeAll more
end

/-- The description of a tree. -/
def RuleTree.describe (tree : RuleTree) : TreeDescription where
  version := tree.version
  customOperators := tree.registry.names
  root := tree.root.describe

end Rulebook
