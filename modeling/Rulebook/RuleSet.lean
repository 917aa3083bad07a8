import Rulebook.Rule

/-!
# Rule sets

A rule set is a node of a rule tree. Its passive rules are its conditions; when they hold, its other
rules run and its children are visited.
-/

namespace Rulebook

/-- What a rule set holds besides its children. -/
structure RuleSet.Head where
  /-- The number of the rule set. -/
  id : UInt32
  /-- The number of the rule set that has this one as a child. -/
  parent : Option UInt32
  /-- What the rule set is for. -/
  kind : NodeKind
  /-- A description for readers. -/
  description : String
  /-- How the conditions are joined. -/
  combinator : Combinator := .and
  /-- The conditions, in order. -/
  evaluative : List Rule := []
  /-- The rules that run when the conditions hold, in order. -/
  assertive : List Rule := []
  /-- How grave it is when the conditions do not hold; nothing is reported without it. -/
  severity : Option Severity := none
  /-- The message of a failure. -/
  failureMessage : Option String := none
  /-- A name for the failure that other systems know. -/
  customId : Option String := none
  deriving DecidableEq

/-- A rule set with its children. -/
structure RuleSet where
  /-- What the rule set holds itself. -/
  head : RuleSet.Head
  /-- The rule sets below it, in order. -/
  children : List RuleSet := []

namespace RuleSet

/-- The rules of a rule set, the conditions first. -/
def Head.rules (head : Head) : List Rule := head.evaluative ++ head.assertive

/-- Adds a rule to the conditions if it is passive, and to the other rules otherwise. -/
def Head.addRule (head : Head) (rule : Rule) : Head :=
  if rule.isPassive then { head with evaluative := head.evaluative ++ [rule] }
  else { head with assertive := head.assertive ++ [rule] }

/-- The rule set checks something. -/
def Head.isValidate (head : Head) : Bool := head.kind == .validate

/-- The number of a rule set. -/
def id (set : RuleSet) : UInt32 := set.head.id

/-- The root of a tree before anything is added. -/
def root : RuleSet := { head := { id := 1, parent := none, kind := .root, description := "Root" } }

mutual
/-- The rule sets of a tree: each before its children, the children in order. -/
def preorder : RuleSet → List RuleSet
  | ⟨head, children⟩ => ⟨head, children⟩ :: preorderAll children

/-- The rule sets of a list of trees, one tree after the other. -/
def preorderAll : List RuleSet → List RuleSet
  | [] => []
  | set :: more => set.preorder ++ preorderAll more
end

end RuleSet

end Rulebook
