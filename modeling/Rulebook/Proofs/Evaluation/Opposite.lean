import Rulebook.Evaluation.Execution
import Rulebook.Proofs.Expression.Opposite

/-!
# Opposite verdicts

A rule and the same rule with `NOT` in front run the same test. If the test is decided, exactly one
of the two passes, and neither has anything to say. If it cannot be decided, because a text is no
number or no date, both fail with the same message: a fault is never turned into a pass.
-/

namespace Rulebook

/-- One of two outcomes is a pass and the other is none, both without message. -/
structure Outcome.Opposed (first second : Outcome) : Prop where
  /-- The second is a pass when the first is none. -/
  passed : second.passed = !first.passed
  /-- The first has no message. -/
  first : first.message = none
  /-- The second has no message. -/
  second : second.message = none

namespace Rule

/-- A rule that tests the opposite of another one. -/
structure Opposite (rule opposite : Rule) : Prop where
  /-- It differs from the other at most in its sign and its text. -/
  same : opposite = { rule with negated := true, expression := opposite.expression }
  /-- The texts differ. -/
  expression : opposite.expression ≠ rule.expression
  /-- The two outcomes are opposed, or they are the same fault; no record is changed. -/
  verdict : ∀ environment records, ∃ first second,
    rule.execute environment records = .ok (first, records) ∧
      opposite.execute environment records = .ok (second, records) ∧
      (first.Opposed second ∨ ∃ fault : CoercionFault,
        first = { passed := false, message := some ((RuleFault.coercion fault).message rule.id) } ∧
          second = first)

variable {rule : Rule}

/-- A test that is decided passes in one of two rules with opposite signs. -/
theorem opposed_decided (hn : rule.negated = false) (expression : String) (holds : Bool) :
    (rule.decided holds).Opposed
      ({ rule with negated := true, expression }.decided holds) := by
  refine ⟨?_, rfl, rfl⟩
  simp only [decided, hn]
  cases holds <;> rfl

/-- A test that may have a fault passes in one of two rules with opposite signs or fails in both. -/
theorem opposed_checked (hn : rule.negated = false) (expression : String)
    (result : Except CoercionFault Bool) :
    (rule.checked result).Opposed ({ rule with negated := true, expression }.checked result) ∨
      ∃ fault : CoercionFault, rule.checked result =
        { passed := false, message := some ((RuleFault.coercion fault).message rule.id) } ∧
          { rule with negated := true, expression }.checked result = rule.checked result := by
  cases result with
  | ok holds => exact .inl (opposed_decided hn expression holds)
  | error fault => exact .inr ⟨fault, rfl, rfl⟩

/-- The same rule with the other sign and another text tests the opposite. -/
theorem opposite_of_passive (hp : rule.isPassive = true) (hn : rule.negated = false)
    {expression : String} (he : expression ≠ rule.expression) :
    rule.Opposite { rule with negated := true, expression } := by
  refine ⟨rfl, he, fun environment records => ?_⟩
  cases hc : rule.clause with
  | populated =>
    have hholds := opposed_decided hn expression (rule.isPopulated records)
    simp only [execute, hc]
    exact ⟨_, _, rfl, rfl, .inl hholds⟩
  | domain members allRows =>
    have hholds := opposed_decided hn expression (rule.isInDomain records members allRows)
    simp only [execute, hc]
    exact ⟨_, _, rfl, rfl, .inl hholds⟩
  | numericLimit comparison min max =>
    have hchecked := opposed_checked hn expression (rule.isInRange records min max)
    simp only [execute, hc]
    exact ⟨_, _, rfl, rfl, hchecked⟩
  | dateLimit comparison min max today =>
    have hchecked := opposed_checked hn expression (rule.isBetween records environment min max)
    simp only [execute, hc]
    exact ⟨_, _, rfl, rfl, hchecked⟩
  | assignment value defaultOnly => simp [isPassive, hc, Clause.kind, ClauseKind.isPassive] at hp
  | arithmetic operation operands => simp [isPassive, hc, Clause.kind, ClauseKind.isPassive] at hp
  | custom name arguments => simp [isPassive, hc, Clause.kind, ClauseKind.isPassive] at hp

end Rule

namespace RuleReader

/-- `NOT` in front of a text that is read as a passive rule without negation makes it one that tests
the opposite. -/
theorem read_opposite {reader : RuleReader} {text : String} {id : UInt32} {label : Option String}
    {rule : Rule} (h : reader.read text id label = .ok rule) (hp : rule.isPassive = true)
    (hn : rule.negated = false) :
    ∃ opposite, reader.read ("NOT " ++ text) id label = .ok opposite ∧ rule.Opposite opposite := by
  obtain ⟨hexpression, hread⟩ := read_withNot h hn
  refine ⟨_, hread, Rule.opposite_of_passive hp hn ?_⟩
  rw [hexpression]
  exact Text.trimmed_withNot_ne text

/-- A limit on dates and its opposite. -/
theorem read_opposite_today : ∃ rule opposite : Rule,
    RuleReader.read { catalog := .ofList [⟨1, 1, "Due"⟩] } " (O.Due) is after ('today')" 3 none =
        .ok rule ∧ rule.operator = "IS AFTER" ∧
      RuleReader.read { catalog := .ofList [⟨1, 1, "Due"⟩] } "NOT  (O.Due) is after ('today')" 3
        none = .ok opposite ∧ rule.Opposite opposite := by
  have hread : RuleReader.read { catalog := .ofList [⟨1, 1, "Due"⟩] }
      " (O.Due) is after ('today')" 3 none = .ok
        { id := 3, label := none, expression := "(O.Due) is after ('today')",
          operator := "IS AFTER", target := ⟨1, 1, "Due"⟩, record := .old, negated := false,
          operands := [.literal "TODAY"],
          clause := .dateLimit .after .today (.literal .last) true } := by
    decide +kernel
  obtain ⟨opposite, hopposite, hverdict⟩ := read_opposite hread rfl rfl
  exact ⟨_, opposite, hread, rfl, hopposite, hverdict⟩

end RuleReader

end Rulebook
