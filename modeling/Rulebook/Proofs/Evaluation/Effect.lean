import Rulebook.Proofs.Evaluation.Runs
import Rulebook.Proofs.Record.Cells

/-!
# What one rule does to the records

A rule that is refused, that does not pass or that is passive leaves both records as they are. Any
other rule that passes has found a value that it would only have written by default, or it has
written one cell: the first one of its target, with a text that is computed from the records as they
were before, also where the rule reads the very cell that it writes.
-/

namespace Rulebook

namespace Records

/-- The text in one cell of a record; there is none where no record is meant. -/
def cell? (records : Records) (record : Selector) (groupId : UInt32) (row : Nat)
    (attributeId : UInt32) : Option String :=
  (records.select? record).bind fun record => record.cell? groupId row attributeId

/-- Of all cells of both records the first one of the attribute holds what was written, and the
others hold what they held. -/
theorem cell?_write? {records written : Records} {link : Link} {text : String}
    (h : records.write? link text = some written) (record : Selector) (groupId : UInt32) (row : Nat)
    (attributeId : UInt32) :
    written.cell? record groupId row attributeId =
      if record = link.record ∧ row = 0 ∧ groupId = link.attr.groupId ∧
        attributeId = link.attr.attributeId then some text
      else records.cell? record groupId row attributeId := by
  rcases write?_eq_some h with ⟨hr, rfl⟩ | ⟨hr, rfl⟩
  all_goals
    rw [hr]
    cases record <;> simp [cell?, select?, Record.cell?_setValue]

end Records

/-- A rule wrote to its target what its clause computes from the records before, and nothing
else. -/
structure Rule.Wrote (rule : Rule) (environment : Environment) (before after : Records)
    (text : String) : Prop where
  /-- The text is computed from the records before. -/
  computed : rule.clause.Computes environment before text
  /-- A record is meant. -/
  meant : rule.record ≠ .none
  /-- A default found nothing. -/
  free : rule.clause.isDefault = true → before.value rule.link = ""
  /-- The first cell of the target in the record that is meant holds the text, and all other cells
  of both records hold what they held. -/
  cells : ∀ record groupId row attributeId, after.cell? record groupId row attributeId =
    if record = rule.record ∧ row = 0 ∧ groupId = rule.target.groupId ∧
      attributeId = rule.target.attributeId then some text
    else before.cell? record groupId row attributeId

/-- What a rule that ran has done to the records. -/
structure Rule.Effect (rule : Rule) (environment : Environment) (before : Records)
    (outcome : Outcome) (after : Records) : Prop where
  /-- A rule that does not pass changes nothing. -/
  failing : outcome.passed = false → after = before
  /-- A passive rule changes nothing. -/
  passive : rule.isPassive = true → after = before
  /-- Another rule that passes is a default that found a value and changes nothing, or it writes. -/
  passing : rule.isPassive = false → outcome.passed = true →
    (rule.clause.isDefault = true ∧ before.value rule.link ≠ "" ∧ after = before) ∨
      ∃ text, rule.Wrote environment before after text

namespace Rule

variable {rule : Rule} {environment : Environment} {records after : Records} {outcome : Outcome}

/-- Each course of a rule has its effect on the records. -/
theorem Course.effect (h : rule.Course environment records outcome after) :
    rule.Effect environment records outcome after := by
  cases h with
  | answered hp =>
    exact ⟨fun _ => rfl, fun _ => rfl, fun hwrites _ => absurd hp (Bool.eq_false_iff.mp hwrites)⟩
  | kept hd hv => exact ⟨fun _ => rfl, fun _ => rfl, fun _ _ => .inl ⟨hd, hv, rfl⟩⟩
  | failed fault => exact ⟨fun _ => rfl, fun _ => rfl, fun _ => nofun⟩
  | @wrote text written hp hd hc hw =>
    refine ⟨nofun, fun hpassive => ?_, fun _ _ => .inr ⟨text, ?_⟩⟩
    · rw [hp] at hpassive
      cases hpassive
    · refine ⟨hc, fun hnone => ?_, hd, Records.cell?_write? hw⟩
      rw [Records.write?_eq_none_iff.mpr hnone] at hw
      cases hw

end Rule

namespace Guide

/-- A rule that is run has its effect on the records, and one that is refused leaves them as they
are. -/
theorem fire_effect (guide : Guide) (rule : Rule) (before : Walk) :
    match guide.fire rule before with
    | .ok outcome after =>
      rule.execute guide.environment before.records = .ok (outcome, after.records) ∧
        rule.Effect guide.environment before.records outcome after.records
    | .error refusal after =>
      rule.execute guide.environment before.records = .error ⟨refusal, after.records⟩ ∧
        after.records = before.records := by
  cases hf : guide.fire rule before with
  | ok outcome after =>
    have hexecute := (fire_spec hf).1
    exact ⟨hexecute, (Rule.course_of_execute hexecute).effect⟩
  | error refusal after => exact ⟨fire_error hf, records_of_fire_error hf⟩

end Guide

end Rulebook
