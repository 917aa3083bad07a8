import Rulebook.Proofs.Evaluation.Runs
import Rulebook.Proofs.Record.Cells

/-!
# What an evaluation leaves alone

Rules that are not passive write the first cell of their target, and nothing else of a record
changes: not the other cells, not the number of rows of a group that has rows, not the groups in
which nothing is a target. A cell that only defaults write keeps a value that is not empty. Each
rule keeps this, so every evaluation does, whether it ends with a report or is stopped.
-/

namespace Rulebook

namespace Record

/-- From one record to the next only first cells of targets may change. -/
structure KeepsBut (targets : UInt32 → UInt32 → Prop) (before after : Record) : Prop where
  /-- Every cell holds what it held, unless it is the first cell of a target. -/
  cells : ∀ groupId row attributeId, ¬(row = 0 ∧ targets groupId attributeId) →
    after.cell? groupId row attributeId = before.cell? groupId row attributeId
  /-- A group with rows has as many of them as before. -/
  length : ∀ groupId, before.rows groupId ≠ [] →
    (after.rows groupId).length = (before.rows groupId).length
  /-- A group without rows is as before, or has one row. -/
  growth : ∀ groupId, before.rows groupId = [] →
    after.group? groupId = before.group? groupId ∨ (after.rows groupId).length = 1
  /-- A group in which nothing is a target is as before. -/
  groups : ∀ groupId, (∀ attributeId, ¬targets groupId attributeId) →
    after.group? groupId = before.group? groupId

namespace KeepsBut

variable {targets : UInt32 → UInt32 → Prop} {first second third : Record}

theorem refl (targets : UInt32 → UInt32 → Prop) (record : Record) :
    KeepsBut targets record record :=
  ⟨fun _ _ _ _ => rfl, fun _ _ => rfl, fun _ _ => .inl rfl, fun _ _ => rfl⟩

/-- What is kept twice is kept. -/
theorem trans (h : KeepsBut targets first second) (h' : KeepsBut targets second third) :
    KeepsBut targets first third where
  cells groupId row attributeId ht :=
    (h'.cells groupId row attributeId ht).trans (h.cells groupId row attributeId ht)
  length groupId hrows := by
    have hlength := h.length groupId hrows
    have hrows' : second.rows groupId ≠ [] := by
      rw [← List.length_pos_iff] at hrows ⊢
      omega
    exact (h'.length groupId hrows').trans hlength
  growth groupId hrows := by
    rcases h.growth groupId hrows with hsame | hone
    · have hrows' : second.rows groupId = [] := by
        rw [rows, hsame]
        exact hrows
      rw [← hsame]
      exact h'.growth groupId hrows'
    · -- the row that was made stays the only one
      have hrows' : second.rows groupId ≠ [] := by
        rw [← List.length_pos_iff, hone]
        exact Nat.one_pos
      exact .inr ((h'.length groupId hrows').trans hone)
  groups groupId ht := (h'.groups groupId ht).trans (h.groups groupId ht)

/-- Writing the first cell of a target keeps all else. -/
theorem setValue (record : Record) {attr : Attribute} (text : String)
    (ht : targets attr.groupId attr.attributeId) :
    KeepsBut targets record (record.setValue attr text) where
  cells groupId row attributeId hno := by
    rw [cell?_setValue, if_neg]
    rintro ⟨hrow, rfl, rfl⟩
    exact hno ⟨hrow, ht⟩
  length groupId hrows := by
    rw [rows_setValue]
    split
    · cases hr : record.rows groupId with
      | nil => exact absurd hr hrows
      | cons first more => rfl
    · rfl
  growth groupId hrows := by
    rw [group?_setValue]
    split
    · next same =>
      right
      rw [rows_setValue, if_pos same, hrows]
      rfl
    · exact .inl rfl
  groups groupId hno := by
    rw [group?_setValue, if_neg]
    rintro rfl
    exact hno _ ht

end KeepsBut

end Record

/-- The rule is not passive, and its target is the attribute with the numbers in the record. -/
def Rule.Writes (rule : Rule) (record : Selector) (groupId attributeId : UInt32) : Prop :=
  rule.isPassive = false ∧ rule.record = record ∧ rule.target.groupId = groupId ∧
    rule.target.attributeId = attributeId

instance (rule : Rule) (record : Selector) (groupId attributeId : UInt32) :
    Decidable (rule.Writes record groupId attributeId) :=
  inferInstanceAs (Decidable (_ ∧ _))

/-- Some rule of the tree writes the attribute with the numbers in the record. -/
def RuleTree.Writes (tree : RuleTree) (record : Selector) (groupId attributeId : UInt32) : Prop :=
  ∃ rule ∈ tree.root.allRules, rule.Writes record groupId attributeId

namespace Rule

variable {rule : Rule} {environment : Environment} {records after : Records} {outcome : Outcome}

/-- A rule of a tree changes no more of each record than what rules of the tree write there. -/
theorem execute_keepsBut {tree : RuleTree} (hr : rule ∈ tree.root.allRules)
    (h : rule.execute environment records = .ok (outcome, after)) :
    records.new.KeepsBut (tree.Writes .new) after.new ∧
      records.old.KeepsBut (tree.Writes .old) after.old := by
  rcases execute_cases h with rfl | ⟨hp, -, text, hw⟩
  · exact ⟨.refl _ _, .refl _ _⟩
  · rcases Records.write?_eq_some hw with ⟨hs, rfl⟩ | ⟨hs, rfl⟩
    · exact ⟨.setValue _ _ ⟨rule, hr, hp, hs, rfl, rfl⟩, .refl _ _⟩
    · exact ⟨.refl _ _, .setValue _ _ ⟨rule, hr, hp, hs, rfl, rfl⟩⟩

/-- A rule that writes an attribute only by default leaves a value that is not empty. -/
theorem execute_value {link : Link}
    (hd : rule.Writes link.record link.attr.groupId link.attr.attributeId →
      rule.clause.isDefault = true)
    (hv : records.value link ≠ "") (h : rule.execute environment records = .ok (outcome, after)) :
    after.value link = records.value link := by
  rcases execute_cases h with rfl | ⟨hp, hempty, text, hw⟩
  · rfl
  · rw [Records.value_write? hw, if_neg]
    rintro ⟨hr, hg, ha⟩
    have hsame : records.value rule.link = records.value link := by
      rw [Records.value_eq, Records.value_eq, Records.cells, Records.cells, hr, hg, ha]
    exact hv (hsame ▸ hempty (hd ⟨hp, hr.symm, hg.symm, ha.symm⟩))

end Rule

namespace Evaluator

/-- An evaluation of any tree, also one that is stopped, changes in each record no more than the
first cells of what the rules of the tree write there; and a value that is not empty stays where
every rule that writes it is a default. -/
theorem evaluate_keepsBut (evaluator : Evaluator) (tree : RuleTree) (records : Records) :
    records.new.KeepsBut (tree.Writes .new) (evaluator.evaluate tree records).2.new ∧
      records.old.KeepsBut (tree.Writes .old) (evaluator.evaluate tree records).2.old ∧
      ∀ link : Link, (∀ rule ∈ tree.root.allRules,
          rule.Writes link.record link.attr.groupId link.attr.attributeId →
            rule.clause.isDefault = true) →
        records.value link ≠ "" →
        (evaluator.evaluate tree records).2.value link = records.value link := by
  refine and_assoc.mp ⟨?_, fun link hdefaults hvalue => ?_⟩
  · refine evaluate_keeps (fun after => records.new.KeepsBut (tree.Writes .new) after.new ∧
      records.old.KeepsBut (tree.Writes .old) after.old) ?_ ⟨.refl _ _, .refl _ _⟩
    intro rule hr before outcome after hexecute hkept
    have hstep := Rule.execute_keepsBut hr hexecute
    exact ⟨hkept.1.trans hstep.1, hkept.2.trans hstep.2⟩
  · refine evaluate_keeps (fun after => after.value link = records.value link) ?_ rfl
    intro rule hr before outcome after hexecute hkept
    rw [← hkept]
    exact Rule.execute_value (hdefaults rule hr) (hkept ▸ hvalue) hexecute

/-- Without the operator that the tree needs an evaluation is stopped after the owner was written; a
fee that is there stays, and so does the second row. -/
theorem evaluate_keepsBut_stopped :
    let tree := RuleTree.ofRoot RuleSet.writing .empty 1
    let records : Records :=
      { new := ⟨Table.empty.insert 10 [Table.empty.insert 2 "7", Table.empty.insert 1 "bob"]⟩ }
    let after := (evaluate { today := Calendar.Date.first } tree records).2
    (evaluate { today := Calendar.Date.first } tree records).1 =
        .error (.unboundOperator "MASK") ∧
      after.value .owner = "ann" ∧ records.new.KeepsBut (tree.Writes .new) after.new ∧
      records.old.KeepsBut (tree.Writes .old) after.old ∧ after.value .fee = "7" := by
  intro tree records after
  have hdefaults : ∀ rule ∈ tree.root.allRules,
      rule.Writes Link.fee.record Link.fee.attr.groupId Link.fee.attr.attributeId →
        rule.clause.isDefault = true := by decide +kernel
  have hvalue : records.value .fee = "7" := by decide +kernel
  obtain ⟨hnew, hold, hdefault⟩ :=
    evaluate_keepsBut { today := Calendar.Date.first } tree records
  have hkept := hdefault .fee hdefaults (by decide +kernel)
  exact ⟨by decide +kernel, by decide +kernel, hnew, hold, hkept.trans hvalue⟩

end Evaluator

end Rulebook
