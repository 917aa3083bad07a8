import Rulebook.Proofs.Record.Writing
import Rulebook.Proofs.Evaluation.Frame
import Rulebook.Proofs.Evaluation.Agreement

/-!
# Evaluating a second time

In a separate tree no rule reads a cell that one of its rules writes. Then all that rules read stays
as it was all along an evaluation, so a second one runs the same rules, which write the same texts
in the same order. Texts that are written a second time change nothing, so the report and the
records are those of the first evaluation.
-/

namespace Rulebook

/-- No rule of the tree reads a cell of a record that a rule of the tree writes. -/
def RuleTree.IsSeparate (tree : RuleTree) : Prop :=
  ∀ rule ∈ tree.root.allRules, ∀ link ∈ rule.reads, link.record ≠ .none →
    ¬tree.Writes link.record link.attr.groupId link.attr.attributeId

instance (tree : RuleTree) (record : Selector) (groupId attributeId : UInt32) :
    Decidable (tree.Writes record groupId attributeId) :=
  inferInstanceAs (Decidable (∃ rule ∈ tree.root.allRules, _))

instance (tree : RuleTree) : Decidable tree.IsSeparate :=
  inferInstanceAs (Decidable (∀ rule ∈ tree.root.allRules, ∀ link ∈ rule.reads, _))

/-- The attributes that the rules of a tree read. -/
def RuleTree.reads (tree : RuleTree) : List Link := tree.root.allRules.flatMap Rule.reads

namespace Records

variable {tree : RuleTree} {rule : Rule} {records : Records}

/-- In a separate tree nothing that is read changes where a rule writes: the rule would write what
another one reads. -/
theorem seen_put (hs : tree.IsSeparate) (hr : rule ∈ tree.root.allRules)
    (hp : rule.isPassive = false) (text : String) {link : Link} (hl : link ∈ tree.reads) :
    (records.put (rule.link, text)).seen link = records.seen link := by
  obtain ⟨reader, hreader, hlink⟩ := List.mem_flatMap.mp hl
  unfold put
  cases hw : records.write? rule.link text with
  | none => rfl
  | some written =>
    refine seen_write? hw fun ⟨hrecord, hgroup, hattribute⟩ => ?_
    have hmeant : link.record ≠ .none := fun hnone => by
      rw [write?_eq_none_iff.mpr (hrecord.symm.trans hnone)] at hw
      cases hw
    exact hs reader hreader link hlink hmeant
      ⟨rule, hr, hp, hrecord.symm, hgroup.symm, hattribute.symm⟩

/-- The second pair of records is behind the first one in the same run: all that is read is the same
in both, and the same texts were written to `start` and to `again`. -/
structure Behind (tree : RuleTree) (start again first second : Records) : Prop where
  /-- What is read is the same. -/
  reads : first.LookAlike tree.reads second
  /-- The same texts were written. -/
  writings : ∃ writings, first = start.putAll writings ∧ second = again.putAll writings

/-- A text that a rule of a separate tree writes to both pairs of records keeps them together. -/
theorem Behind.put {start again first second : Records} (hs : tree.IsSeparate)
    (hr : rule ∈ tree.root.allRules) (hp : rule.isPassive = false)
    (h : Behind tree start again first second) (text : String) :
    Behind tree start again (first.put (rule.link, text)) (second.put (rule.link, text)) := by
  obtain ⟨writings, hfirst, hsecond⟩ := h.writings
  refine ⟨fun link hl => ?_, writings ++ [(rule.link, text)], ?_, ?_⟩
  · rw [seen_put hs hr hp text hl, seen_put hs hr hp text hl, h.reads link hl]
  · rw [putAll, List.foldl_append, hfirst]
    rfl
  · rw [putAll, List.foldl_append, hsecond]
    rfl

end Records

namespace Rule

variable {tree : RuleTree} {rule : Rule} {environment : Environment} {records : Records}

/-- Writing answers by the record that is meant alone, and puts the text there. -/
theorem write_eq (rule : Rule) (records : Records) (text : String) :
    rule.write records text = (if rule.record = .none then rule.failed (.noRecord rule.target.name)
      else { passed := true }, records.put (rule.link, text)) := by
  rw [Records.put]
  by_cases hnone : rule.record = .none
  · rw [write_of_none hnone, if_pos hnone, Records.write?_eq_none_iff.mpr hnone]
    rfl
  · obtain ⟨written, hwrite, hwritten, -⟩ := write_of_record hnone records text
    rw [hwrite, if_neg hnone, hwritten]
    rfl

/-- A rule of a separate tree does the same to both pairs of records in the same run. -/
theorem execute_behind {start again first second : Records} (hs : tree.IsSeparate)
    (hr : rule ∈ tree.root.allRules) (h : Records.Behind tree start again first second)
    (environment : Environment) :
    Alike (Records.Behind tree start again) (rule.execute environment first)
      (rule.execute environment second) := by
  have hruns := execute_alike
    (fun link hl => h.reads link (List.mem_flatMap.mpr ⟨rule, hr, hl⟩)) environment
  generalize rule.execute environment first = left at hruns ⊢
  generalize rule.execute environment second = right at hruns ⊢
  cases hruns with
  | refused refusal => exact .error refusal h
  | answered outcome => exact .ok outcome h
  | wrote text hp =>
    rw [write_eq, write_eq]
    exact .ok _ (h.put hs hr hp text)

/-- A rule of a separate tree changes nothing that is read. -/
theorem execute_seen {outcome : Outcome} {after : Records} (hs : tree.IsSeparate)
    (hr : rule ∈ tree.root.allRules)
    (h : rule.execute environment records = .ok (outcome, after)) :
    records.LookAlike tree.reads after := by
  intro link hl
  rcases execute_cases h with rfl | ⟨hp, -, text, hw⟩
  · rfl
  · have hafter : after = records.put (rule.link, text) := by
      rw [Records.put, hw]
      rfl
    rw [hafter, Records.seen_put hs hr hp text hl]

end Rule

/-- A tree that tests the fee and, where there is none, writes the owner twice in the group of the
fee. -/
def RuleSet.naming : RuleSet where
  head :=
    { RuleSet.root.head with
      evaluative := [{ Rule.ofClause 1 .fee .populated with negated := true }]
      assertive :=
        [.ofClause 2 .owner (.assignment (.literal "ann") false),
         .ofClause 3 .owner (.custom "MASK" [.literal "bob"])] }

namespace Evaluator

/-- A second evaluation of a separate tree on the records that the first one left gives the same
report and leaves these records as they are. -/
theorem evaluate_again (evaluator : Evaluator) {tree : RuleTree} (hs : tree.IsSeparate)
    {records after : Records} {report : Report}
    (h : evaluator.evaluate tree records = (.ok report, after)) :
    evaluator.evaluate tree after = (.ok report, after) := by
  have hreads : records.LookAlike tree.reads (evaluator.evaluate tree records).2 := by
    refine evaluate_keeps (fun between => records.LookAlike tree.reads between) ?_
      (fun link _ => rfl)
    intro rule hr before outcome between hexecute hkept link hl
    exact (hkept link hl).trans (Rule.execute_seen hs hr hexecute link hl)
  have hbehind : Records.Behind tree records after records after :=
    ⟨fun link hl => (hreads link hl).trans (by rw [h]), [], rfl, rfl⟩
  have hvisit := (Guide.respects_composes (evaluator.guide tree) fun rule hr _ _ hb =>
    Rule.execute_behind hs hr hb _).visit tree.root (List.Subset.refl _)
      { records } { records := after } hbehind rfl
  rw [evaluate] at h ⊢
  generalize (evaluator.guide tree).visit tree.root { records } = left at h hvisit
  generalize (evaluator.guide tree).visit tree.root { records := after } = right at hvisit ⊢
  cases hvisit with
  | error refusal hr he => cases h
  | ok value hr he =>
    cases h
    obtain ⟨writings, hfirst, hsecond⟩ := hr.writings
    rw [hfirst, Records.putAll_putAll, ← hfirst] at hsecond
    simp only [he, hsecond]

/-- On empty records the tree writes the owner twice, which makes the group of the fee that it
tests; a second evaluation does the same again and changes nothing. -/
theorem evaluate_again_naming :
    let tree := RuleTree.ofRoot RuleSet.naming .masking 1
    let evaluator : Evaluator := { today := Calendar.Date.first, traced := true }
    tree.IsSeparate ∧ ∃ report after, evaluator.evaluate tree {} = (.ok report, after) ∧
      report.fired = [1, 2, 3] ∧ after.new.rows 10 = [Table.empty.insert 1 "bob*"] ∧
      evaluator.evaluate tree after = (.ok report, after) := by
  intro tree evaluator
  have hs : tree.IsSeparate := by decide +kernel
  have hf : (evaluator.evaluate tree {}).1.toOption.map Report.fired = some [1, 2, 3] := by
    decide +kernel
  have ho : (evaluator.evaluate tree {}).2.new.rows 10 = [Table.empty.insert 1 "bob*"] := by
    decide +kernel
  cases he : evaluator.evaluate tree {} with
  | mk result after =>
    rw [he] at hf ho
    cases result with
    | error refusal => cases hf
    | ok report =>
      exact ⟨hs, report, after, rfl, Option.some.inj hf, ho, evaluate_again evaluator hs he⟩

end Evaluator

end Rulebook
