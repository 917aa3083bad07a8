import Rulebook.Proofs.Evaluation.Runs
import Rulebook.Proofs.Tree.Index

/-!
# Reports as logs

The numbers of the rules that a report lists are enough to repeat what the evaluation did to the
records: the rules that the tree finds under them, run one after the other without a walk, lead from
the same records to the same records.
-/

namespace Rulebook

namespace Evaluator

variable {evaluator : Evaluator} {records after : Records} {report : Report}

/-- Where no number of a rule is used twice, the numbers in a report find rules of the tree which,
run in order on the records before the evaluation, all run and leave the records after it. -/
theorem replay_of_evaluate {root : RuleSet} {registry : Registry} {version : UInt64}
    (hn : (root.allRules.map Rule.id).Nodup)
    (h : evaluator.evaluate (.ofRoot root registry version) records = (.ok report, after)) :
    ∃ rules, report.fired.map (RuleTree.ofRoot root registry version).findRule? = rules.map some ∧
      executeAll (evaluator.guide (.ofRoot root registry version)).environment records rules =
        .ok after := by
  obtain ⟨run, hrun, hfired, hexecute⟩ := runs_of_evaluate h
  refine ⟨run, ?_, hexecute⟩
  rw [hfired, List.map_map]
  exact List.map_congr_left fun rule hr => RuleTree.findRule?_of_mem hn (hrun hr) registry version

/-- On empty records the tree with a condition that writes runs all of its rules, and the numbers in
the report lead through them again. -/
theorem replay_of_writing : (RuleSet.writing.allRules.map Rule.id).Nodup ∧ ∃ report after rules,
    evaluate { today := Calendar.Date.first } (.ofRoot RuleSet.writing .masking 1) {} =
      (.ok report, after) ∧
    report.fired = [1, 2, 3, 4] ∧ after.value .owner = "ann*" ∧
    report.fired.map (RuleTree.ofRoot RuleSet.writing .masking 1).findRule? = rules.map some ∧
    executeAll (guide { today := Calendar.Date.first }
      (.ofRoot RuleSet.writing .masking 1)).environment {} rules = .ok after := by
  have hn : (RuleSet.writing.allRules.map Rule.id).Nodup := by decide +kernel
  have hf : (evaluate { today := Calendar.Date.first } (.ofRoot RuleSet.writing .masking 1)
      {}).1.toOption.map Report.fired = some [1, 2, 3, 4] := by decide +kernel
  have ho : (evaluate { today := Calendar.Date.first } (.ofRoot RuleSet.writing .masking 1)
      {}).2.value .owner = "ann*" := by decide +kernel
  cases he : evaluate { today := Calendar.Date.first } (.ofRoot RuleSet.writing .masking 1) {} with
  | mk result after =>
    rw [he] at hf ho
    cases result with
    | error refusal => cases hf
    | ok report =>
      obtain ⟨rules, hrules, hexecute⟩ := replay_of_evaluate hn he
      exact ⟨hn, report, after, rules, rfl, Option.some.inj hf, ho, hrules, hexecute⟩

end Evaluator

end Rulebook
