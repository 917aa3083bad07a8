import Rulebook.Proofs.Compiler.Session
import Rulebook.Proofs.Compiler.WellFormed
import Rulebook.Proofs.Evaluation.Runs

/-!
# Evaluations and custom operators

Only a custom operator without a function stops an evaluation. A compiled tree brings its operators
along, and any registry that finds them under the same names serves as well, so its evaluations end
with a report.
-/

namespace Rulebook

namespace Evaluator

variable {tree : RuleTree}

/-- An evaluation is stopped only by a custom operator of the tree that the tree has no function
for. -/
theorem refusal_of_evaluate {evaluator : Evaluator} {records : Records} {refusal : Refusal}
    (h : (evaluator.evaluate tree records).1 = .error refusal) :
    ∃ rule ∈ tree.root.allRules, ∃ name arguments, rule.clause = .custom name arguments ∧
      tree.registry.contains name = false ∧ refusal = .unboundOperator name := by
  have he : evaluator.evaluate tree records =
      (.error refusal, (evaluator.evaluate tree records).2) := Prod.ext h rfl
  obtain ⟨-, -, -, last, hlast, hexecute⟩ := runs_of_evaluate_error he
  obtain ⟨name, arguments, hclause, hmissing, heq⟩ := Rule.execute_error hexecute
  exact ⟨last, hlast, name, arguments, hclause, hmissing, congrArg Stopped.refusal heq⟩

/-- An evaluation of a tree whose operators are all found ends with a report. -/
theorem report_of_contains
    (hc : ∀ rule ∈ tree.root.allRules, ∀ name arguments, rule.clause = .custom name arguments →
      tree.registry.contains name = true) (evaluator : Evaluator) (records : Records) :
    ∃ report, (evaluator.evaluate tree records).1 = .ok report := by
  cases he : (evaluator.evaluate tree records).1 with
  | ok report => exact ⟨report, rfl⟩
  | error refusal =>
    obtain ⟨rule, hr, name, arguments, hclause, hmissing, -⟩ := refusal_of_evaluate he
    rw [hc rule hr name arguments hclause] at hmissing
    cases hmissing

/-- Every tree that a compiler makes which began without operators, after whatever it was asked to
register and to compile before, ends its evaluations with a report, whatever is asked for later. So
it does with any other registry that finds the names which the tree keeps; and with any registry at
all the only refusal is that a custom operator of one of its rules has no function there. -/
theorem evaluate_of_serveAll {compiler : Compiler} (hnew : compiler.registry = .empty)
    (requests : List Compiler.Request)
    (ht : tree ∈ (Compiler.Session.serveAll { compiler } requests).trees) (evaluator : Evaluator)
    (records : Records) :
    (∃ report, (evaluator.evaluate tree records).1 = .ok report) ∧
      (∀ registry : Registry, (∀ name ∈ tree.registry.names, registry.contains name = true) →
        ∃ report, (evaluator.evaluate (tree.rebind registry) records).1 = .ok report) ∧
      ∀ (registry : Registry) (refusal : Refusal),
        (evaluator.evaluate (tree.rebind registry) records).1 = .error refusal →
        ∃ rule ∈ tree.root.allRules, ∃ name arguments, rule.clause = .custom name arguments ∧
          registry.contains name = false ∧ refusal = .unboundOperator name := by
  have hbound := Compiler.Session.bound_of_serveAll hnew requests ht
  refine ⟨?_, fun registry hnames => ?_, fun registry refusal => refusal_of_evaluate⟩
  · refine report_of_contains ?_ evaluator records
    exact fun rule hr name arguments hc =>
      hbound.made.contains (hbound.registered rule hr name arguments hc)
  · refine report_of_contains ?_ evaluator records
    exact fun rule hr name arguments hc => hnames name (hbound.registered rule hr name arguments hc)

/-- Requests that register an operator, fail to register one under a reserved name, make a tree with
the operator, and register the operator anew. -/
def masking : List Compiler.Request :=
  [.register " mask" fun text _ _ _ => text ++ "*", .register "not" fun text _ _ _ => text,
    .compile "<eval>(N.Owner) Mask (N.Owner)</eval>", .register "MASK" fun _ _ _ _ => ""]

/-- The tree of these requests ends its evaluation with a report, also with another operator under
the name; without operators it is stopped for want of that operator. -/
theorem evaluate_of_masking : ∃ tree ∈
      (Compiler.Session.serveAll { compiler := Compiler.small 2 } masking).trees,
    (Compiler.small 2).registry = .empty ∧ tree.registry.names = ["MASK"] ∧
      (∃ report, (evaluate { today := Calendar.Date.first } tree {}).1 = .ok report) ∧
      (∃ report, (evaluate { today := Calendar.Date.first } (tree.rebind .masking) {}).1 =
        .ok report) ∧
      ∃ rule ∈ tree.root.allRules, ∃ name arguments, rule.clause = .custom name arguments ∧
        Registry.empty.contains name = false ∧
        Refusal.unboundOperator "MASK" = .unboundOperator name := by
  have htrees : (Compiler.Session.serveAll { compiler := Compiler.small 2 } masking).trees.map
      (fun tree => (tree.registry.names,
        (evaluate { today := Calendar.Date.first } (tree.rebind .empty) {}).1)) =
      [(["MASK"], .error (.unboundOperator "MASK"))] := by decide +kernel
  obtain ⟨tree, htree, hfound⟩ := List.mem_map.mp (htrees ▸ List.mem_cons_self)
  obtain ⟨hnames, hempty⟩ := Prod.mk.inj hfound
  obtain ⟨hreport, hrebound, hrefusal⟩ :=
    evaluate_of_serveAll rfl masking htree { today := Calendar.Date.first } {}
  refine ⟨tree, htree, rfl, hnames, hreport, hrebound .masking ?_, hrefusal .empty _ hempty⟩
  rw [hnames]
  decide +kernel

end Evaluator

end Rulebook
