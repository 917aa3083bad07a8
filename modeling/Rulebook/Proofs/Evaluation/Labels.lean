import Mathlib.Data.List.Forall2
import Rulebook.Proofs.Evaluation.Tour

/-!
# Severities and labels do not lead the way

Two trees are equal but for their labels when they differ in nothing but the severities,
descriptions, messages and names of failures of their rule sets and the names of their rules. A tour
never looks at these, so it goes the same way through both; only what is told of the rule sets whose
conditions did not hold depends on them. Asking for the steps of an evaluation changes nothing but
the list of steps.
-/

namespace Rulebook

/-- A rule without its name. -/
def Rule.unlabelled (rule : Rule) : Rule := { rule with label := none }

namespace RuleSet

/-- A rule set without its severity and its labels, and its rules without their names. -/
def Head.unlabelled (head : Head) : Head :=
  { head with
    description := ""
    evaluative := head.evaluative.map Rule.unlabelled
    assertive := head.assertive.map Rule.unlabelled
    severity := none
    failureMessage := none
    customId := none }

mutual
/-- A tree of rule sets without severities and labels. -/
def unlabelled : RuleSet → RuleSet
  | ⟨head, children⟩ => ⟨head.unlabelled, unlabelledAll children⟩

/-- Trees of rule sets without severities and labels. -/
def unlabelledAll : List RuleSet → List RuleSet
  | [] => []
  | set :: more => set.unlabelled :: unlabelledAll more
end

end RuleSet

/-- An answer of a condition without its name. -/
def Answer.unlabelled (answer : Answer) : Answer := { answer with rule := answer.rule.unlabelled }

/-- A passage of a rule set without severity and labels. -/
def Passage.unlabelled (passage : Passage) : Passage :=
  ⟨passage.head.unlabelled, passage.answers.map Answer.unlabelled⟩

/-- Asking conditions does not depend on their names. -/
theorem ask_unlabelled (environment : Environment) (decisive : Bool) (rules : List Rule) :
    ask environment decisive (rules.map Rule.unlabelled) =
      List.map Answer.unlabelled <$> ask environment decisive rules := by
  induction rules with
  | nil => rfl
  | cons rule more ih =>
    have hrun : rule.unlabelled.run environment = rule.run environment := rfl
    rw [List.map_cons, ask, ask, hrun, map_bind]
    refine bind_congr fun outcome => ?_
    split
    · simp only [pure_bind, map_pure]
      rfl
    · rw [ih]
      simp only [bind_map_left, map_bind, map_pure]
      rfl

/-- Running rules does not depend on their names. -/
theorem runAll_unlabelled (environment : Environment) (rules : List Rule) :
    runAll environment (rules.map Rule.unlabelled) = runAll environment rules := by
  induction rules with
  | nil => rfl
  | cons rule more ih =>
    have hrun : rule.unlabelled.run environment = rule.run environment := rfl
    rw [List.map_cons, runAll, runAll, hrun, ih]

namespace Passage

/-- Whether conditions hold does not depend on labels. -/
theorem holds_unlabelled (passage : Passage) : passage.unlabelled.holds = passage.holds := by
  obtain ⟨head, answers⟩ := passage
  simp only [unlabelled, holds, RuleSet.Head.unlabelled, List.isEmpty_map, List.all_map,
    List.any_map]
  rfl

/-- Why conditions do not hold does not depend on labels. -/
theorem unmet?_unlabelled (passage : Passage) : passage.unlabelled.unmet? = passage.unmet? := by
  have hunmet : unmetOf (passage.answers.map Answer.unlabelled) = unmetOf passage.answers := by
    rw [unmetOf, List.filter_map, List.map_map]
    rfl
  rw [unmet?, holds_unlabelled, unmet?, unlabelled, hunmet]

/-- Which rules run does not depend on labels. -/
theorem fired_unlabelled (passage : Passage) : passage.unlabelled.fired = passage.fired := by
  rw [fired, holds_unlabelled, fired, unlabelled, RuleSet.Head.unlabelled, List.map_map,
    List.map_map]
  rfl

end Passage

namespace RuleSet

mutual
/-- A tour of a tree without labels has the passages of a tour of the tree, without labels. -/
theorem tour_unlabelled (environment : Environment) : (set : RuleSet) →
    set.unlabelled.tour environment = List.map Passage.unlabelled <$> set.tour environment
  | ⟨head, children⟩ => by
    have hinspect : head.unlabelled.inspect environment =
        List.map Answer.unlabelled <$> head.inspect environment :=
      ask_unlabelled environment (head.combinator == .or) head.evaluative
    have hassertive : head.unlabelled.assertive = head.assertive.map Rule.unlabelled := rfl
    rw [unlabelled, tour, tour, hinspect, bind_map_left, map_bind]
    refine bind_congr fun answers => ?_
    have hpassage : (⟨head.unlabelled, answers.map Answer.unlabelled⟩ : Passage) =
        Passage.unlabelled ⟨head, answers⟩ := rfl
    rw [hpassage, Passage.holds_unlabelled, hassertive, runAll_unlabelled,
      tourAll_unlabelled environment children]
    split
    · simp only [bind_assoc, bind_map_left, map_bind, map_pure, List.map_cons]
    · simp only [pure_bind, map_pure, List.map_cons, List.map_nil]

/-- A tour of trees without labels has the passages of a tour of the trees, without labels. -/
theorem tourAll_unlabelled (environment : Environment) : (sets : List RuleSet) →
    tourAll environment (unlabelledAll sets) =
      List.map Passage.unlabelled <$> tourAll environment sets
  | [] => rfl
  | set :: more => by
    rw [unlabelledAll, tourAll, tour_unlabelled environment set,
      tourAll_unlabelled environment more, tourAll]
    simp only [bind_map_left, map_bind, map_pure, List.map_append]
end

end RuleSet

/-- Two trees differ in nothing but the severities and labels of their rule sets and the names of
their rules. -/
structure RuleTree.SameButLabels (first second : RuleTree) : Prop where
  /-- Without severities and labels the roots are the same. -/
  root : first.root.unlabelled = second.root.unlabelled
  /-- The custom operators are the same. -/
  registry : first.registry = second.registry

/-- Passages go through the same rule sets but for severities and labels, and the same conditions do
not hold for the same reasons. -/
structure Passage.Alike (first second : Passage) : Prop where
  /-- Without severity and labels the rule sets are the same. -/
  head : first.head.unlabelled = second.head.unlabelled
  /-- The conditions hold in both passages, or do not for the same reasons. -/
  unmet : first.unmet? = second.unmet?

/-- Passages that are the same without labels are alike. -/
theorem Passage.forall₂_alike {first second : List Passage}
    (h : first.map Passage.unlabelled = second.map Passage.unlabelled) :
    List.Forall₂ Alike first second := by
  have hsame : List.Forall₂ Eq (first.map Passage.unlabelled) (second.map Passage.unlabelled) := by
    rw [List.forall₂_eq_eq_eq]
    exact h
  rw [List.forall₂_map_left_iff, List.forall₂_map_right_iff] at hsame
  refine hsame.imp fun passage other he => ?_
  exact ⟨congrArg Passage.head he, by rw [← unmet?_unlabelled, he, unmet?_unlabelled]⟩

/-- Passages that are the same without labels go through the same rule sets. -/
theorem Passage.ids_eq {first second : List Passage}
    (h : first.map Passage.unlabelled = second.map Passage.unlabelled) :
    (first.map fun passage => passage.head.id) = second.map fun passage => passage.head.id := by
  have hids (passages : List Passage) : (passages.map fun passage => passage.head.id) =
      (passages.map Passage.unlabelled).map fun passage => passage.head.id := by
    rw [List.map_map]
    rfl
  rw [hids, h, ← hids]

/-- In passages that are the same without labels the same rules run. -/
theorem Passage.flatMap_fired_eq {first second : List Passage}
    (h : first.map Passage.unlabelled = second.map Passage.unlabelled) :
    first.flatMap Passage.fired = second.flatMap Passage.fired := by
  have hfired (passages : List Passage) : passages.flatMap Passage.fired =
      (passages.map Passage.unlabelled).flatMap Passage.fired := by
    simp only [List.flatMap_map, Passage.fired_unlabelled]
  rw [hfired, h, ← hfired]

/-- Reports that tell of the same passages differ at most in their steps. -/
theorem Report.TellsOf.unique {report other : Report} {passages : List Passage}
    (h : report.TellsOf passages) (h' : other.TellsOf passages) :
    { report with trace := [] } = { other with trace := [] } := by
  have hfailures := h.failures.trans h'.failures.symm
  rw [Report.mk.injEq]
  exact ⟨by rw [h.passed, h'.passed, hfailures], hfailures, h.fired.trans h'.fired.symm,
    h.visited.trans h'.visited.symm, rfl⟩

namespace Guide

variable {guide : Guide}

/-- Where steps are not asked for, noting one changes nothing. -/
theorem note_of_not_traced (hg : guide.traced = false) {entry : TraceEntry} {before after : Walk}
    (h : guide.note entry before = .ok () after) : after = before := by
  have hafter : EStateM.Result.ok () (if guide.traced then
      { before with report := { before.report with trace := before.report.trace ++ [entry] } }
      else before) = .ok () after := h
  rw [hg] at hafter
  exact (EStateM.Result.ok.inj hafter).2.symm

/-- Where steps are not asked for, no part of a walk lists one. -/
theorem trace_composes (hg : guide.traced = false) (rules : List Rule) :
    Walking.Composes guide rules fun α part => ∀ {before after : Walk} {value : α},
      part before = .ok value after → after.report.trace = before.report.trace where
  give value := by
    intro before after value' h
    cases h
    rfl
  follow h h' := by
    intro before after value hboth
    obtain ⟨between, walk, hfirst, hsecond⟩ := Walking.bind_eq_ok hboth
    exact (h' between hsecond).trans (h hfirst)
  note entry := by
    intro before after value h
    rw [note_of_not_traced hg h]
  enter id := by
    intro before after value h
    cases h
    rfl
  fail failure := by
    intro before after value h
    cases h
    rfl
  fire {rule} hr := by
    intro before after outcome h
    obtain ⟨_, noted, hnoted, h⟩ := Walking.bind_eq_ok h
    cases hnoted
    obtain ⟨_, _, hget, h⟩ := Walking.bind_eq_ok h
    cases hget
    cases he : rule.execute guide.environment before.records with
    | error refusal =>
      simp only [he] at h
      cases h
    | ok result =>
      simp only [he] at h
      obtain ⟨_, _, hset, h⟩ := Walking.bind_eq_ok h
      cases hset
      obtain ⟨_, last, hnote, h⟩ := Walking.bind_eq_ok h
      cases h
      rw [note_of_not_traced hg hnote]

end Guide

/-- A tree with a check of the owner that may have a severity, and a branch behind it. -/
def RuleSet.checking (severity : Option Severity) (description : String) : RuleSet where
  head := RuleSet.root.head
  children :=
    [{ head :=
        { id := 2, parent := some 1, kind := .validate, description, severity
          evaluative := [.ofClause 1 .owner .populated] } },
     { head :=
        { id := 3, parent := some 1, kind := .flow, description := ""
          assertive := [.ofClause 2 .fee (.assignment (.literal "5") false)] } }]

namespace Evaluator

/-- Where the steps of an evaluation are not asked for, the report lists none. -/
theorem trace_eq_nil (evaluator : Evaluator) {tree : RuleTree} {records after : Records}
    {report : Report} (ht : evaluator.traced = false)
    (h : evaluator.evaluate tree records = (.ok report, after)) : report.trace = [] := by
  rw [evaluate] at h
  cases hv : (evaluator.guide tree).visit tree.root { records } with
  | error refusal walk =>
    rw [hv] at h
    cases h
  | ok result walk =>
    rw [hv] at h
    cases h
    exact (Guide.trace_composes ht tree.root.allRules).visit tree.root (List.Subset.refl _) hv

/-- Evaluations of two trees that differ in nothing but severities and labels, whether steps are
asked for or not, are refused for the same reason or visit the same rule sets and run the same
rules, and they leave the same records. The failures in each report are those of the visited rule
sets whose conditions did not hold and that have a severity in its tree, and which these are and why
they did not hold is the same in both. For one tree the reports differ at most in their steps, and
there are none where they are not asked for. -/
theorem evaluate_sameButLabels {first second : RuleTree} (h : first.SameButLabels second)
    (evaluator : Evaluator) (traced : Bool) (records : Records) :
    (∃ refusal after, evaluator.evaluate first records = (.error refusal, after) ∧
      { evaluator with traced }.evaluate second records = (.error refusal, after)) ∨
    ∃ report report' after passages passages',
      evaluator.evaluate first records = (.ok report, after) ∧
      { evaluator with traced }.evaluate second records = (.ok report', after) ∧
      first.root.tour (evaluator.guide first).environment records = .ok passages after ∧
      second.root.tour (evaluator.guide second).environment records = .ok passages' after ∧
      List.Forall₂ Passage.Alike passages passages' ∧
      report.TellsOf passages ∧ report'.TellsOf passages' ∧
      report.visited = report'.visited ∧ report.fired = report'.fired ∧
      (first.root = second.root → { report with trace := [] } = { report' with trace := [] }) ∧
      (evaluator.traced = false → report.trace = []) ∧ (traced = false → report'.trace = []) := by
  have henvironment : (evaluator.guide first).environment =
      (guide { evaluator with traced } second).environment := by
    rw [guide, guide, h.registry]
  have htour : List.map Passage.unlabelled <$> first.root.tour (evaluator.guide first).environment =
      List.map Passage.unlabelled <$> second.root.tour
        (guide { evaluator with traced } second).environment := by
    rw [← RuleSet.tour_unlabelled, ← RuleSet.tour_unlabelled, h.root, henvironment]
  have hends := congrFun htour records
  simp only [Functor.map, EStateM.map] at hends
  rcases evaluator.evaluate_tour first records with
      ⟨refusal, after, hfirst, hevaluate⟩ | ⟨passages, after, report, hfirst, hevaluate, htells⟩ <;>
    rcases evaluate_tour { evaluator with traced } second records with
      ⟨refusal', after', hsecond, hevaluate'⟩ | ⟨passages', after', report', hsecond, hevaluate',
        htells'⟩ <;>
    rw [hfirst, hsecond] at hends
  · cases hends
    exact .inl ⟨refusal, after, hevaluate, hevaluate'⟩
  · cases hends
  · cases hends
  · obtain ⟨hunlabelled, rfl⟩ := EStateM.Result.ok.inj hends
    have halike := Passage.forall₂_alike hunlabelled
    refine .inr ⟨report, report', after, passages, passages', hevaluate, hevaluate', hfirst,
      hsecond, halike, htells, htells', ?visited, ?fired, ?same, ?untraced, ?untraced'⟩
    case visited => rw [htells.visited, htells'.visited, Passage.ids_eq hunlabelled]
    case fired => rw [htells.fired, htells'.fired, Passage.flatMap_fired_eq hunlabelled]
    case same =>
      intro hroot
      rw [hroot, henvironment, hsecond] at hfirst
      obtain ⟨rfl, -⟩ := EStateM.Result.ok.inj hfirst
      exact htells.unique htells'
    case untraced => exact fun ht => trace_eq_nil evaluator ht hevaluate
    case untraced' =>
      exact fun ht => trace_eq_nil { evaluator with traced } ht hevaluate'

/-- A severe check that fails is a failure, and one without a severity is none; the branch behind it
is visited in both trees. -/
theorem evaluate_sameButLabels_checking :
    let first := RuleTree.ofRoot (.checking none "") {} 1
    let second := RuleTree.ofRoot (.checking (some .severe) "Owner") {} 1
    let evaluator : Evaluator := { today := Calendar.Date.first }
    first.SameButLabels second ∧ ∃ report report' after passages passages',
      evaluator.evaluate first {} = (.ok report, after) ∧
      { evaluator with traced := true }.evaluate second {} = (.ok report', after) ∧
      List.Forall₂ Passage.Alike passages passages' ∧
      report.TellsOf passages ∧ report'.TellsOf passages' ∧
      report.visited = report'.visited ∧ report.fired = report'.fired ∧ report.trace = [] ∧
      (report'.visited, report'.fired, report.failedSetIds, report'.failedSetIds) =
        ([1, 2, 3], [1, 2], [], [2]) := by
  intro first second evaluator
  have h : first.SameButLabels second := ⟨rfl, rfl⟩
  have hfailed : (evaluator.evaluate first {}).1.toOption.map Report.failedSetIds = some [] := by
    decide +kernel
  have hreport' : (evaluate { evaluator with traced := true } second {}).1.toOption.map
      (fun report => (report.visited, report.fired, report.failedSetIds)) =
        some ([1, 2, 3], [1, 2], [2]) := by
    decide +kernel
  rcases evaluate_sameButLabels h evaluator true {} with ⟨refusal, after, hrefused, -⟩ |
    ⟨report, report', after, passages, passages', hfirst, hsecond, -, -, halike, htells, htells',
      hvisited, hfired, -, htrace, -⟩
  · rw [hrefused] at hfailed
    cases hfailed
  · rw [hfirst] at hfailed
    rw [hsecond] at hreport'
    obtain ⟨hv, hf, hs⟩ : report'.visited = [1, 2, 3] ∧ report'.fired = [1, 2] ∧
        report'.failedSetIds = [2] := by simpa using Option.some.inj hreport'
    refine ⟨h, report, report', after, passages, passages', hfirst, hsecond, halike, htells,
      htells', hvisited, hfired, htrace rfl, ?_⟩
    rw [hv, hf, hs, Option.some.inj hfailed]

end Evaluator

end Rulebook
