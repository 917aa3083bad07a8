import Mathlib.Data.List.Flatten
import Rulebook.Proofs.Compiler.WellFormed
import Rulebook.Proofs.Evaluation.Stops

/-!
# The shape of a report

The report of an evaluation follows from the stops of the walk: which rule sets were visited, which
rules were run and which failures there are. In a well-formed tree the numbers in the report tell
the rule sets and rules apart, so the report itself shows at each visited rule set whether its
conditions held.
-/

namespace Rulebook

/-- What the report of a walk through a tree says, where the walk made some stops. -/
structure Report.Shape (report : Report) (tree : RuleTree) (environment : Environment)
    (stops : List Stop) : Prop where
  /-- The rule sets that are visited are those of the stops. -/
  visits : report.visited = stops.map fun stop => stop.set.id
  /-- The stops are at rule sets of the tree. -/
  known : ∀ stop ∈ stops, stop.set ∈ tree.all
  /-- The walk begins at the root. -/
  starts : report.visited.head? = some 1
  /-- The rule sets are visited in the order of their numbers. -/
  ascending : report.visited.Pairwise fun earlier later => earlier < later
  /-- With each visited rule set but the root, the rule set above was visited. -/
  parents : ∀ stop ∈ stops, stop.set.id ≠ 1 →
    ∃ parent ∈ report.visited, stop.set.head.parent = some parent
  /-- No rule is run twice. -/
  fired_nodup : report.fired.Nodup
  /-- The rules that are run are in rule sets that are visited. -/
  fired_visited : ∀ id ∈ report.fired, ∃ stop ∈ stops, ∃ rule ∈ stop.set.head.rules, rule.id = id
  /-- Where the conditions hold, all other rules are run, all children are visited, and there is no
  failure. -/
  held : ∀ stop ∈ stops, stop.holds environment = true →
    (∀ rule ∈ stop.set.head.assertive, rule.id ∈ report.fired) ∧
    (∀ child ∈ stop.set.children, child.id ∈ report.visited) ∧
    stop.set.id ∉ report.failedSetIds
  /-- Where the conditions do not hold, none of the other rules is run, nothing below is visited,
  and there is one failure if the rule set has a severity and none otherwise. -/
  skipped : ∀ stop ∈ stops, stop.holds environment = false →
    (∀ rule ∈ stop.set.head.assertive, rule.id ∉ report.fired) ∧
    (∀ node ∈ RuleSet.preorderAll stop.set.children, node.id ∉ report.visited) ∧
    report.failedSetIds.count stop.set.id = if stop.set.head.severity.isSome then 1 else 0
  /-- The failures are in the order of the visits. -/
  failures_in_order : report.failedSetIds.Sublist report.visited
  /-- The evaluation is passed when no failure is severe. -/
  passed_iff : report.passed = true ↔ ∀ failure ∈ report.failures, failure.severity ≠ .severe

namespace Stop

variable {environment : Environment} {stop : Stop} {stops : List Stop}

/-- The rules that are run at a stop are rules of the rule set, in order. -/
theorem fired_sublist (stop : Stop) (environment : Environment) :
    (stop.fired environment).Sublist stop.set.head.rules := by
  have htested := stop.set.head.tested_sublist environment stop.records
  rw [fired, RuleSet.Head.rules]
  split
  · exact htested.append (List.Sublist.refl _)
  · exact htested.append (List.nil_sublist _)

/-- The stop has a failure: the conditions do not hold, and the rule set has a severity. -/
def fails (stop : Stop) (environment : Environment) : Bool :=
  !stop.holds environment && stop.set.head.severity.isSome

/-- The rule sets with failures are those of the stops that fail, in order. -/
theorem failures_setIds (stops : List Stop) (environment : Environment) :
    (stops.filterMap fun stop => stop.failure? environment).map Failure.setId =
      (stops.filter fun stop => stop.fails environment).map fun stop => stop.set.id := by
  induction stops with
  | nil => rfl
  | cons stop more ih =>
    rw [List.filterMap_cons, List.filter_cons, failure?, fails]
    cases stop.holds environment with
    | true => exact ih
    | false =>
      cases stop.set.head.severity with
      | none => exact ih
      | some severity => exact congrArg (stop.set.id :: ·) ih

end Stop

namespace Walks

variable {environment : Environment} {tree : RuleTree} {records last : Records} {stops : List Stop}

/-- The stops of a walk through a tree are rule sets of the tree, in preorder. -/
theorem sublist_all (h : Walks environment [tree.root] records stops last) (hw : tree.WellFormed) :
    (stops.map Stop.set).Sublist tree.all := by
  have hall : RuleSet.preorderAll [tree.root] = tree.all := by
    rw [hw.all_eq, RuleSet.preorderAll, RuleSet.preorderAll, List.append_nil]
  exact hall ▸ h.sublist

/-- The walk stops only at rule sets of the tree. -/
theorem mem_all (h : Walks environment [tree.root] records stops last) (hw : tree.WellFormed)
    {stop : Stop} (hs : stop ∈ stops) : stop.set ∈ tree.all :=
  (h.sublist_all hw).subset (List.mem_map_of_mem hs)

/-- The walk stops in the order of the numbers. -/
theorem ids_ascending (h : Walks environment [tree.root] records stops last)
    (hw : tree.WellFormed) :
    (stops.map fun stop => stop.set.id).Pairwise fun earlier later => earlier < later := by
  have hids : (stops.map fun stop => stop.set.id) = (stops.map Stop.set).map RuleSet.id := by
    rw [List.map_map]
    rfl
  rw [hids]
  exact hw.ids_ascending.sublist ((h.sublist_all hw).map RuleSet.id)

/-- The walk stops at a rule set once. -/
theorem stop_eq (h : Walks environment [tree.root] records stops last) (hw : tree.WellFormed)
    {stop other : Stop} (hs : stop ∈ stops) (ho : other ∈ stops)
    (he : stop.set.id = other.set.id) : stop = other :=
  List.inj_on_of_nodup_map ((h.ids_ascending hw).imp fun hlt => UInt32.ne_of_lt hlt) hs ho he

/-- The rules that are run are rules of the tree, each once. -/
theorem fired_nodup (h : Walks environment [tree.root] records stops last)
    (hw : tree.WellFormed) :
    ((stops.flatMap fun stop => stop.fired environment).map Rule.id).Nodup := by
  have hrules : (stops.flatMap fun stop => stop.fired environment).Sublist
      (stops.flatMap fun stop => stop.set.head.rules) :=
    List.Sublist.flatMap_right stops fun stop _ => stop.fired_sublist environment
  have htree : (stops.flatMap fun stop => stop.set.head.rules).Sublist
      (tree.all.flatMap fun set => set.head.rules) := by
    have hsets := (h.sublist_all hw).flatMap fun set => set.head.rules
    rwa [List.flatMap_map] at hsets
  exact hw.rule_ids_nodup.sublist ((hrules.trans htree).map Rule.id)

/-- Where the conditions do not hold, none of the other rules is run. -/
theorem not_fired_of_not_holds (h : Walks environment [tree.root] records stops last)
    (hw : tree.WellFormed) {stop : Stop} (hs : stop ∈ stops) (hh : stop.holds environment = false)
    {rule : Rule} (hr : rule ∈ stop.set.head.assertive) :
    rule.id ∉ (stops.flatMap fun stop => stop.fired environment).map Rule.id := by
  intro hm
  obtain ⟨same, hf, he⟩ := List.mem_map.mp hm
  obtain ⟨other, ho, hf⟩ := List.mem_flatMap.mp hf
  have hrules : rule ∈ stop.set.head.rules := List.mem_append_right _ hr
  obtain ⟨hset, rfl⟩ := hw.rule_eq (h.mem_all hw ho) (h.mem_all hw hs)
    ((other.fired_sublist environment).subset hf) hrules he
  obtain rfl := h.stop_eq hw ho hs (congrArg RuleSet.id hset)
  rw [Stop.fired_of_not_holds hh] at hf
  have hordered := hw.ordered other.set (h.mem_all hw ho)
  have hpassive := hordered.evaluative_passive same
    ((other.set.head.tested_sublist environment other.records).subset hf)
  have hactive := hordered.assertive_active same hr
  rw [hpassive] at hactive
  cases hactive

/-- A rule set is among those with failures when its stop fails. -/
theorem mem_failed_iff (h : Walks environment [tree.root] records stops last)
    (hw : tree.WellFormed) {stop : Stop} (hs : stop ∈ stops) :
    stop.set.id ∈ ((stops.filter fun stop => stop.fails environment).map fun stop => stop.set.id) ↔
      stop.fails environment = true := by
  constructor
  · intro hm
    obtain ⟨other, ho, he⟩ := List.mem_map.mp hm
    obtain ⟨ho, hf⟩ := List.mem_filter.mp ho
    rw [h.stop_eq hw ho hs he] at hf
    exact hf
  · exact fun hf => List.mem_map.mpr ⟨stop, List.mem_filter.mpr ⟨hs, hf⟩, rfl⟩

end Walks

namespace Evaluator

variable {evaluator : Evaluator} {tree : RuleTree} {records after : Records} {report : Report}

/-- A report is what the stops of the walk say, with the verdict that the failures give. -/
theorem evaluate_walks
    (hp : ∀ node ∈ tree.root.preorder, ∀ rule ∈ node.head.evaluative, rule.isPassive = true)
    (h : evaluator.evaluate tree records = (.ok report, after)) :
    ∃ stops, Walks (evaluator.guide tree).environment [tree.root] records stops after ∧
      report.visited = stops.map (fun stop => stop.set.id) ∧
      report.fired = (stops.flatMap fun stop =>
        stop.fired (evaluator.guide tree).environment).map Rule.id ∧
      report.failures =
        stops.filterMap (fun stop => stop.failure? (evaluator.guide tree).environment) ∧
      report.passed = report.failures.all fun failure => failure.severity != .severe := by
  rw [evaluate] at h
  cases hv : (evaluator.guide tree).visit tree.root { records } with
  | error refusal walk =>
    rw [hv] at h
    cases h
  | ok result walk =>
    rw [hv] at h
    cases h
    obtain ⟨stops, hwalks, hvisited, hfired, hfailures⟩ := Guide.visit_walks tree.root hp hv
    refine ⟨stops, hwalks, hvisited, ?_, hfailures, rfl⟩
    rw [List.map_flatMap]
    exact hfired

/-- A report of what the stops of a walk through a well-formed tree say has the shape that the walk
gives it. -/
theorem shape_of_walks {environment : Environment} {stops : List Stop} (hw : tree.WellFormed)
    (h : Walks environment [tree.root] records stops after)
    (hvisited : report.visited = stops.map fun stop => stop.set.id)
    (hfired : report.fired = (stops.flatMap fun stop => stop.fired environment).map Rule.id)
    (hfailures : report.failures = stops.filterMap fun stop => stop.failure? environment)
    (hpassed : report.passed = report.failures.all fun failure => failure.severity != .severe) :
    report.Shape tree environment stops := by
  have hascending := h.ids_ascending hw
  have hfailed : report.failedSetIds =
      (stops.filter fun stop => stop.fails environment).map fun stop => stop.set.id := by
    rw [Report.failedSetIds, hfailures, Stop.failures_setIds]
  have horder : report.failedSetIds.Sublist report.visited := by
    rw [hfailed, hvisited]
    exact List.filter_sublist.map _
  have hvisits : ∀ set ∈ stops.map Stop.set, set.id ∈ report.visited := by
    intro set hm
    obtain ⟨stop, hs, rfl⟩ := List.mem_map.mp hm
    rw [hvisited]
    exact List.mem_map.mpr ⟨stop, hs, rfl⟩
  refine ⟨hvisited, fun stop hs => h.mem_all hw hs, ?starts, hvisited ▸ hascending, ?parents,
    ?fired_nodup, ?fired_visited, ?held, ?skipped, horder, ?passed_iff⟩
  case starts =>
    rw [hvisited, ← hw.root_id]
    cases h <;> rfl
  case parents =>
    intro stop hs hne
    rcases h.mem_or_child hs with hroot | ⟨above, ha, hchild⟩
    · rw [List.mem_singleton.mp hroot] at hne
      exact absurd hw.root_id hne
    · have hordered := hw.ordered above.set (h.mem_all hw ha)
      exact ⟨above.set.id, hvisits above.set (List.mem_map_of_mem ha),
        hordered.parents stop.set hchild⟩
  case fired_nodup =>
    rw [hfired]
    exact h.fired_nodup hw
  case fired_visited =>
    intro id hid
    rw [hfired] at hid
    obtain ⟨rule, hr, he⟩ := List.mem_map.mp hid
    obtain ⟨stop, hs, hr⟩ := List.mem_flatMap.mp hr
    exact ⟨stop, hs, rule, (stop.fired_sublist environment).subset hr, he⟩
  case held =>
    intro stop hs hh
    refine ⟨fun rule hr => ?_, fun child hc => ?_, ?_⟩
    · rw [hfired]
      refine List.mem_map.mpr ⟨rule, List.mem_flatMap.mpr ⟨stop, hs, ?_⟩, rfl⟩
      rw [Stop.fired_of_holds hh]
      exact List.mem_append_right _ hr
    · exact hvisits child (h.children_of_holds hs hh hc)
    · rw [hfailed, h.mem_failed_iff hw hs, Stop.fails, hh]
      exact Bool.false_ne_true
  case skipped =>
    intro stop hs hh
    refine ⟨fun rule hr => ?_, fun node hn => ?_, ?_⟩
    · rw [hfired]
      exact h.not_fired_of_not_holds hw hs hh hr
    · rw [hvisited]
      refine h.not_mem_of_not_holds ?_ hs hh hn
      rw [RuleSet.preorderAll, RuleSet.preorderAll, List.append_nil, ← hw.all_eq]
      exact hw.ids_nodup
    · have hnodup : report.failedSetIds.Nodup :=
        (hvisited ▸ hascending.imp fun hlt => UInt32.ne_of_lt hlt : report.visited.Nodup).sublist
          horder
      have hfails : stop.fails environment = stop.set.head.severity.isSome := by
        rw [Stop.fails, hh]
        rfl
      rw [hnodup.count, hfailed]
      simp only [h.mem_failed_iff hw hs, hfails]
  case passed_iff =>
    rw [hpassed, List.all_eq_true]
    simp only [bne_iff_ne]

/-- The report of every evaluation of a compiled tree that is not stopped has the shape that its
walk gives it, if the document has fewer than `UInt32.size - 2` elements. -/
theorem shape_of_evaluate {compiler next : Compiler} {markup : String}
    (hc : compiler.compile markup = .ok (tree, next))
    (hm : Markup.elementCount markup < UInt32.size - 2)
    (h : evaluator.evaluate tree records = (.ok report, after)) :
    ∃ stops, Walks (evaluator.guide tree).environment [tree.root] records stops after ∧
      report.Shape tree (evaluator.guide tree).environment stops := by
  obtain ⟨hroot, htree, -⟩ := Compiler.compile_cases hc
  have hw : tree.WellFormed := by
    rw [htree]
    exact Compiler.wellFormed_ofRoot hroot hm compiler.registry (compiler.version + 1)
  have hp : ∀ node ∈ tree.root.preorder, ∀ rule ∈ node.head.evaluative, rule.isPassive = true := by
    rw [← hw.all_eq]
    exact fun node hn => (hw.ordered node hn).evaluative_passive
  obtain ⟨stops, hwalks, hvisited, hfired, hfailures, hpassed⟩ := evaluate_walks hp h
  exact ⟨stops, hwalks, shape_of_walks hw hwalks hvisited hfired hfailures hpassed⟩

/-- A branch without conditions, and a check with a condition and a branch below it. -/
def checkMarkup : String :=
  "<if/><validate err=\"severe\"><eval>(N.Owner) POPULATED</eval><if/></validate>"

/-- On empty records a walk passes over the branch below a check that fails. -/
theorem shape_of_check : ∃ tree next report after stops,
    (Compiler.small 2).compile checkMarkup = .ok (tree, next) ∧
    Markup.elementCount checkMarkup < UInt32.size - 2 ∧
    evaluate { today := Calendar.Date.first } tree {} = (.ok report, after) ∧
    (report.visited, report.fired, report.failedSetIds, report.passed) =
      ([1, 2, 3], [1], [3], false) ∧
    Walks (guide { today := Calendar.Date.first } tree).environment [tree.root] {} stops after ∧
    report.Shape tree (guide { today := Calendar.Date.first } tree).environment stops := by
  have hm : Markup.elementCount checkMarkup < UInt32.size - 2 := by decide +kernel
  obtain ⟨tree, next, hc, hf⟩ : ∃ tree next,
      (Compiler.small 2).compile checkMarkup = .ok (tree, next) ∧
      (evaluate { today := Calendar.Date.first } tree {}).1.toOption.map (fun report =>
        (report.visited, report.fired, report.failedSetIds, report.passed)) =
          some ([1, 2, 3], [1], [3], false) :=
    Compiler.exists_compile (fun tree =>
      (evaluate { today := Calendar.Date.first } tree {}).1.toOption.map fun report =>
        (report.visited, report.fired, report.failedSetIds, report.passed))
      (some ([1, 2, 3], [1], [3], false)) (by decide +kernel)
  cases he : evaluate { today := Calendar.Date.first } tree {} with
  | mk result after =>
    rw [he] at hf
    cases result with
    | error refusal => cases hf
    | ok report =>
      obtain ⟨stops, hwalks, hshape⟩ := shape_of_evaluate hc hm he
      exact ⟨tree, next, report, after, stops, hc, hm, he, Option.some.inj hf, hwalks, hshape⟩

end Evaluator

end Rulebook
