import Mathlib.Data.List.Basic
import Rulebook.Proofs.Evaluation.Runs
import Rulebook.Proofs.Record.Cells

/-!
# Rules see only what they name

A rule mentions attributes: its target, its operands and the attributes in its clause. Two pairs of
records agree on attributes when they hold the same cells of them. On records that agree on what is
mentioned a rule has the same outcome, and what it writes keeps the agreement; so two walks through
the same tree go the same way, step by step, and write the same report.
-/

namespace Rulebook

/-- The attributes in an operand. -/
def Source.links : Source → List Link
  | .literal _ => []
  | .linked link => [link]

/-- The attributes at the end of a range of numbers. -/
def NumericBound.links : NumericBound → List Link
  | .literal _ => []
  | .linked link _ => [link]

/-- The attributes at the end of a range of dates. -/
def DateBound.links : DateBound → List Link
  | .literal _ | .today => []
  | .linked link => [link]

/-- The attributes in a clause. -/
def Clause.links : Clause → List Link
  | .populated => []
  | .domain members _ => members.flatMap Source.links
  | .numericLimit _ min max => min.links ++ max.links
  | .dateLimit _ min max _ => min.links ++ max.links
  | .assignment value _ => value.links
  | .arithmetic _ operands => operands.flatMap Source.links
  | .custom _ arguments => arguments.flatMap Source.links

/-- The attributes that a rule mentions, each with its record. -/
def Rule.links (rule : Rule) : List Link :=
  rule.link :: (rule.operands.flatMap Source.links ++ rule.clause.links)

/-- The attributes that the rules of a tree mention. -/
def RuleTree.links (tree : RuleTree) : List Link := tree.root.allRules.flatMap Rule.links

/-- Two pairs of records agree on attributes: row by row they hold the same texts of them, or none
in both. -/
def Records.AgreeOn (links : List Link) (first second : Records) : Prop :=
  ∀ link ∈ links, first.cells link = second.cells link

instance (links : List Link) (first second : Records) : Decidable (first.AgreeOn links second) :=
  inferInstanceAs (Decidable (∀ link ∈ links, first.cells link = second.cells link))

/-- The clause tests the target before it writes there, or does not write. -/
def Rule.readsTarget (rule : Rule) : Bool := rule.isPassive || rule.clause.isDefault

/-- The attributes that a rule reads when it runs: its target if it tests it, as a default does too,
and the attributes in its clause. -/
def Rule.reads (rule : Rule) : List Link :=
  if rule.readsTarget then rule.link :: rule.clause.links else rule.clause.links

/-- A rule mentions what it reads. -/
theorem Rule.reads_subset_links (rule : Rule) : rule.reads ⊆ rule.links := by
  intro link hl
  unfold reads at hl
  split at hl
  · rcases List.mem_cons.mp hl with rfl | hl
    · exact List.mem_cons_self
    · exact List.mem_cons_of_mem _ (List.mem_append_right _ hl)
  · exact List.mem_cons_of_mem _ (List.mem_append_right _ hl)

/-- Rules see the same of attributes in two pairs of records. -/
def Records.LookAlike (links : List Link) (first second : Records) : Prop :=
  ∀ link ∈ links, first.seen link = second.seen link

theorem Records.AgreeOn.lookAlike {links : List Link} {first second : Records}
    (h : first.AgreeOn links second) : first.LookAlike links second := fun link hl => by
  rw [seen, h link hl, seen]

section Reading

variable {links : List Link} {first second : Records}

theorem Records.LookAlike.value (h : first.LookAlike links second) {link : Link}
    (hl : link ∈ links) : first.value link = second.value link := by
  rw [value_eq_seen, value_eq_seen, h link hl]

theorem Records.LookAlike.values (h : first.LookAlike links second) {link : Link}
    (hl : link ∈ links) : first.values link = second.values link := by
  rw [values_eq_seen, values_eq_seen, h link hl]

/-- Operands have the same text. -/
theorem Source.value_alike (h : first.LookAlike links second) {source : Source}
    (hs : source.links ⊆ links) : source.value first = source.value second := by
  cases source with
  | literal text => rfl
  | linked link => exact h.value (hs List.mem_cons_self)

/-- Members of a set stand for the same texts. -/
theorem Source.values_alike (h : first.LookAlike links second) {source : Source}
    (hs : source.links ⊆ links) : source.values first = source.values second := by
  cases source with
  | literal text => rfl
  | linked link => exact h.values (hs List.mem_cons_self)

/-- Arithmetic takes the same texts from operands. -/
theorem Source.column_alike (h : first.LookAlike links second) {source : Source}
    (hs : source.links ⊆ links) : source.column first = source.column second := by
  cases source with
  | literal text => rfl
  | linked link =>
    rw [Records.column_linked, Records.column_linked, h link (hs List.mem_cons_self)]

/-- Ranges of numbers have the same ends. -/
theorem NumericBound.value_alike (h : first.LookAlike links second) {bound : NumericBound}
    (hb : bound.links ⊆ links) : bound.value first = bound.value second := by
  cases bound with
  | literal value => rfl
  | linked link offset => rw [value, value, h.value (hb List.mem_cons_self)]

/-- Ranges of dates have the same ends. -/
theorem DateBound.value_alike (h : first.LookAlike links second) {bound : DateBound}
    (hb : bound.links ⊆ links) (environment : Environment) :
    bound.value first environment = bound.value second environment := by
  cases bound with
  | literal date => rfl
  | today => rfl
  | linked link => rw [value, value, h.value (hb List.mem_cons_self)]

theorem Source.links_subset {sources : List Source} (hs : sources.flatMap Source.links ⊆ links)
    {source : Source} (hm : source ∈ sources) : source.links ⊆ links :=
  fun _ hl => hs (List.mem_flatMap.mpr ⟨source, hm, hl⟩)

namespace Rule

variable {rule : Rule}

/-- The target is in a set on both pairs of records or on none. -/
theorem isInDomain_alike (h : first.LookAlike links second) (hr : rule.link ∈ links)
    {members : List Source} (hm : members.flatMap Source.links ⊆ links) (allRows : Bool) :
    rule.isInDomain first members allRows = rule.isInDomain second members allRows := by
  have hcandidates : rule.candidates first allRows = rule.candidates second allRows := by
    rw [candidates, candidates, h.value hr, h.values hr]
  have hmembers : (members.flatMap fun member => member.values first) =
      members.flatMap fun member => member.values second :=
    List.flatMap_congr fun member hin => Source.values_alike h (Source.links_subset hm hin)
  rw [isInDomain, isInDomain, hcandidates, hmembers]

/-- The target is in a range of numbers on both pairs of records or on none, or the same text is no
number. -/
theorem isInRange_alike (h : first.LookAlike links second) (hr : rule.link ∈ links)
    {min max : NumericBound} (hb : min.links ++ max.links ⊆ links) :
    rule.isInRange first min max = rule.isInRange second min max := by
  obtain ⟨hmin, hmax⟩ := List.append_subset.mp hb
  rw [isInRange, isInRange, h.value hr, NumericBound.value_alike h hmin,
    NumericBound.value_alike h hmax]

/-- The target is between two dates on both pairs of records or on none, or the same text is no
date. -/
theorem isBetween_alike (h : first.LookAlike links second) (hr : rule.link ∈ links)
    {min max : DateBound} (hb : min.links ++ max.links ⊆ links) (environment : Environment) :
    rule.isBetween first environment min max = rule.isBetween second environment min max := by
  obtain ⟨hmin, hmax⟩ := List.append_subset.mp hb
  rw [isBetween, isBetween, h.value hr, DateBound.value_alike h hmin,
    DateBound.value_alike h hmax]

/-- Arithmetic has the same result. -/
theorem compute_alike (h : first.LookAlike links second) {operands : List Source}
    (ho : operands.flatMap Source.links ⊆ links) (operation : Arithmetic) :
    compute first operation operands = compute second operation operands := by
  have hcolumns : (operands.flatMap fun operand => operand.column first) =
      operands.flatMap fun operand => operand.column second :=
    List.flatMap_congr fun operand hin => Source.column_alike h (Source.links_subset ho hin)
  rw [compute, compute, hcolumns]

/-- Two runs of a rule do the same: they are refused for the same reason, they answer the same and
write nothing, or they write the same text to the target. -/
inductive RunsAlike (rule : Rule) (first second : Records) :
    Except Stopped (Outcome × Records) → Except Stopped (Outcome × Records) → Prop where
  /-- The rule refused both and wrote to none of them. -/
  | refused (refusal : Refusal) :
    RunsAlike rule first second (.error ⟨refusal, first⟩) (.error ⟨refusal, second⟩)
  /-- The rule wrote to none of them. -/
  | answered (outcome : Outcome) :
    RunsAlike rule first second (.ok (outcome, first)) (.ok (outcome, second))
  /-- The rule, which is not passive, wrote the same text to both. -/
  | wrote (text : String) (hp : rule.isPassive = false) :
    RunsAlike rule first second (.ok (rule.write first text)) (.ok (rule.write second text))

/-- A rule does the same on records in which it sees the same of what it reads. -/
theorem execute_alike (h : first.LookAlike rule.reads second) (environment : Environment) :
    RunsAlike rule first second (rule.execute environment first)
      (rule.execute environment second) := by
  have hc : rule.clause.links ⊆ rule.reads := by
    unfold reads
    split
    · exact List.subset_cons_self _ _
    · exact List.Subset.refl _
  have hr : rule.readsTarget = true → rule.link ∈ rule.reads := fun ht => by
    rw [reads, if_pos ht]
    exact List.mem_cons_self
  rw [readsTarget, isPassive] at hr
  cases hclause : rule.clause with
  | populated =>
    rw [hclause] at hr
    simp only [execute, hclause, isPopulated, h.value (hr rfl)]
    exact .answered _
  | domain members allRows =>
    rw [hclause] at hc hr
    simp only [execute, hclause, isInDomain_alike h (hr rfl) hc]
    exact .answered _
  | numericLimit comparison min max =>
    rw [hclause] at hc hr
    simp only [execute, hclause, isInRange_alike h (hr rfl) hc]
    exact .answered _
  | dateLimit comparison min max today =>
    rw [hclause] at hc hr
    simp only [execute, hclause, isBetween_alike h (hr rfl) hc]
    exact .answered _
  | assignment value defaultOnly =>
    rw [hclause] at hc hr
    have hp : rule.isPassive = false := by rw [isPassive, hclause]; rfl
    simp only [execute, hclause, Source.value_alike h hc]
    cases defaultOnly with
    | false => exact .wrote _ hp
    | true =>
      rw [h.value (hr rfl)]
      split
      · exact .answered _
      · exact .wrote _ hp
  | arithmetic operation operands =>
    rw [hclause] at hc
    simp only [execute, hclause, compute_alike h hc]
    split
    · exact .wrote _ (by rw [isPassive, hclause]; rfl)
    · exact .answered _
  | custom name arguments =>
    rw [hclause] at hc
    have harguments : (arguments.map fun argument => argument.value first) =
        arguments.map fun argument => argument.value second :=
      List.map_congr_left fun argument hin =>
        Source.value_alike h (Source.links_subset hc hin)
    simp only [execute, hclause, harguments]
    split
    · exact .wrote _ (by rw [isPassive, hclause]; rfl)
    · exact .refused _

end Rule

end Reading

/-- Results of one run on two pairs of records are alike: the same value or the same refusal, and
records in a relation. -/
inductive Rule.Alike (relation : Records → Records → Prop) :
    Except Stopped (Outcome × Records) → Except Stopped (Outcome × Records) → Prop where
  /-- The rule ran on both with the same outcome. -/
  | ok (outcome : Outcome) {first second : Records} (h : relation first second) :
    Alike relation (.ok (outcome, first)) (.ok (outcome, second))
  /-- The rule refused both for the same reason. -/
  | error (refusal : Refusal) {first second : Records} (h : relation first second) :
    Alike relation (.error ⟨refusal, first⟩) (.error ⟨refusal, second⟩)

namespace Rule

variable {links : List Link} {first second : Records} {rule : Rule}

/-- Writing the same text keeps the agreement. -/
theorem write_agree (h : first.AgreeOn links second) (text : String) :
    Alike (Records.AgreeOn links) (.ok (rule.write first text)) (.ok (rule.write second text)) := by
  unfold write
  cases hf : first.write? rule.link text with
  | none =>
    have hs : second.write? rule.link text = none :=
      Records.write?_eq_none_iff.mpr (Records.write?_eq_none_iff.mp hf)
    rw [hs]
    exact .ok _ h
  | some written =>
    cases hs : second.write? rule.link text with
    | none =>
      rw [Records.write?_eq_none_iff.mpr (Records.write?_eq_none_iff.mp hs)] at hf
      cases hf
    | some other =>
      refine .ok _ fun link hl => ?_
      rw [Records.cells_write? hf, Records.cells_write? hs, h link hl]

/-- A rule does the same on records that agree on what it mentions, and keeps the agreement on
everything else as well. -/
theorem execute_agree (h : first.AgreeOn links second) (hl : rule.links ⊆ links)
    (environment : Environment) :
    Alike (Records.AgreeOn links) (rule.execute environment first)
      (rule.execute environment second) := by
  have hreads : first.LookAlike rule.reads second :=
    fun link hm => h.lookAlike link (hl (rule.reads_subset_links hm))
  have hruns := execute_alike hreads environment
  generalize rule.execute environment first = left at hruns ⊢
  generalize rule.execute environment second = right at hruns ⊢
  cases hruns with
  | refused refusal => exact .error refusal h
  | answered outcome => exact .ok outcome h
  | wrote text hp => exact write_agree h text

end Rule

/-- Two runs of a part of a walk end alike: with the same value or the same refusal, the same
report, and records in a relation. -/
inductive Walking.Alike (relation : Records → Records → Prop) {α : Type} :
    EStateM.Result Refusal Walk α → EStateM.Result Refusal Walk α → Prop where
  /-- Neither run is stopped. -/
  | ok (value : α) {first second : Walk} (hr : relation first.records second.records)
    (he : first.report = second.report) : Alike relation (.ok value first) (.ok value second)
  /-- Both runs are stopped for the same reason. -/
  | error (refusal : Refusal) {first second : Walk} (hr : relation first.records second.records)
    (he : first.report = second.report) :
    Alike relation (.error refusal first) (.error refusal second)

/-- A part of a walk ends alike on records in a relation. -/
def Walking.Respects (relation : Records → Records → Prop) {α : Type} (part : Walking α) : Prop :=
  ∀ first second : Walk, relation first.records second.records → first.report = second.report →
    Alike relation (part first) (part second)

/-- Parts that end alike end alike when they follow each other. -/
theorem Walking.Respects.bind {relation : Records → Records → Prop} {α β : Type}
    {part : Walking α} {next : α → Walking β} (h : part.Respects relation)
    (h' : ∀ value, (next value).Respects relation) : (part >>= next).Respects relation := by
  intro first second hr he
  have hpart := h first second hr he
  simp only [Bind.bind, EStateM.bind]
  generalize part first = left at hpart
  generalize part second = right at hpart
  cases hpart with
  | ok value hr he => exact h' value _ _ hr he
  | error refusal hr he => exact .error refusal hr he

/-- A part of a walk that goes on with the walk so far ends alike where what follows does. -/
theorem Walking.respects_get {relation : Records → Records → Prop} {α : Type}
    {next : Walk → Walking α}
    (h : ∀ first second : Walk, relation first.records second.records →
      first.report = second.report → Alike relation (next first first) (next second second)) :
    (get >>= next).Respects relation := h

/-- A part of a walk that changes the report by what it says changes equal reports equally. -/
theorem Walking.respects_modify {relation : Records → Records → Prop} {f : Walk → Walk}
    {g : Report → Report} (hf : ∀ walk, f walk = { walk with report := g walk.report }) :
    (modify f : Walking Unit).Respects relation := by
  intro first second hr he
  have hends : ∀ walk, (modify f : Walking Unit) walk =
      .ok () { walk with report := g walk.report } := fun walk => by rw [← hf]; rfl
  rw [hends, hends]
  exact .ok () hr (congrArg g he)

namespace Guide

variable {relation : Records → Records → Prop}

/-- Noting a step ends alike. -/
theorem respects_note (guide : Guide) (entry : TraceEntry) :
    (guide.note entry).Respects relation := by
  refine Walking.respects_modify (g := fun report =>
    if guide.traced then { report with trace := report.trace ++ [entry] } else report) ?_
  intro walk
  split <;> rfl

theorem respects_pure {α : Type} (value : α) : (pure value : Walking α).Respects relation :=
  fun _ _ hr he => .ok value hr he

/-- Running a rule ends alike where the rule does. -/
theorem respects_fire (guide : Guide) {rule : Rule}
    (hrule : ∀ {first second : Records}, relation first second → Rule.Alike relation
      (rule.execute guide.environment first) (rule.execute guide.environment second)) :
    (guide.fire rule).Respects relation := by
  refine Walking.Respects.bind (Walking.respects_modify
    (g := fun report => { report with fired := report.fired ++ [rule.id] }) fun _ => rfl) ?_
  refine fun _ => Walking.respects_get fun first second hr he => ?_
  have hrun := hrule hr
  generalize rule.execute guide.environment first.records = left at hrun
  generalize rule.execute guide.environment second.records = right at hrun
  cases hrun with
  | error refusal h => exact .error refusal h he
  | ok outcome h =>
    exact (guide.respects_note _).bind (fun _ => respects_pure outcome) ⟨_, first.report⟩
      ⟨_, second.report⟩ h he

/-- Every part of a walk ends alike where its rules do. -/
theorem respects_composes (guide : Guide) {rules : List Rule}
    (hrules : ∀ rule ∈ rules, ∀ {first second : Records}, relation first second →
      Rule.Alike relation (rule.execute guide.environment first)
        (rule.execute guide.environment second)) :
    Walking.Composes guide rules fun _ part => part.Respects relation where
  give value := respects_pure value
  follow h h' := h.bind h'
  note entry := guide.respects_note entry
  enter id := Walking.respects_modify
    (g := fun report => { report with visited := report.visited ++ [id] }) fun _ => rfl
  fail failure := Walking.respects_modify
    (g := fun report => { report with failures := report.failures ++ [failure] }) fun _ => rfl
  fire hr := guide.respects_fire (hrules _ hr)

end Guide

namespace Evaluator

/-- Two evaluations of a tree on records that agree on the attributes that its rules mention end
with the same report or the same refusal, and the records that they leave agree on them again. -/
theorem evaluate_agree (evaluator : Evaluator) (tree : RuleTree) {first second : Records}
    (h : first.AgreeOn tree.links second) :
    (evaluator.evaluate tree first).1 = (evaluator.evaluate tree second).1 ∧
      (evaluator.evaluate tree first).2.AgreeOn tree.links (evaluator.evaluate tree second).2 := by
  have hrules : ∀ rule ∈ tree.root.allRules, ∀ {first second : Records},
      first.AgreeOn tree.links second → Rule.Alike (Records.AgreeOn tree.links)
        (rule.execute (evaluator.guide tree).environment first)
        (rule.execute (evaluator.guide tree).environment second) :=
    fun rule hr _ _ h => Rule.execute_agree h
      (fun _ hl => List.mem_flatMap.mpr ⟨rule, hr, hl⟩) _
  have hvisit := (Guide.respects_composes (evaluator.guide tree) hrules).visit tree.root
    (List.Subset.refl _) { records := first } { records := second } h rfl
  rw [evaluate, evaluate]
  generalize (evaluator.guide tree).visit tree.root { records := first } = left at hvisit
  generalize (evaluator.guide tree).visit tree.root { records := second } = right at hvisit
  cases hvisit with
  | ok value hr he => exact ⟨congrArg (fun report => Except.ok report.judged) he, hr⟩
  | error refusal hr he => exact ⟨rfl, hr⟩

/-- The evaluations agree on two new records of which the second has a group that no rule names and
the group of the owner without a row. -/
theorem evaluate_agree_unnamed :
    let tree := RuleTree.ofRoot RuleSet.writing .masking 1
    let first : Records := {}
    let second : Records :=
      { new := ⟨(Table.empty.insert 10 []).insert 30 [Table.empty.insert 7 "unnamed"]⟩ }
    first ≠ second ∧ first.AgreeOn tree.links second ∧
      (evaluate { today := Calendar.Date.first, traced := true } tree first).1 =
        (evaluate { today := Calendar.Date.first, traced := true } tree second).1 ∧
      (evaluate { today := Calendar.Date.first, traced := true } tree first).2.AgreeOn tree.links
        (evaluate { today := Calendar.Date.first, traced := true } tree second).2 := by
  intro tree first second
  have h : first.AgreeOn tree.links second := by decide +kernel
  exact ⟨by decide +kernel, h, evaluate_agree _ _ h⟩

end Evaluator

end Rulebook
