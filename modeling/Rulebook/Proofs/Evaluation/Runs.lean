import Rulebook.Proofs.Evaluation.Parts

/-!
# The rules that a walk runs

A walk through any tree runs rules of the tree one after the other, each on the records that the one
before left, and reports each when it runs. A walk that is stopped ran rules in the same way up to
one that refuses, and leaves the records on which that one refused. What rules keep of the records,
every walk keeps.
-/

namespace Rulebook

/-- The clause writes only where nothing is. -/
def Clause.isDefault : Clause → Bool
  | .assignment _ defaultOnly => defaultOnly
  | _ => false

/-- The text that a clause computes from records for its target. -/
inductive Clause.Computes (environment : Environment) (records : Records) :
    Clause → String → Prop where
  /-- An assignment takes its value. -/
  | assigned (value : Source) (defaultOnly : Bool) :
    Computes environment records (.assignment value defaultOnly) (value.value records)
  /-- Arithmetic takes the whole part of its result, which is a finite number. -/
  | calculated {operation : Arithmetic} {operands : List Source}
    (h : (Rule.compute records operation operands).isFinite = true) :
    Computes environment records (.arithmetic operation operands)
      (Decimal.wholePart (Rule.compute records operation operands))
  /-- A custom operator takes what its function makes of four arguments, which are empty where the
  clause has none. -/
  | served {name first second third fourth : String} {arguments : List Source}
    {operation : Operation} (h : environment.registry.find? name = some operation)
    (ha : ((arguments.map fun argument => argument.value records) ++
      List.replicate maxArguments "").take maxArguments = [first, second, third, fourth]) :
    Computes environment records (.custom name arguments) (operation first second third fourth)

/-- A custom operator that is found computes what it is invoked for. -/
theorem Clause.computes_of_invoke {environment : Environment} {records : Records}
    {name text : String} {arguments : List Source}
    (h : environment.registry.invoke name (arguments.map fun argument => argument.value records) =
      .ok text) : Computes environment records (.custom name arguments) text := by
  have hpadded : ∀ texts : List String,
      (texts ++ List.replicate maxArguments "").take maxArguments =
      [texts[0]?.getD "", texts[1]?.getD "", texts[2]?.getD "", texts[3]?.getD ""] := by
    rintro (_ | ⟨first, _ | ⟨second, _ | ⟨third, _ | ⟨fourth, more⟩⟩⟩⟩) <;> rfl
  unfold Registry.invoke at h
  split at h
  · next operation hfound =>
    cases h
    exact .served hfound (hpadded _)
  · cases h

/-- The course that a run of a rule takes from records to an outcome and records. -/
inductive Rule.Course (rule : Rule) (environment : Environment) (records : Records) :
    Outcome → Records → Prop where
  /-- A passive rule answers. -/
  | answered (hp : rule.isPassive = true) (outcome : Outcome) :
    Course rule environment records outcome records
  /-- A default finds a value and leaves it. -/
  | kept (hd : rule.clause.isDefault = true) (hv : records.value rule.link ≠ "") :
    Course rule environment records { passed := true } records
  /-- A rule fails to write. -/
  | failed (fault : RuleFault) : Course rule environment records (rule.failed fault) records
  /-- A rule writes what its clause computes to its target, a default where nothing is. -/
  | wrote {text : String} {written : Records} (hp : rule.isPassive = false)
    (hd : rule.clause.isDefault = true → records.value rule.link = "")
    (hc : rule.clause.Computes environment records text)
    (hw : records.write? rule.link text = some written) :
    Course rule environment records { passed := true } written

namespace Rule

variable {rule : Rule} {environment : Environment} {records after : Records} {text : String}

/-- A rule that has a text to write writes it, or fails for want of a record. -/
theorem course_write (hp : rule.isPassive = false)
    (hd : rule.clause.isDefault = true → records.value rule.link = "")
    (hc : rule.clause.Computes environment records text) :
    rule.Course environment records (rule.write records text).1 (rule.write records text).2 := by
  unfold write
  cases hw : records.write? rule.link text with
  | none => exact .failed _
  | some written => exact .wrote hp hd hc hw

/-- A rule that runs takes one of these courses. -/
theorem course_of_execute {outcome : Outcome}
    (h : rule.execute environment records = .ok (outcome, after)) :
    rule.Course environment records outcome after := by
  have hpassive : rule.isPassive = rule.clause.kind.isPassive := rfl
  have hwrite : ∀ {text}, rule.isPassive = false →
      (rule.clause.isDefault = true → records.value rule.link = "") →
      rule.clause.Computes environment records text →
      rule.write records text = (outcome, after) → rule.Course environment records outcome after :=
    fun hp hd hc hw => by
      have hcourse := course_write hp hd hc
      rwa [hw] at hcourse
  cases hclause : rule.clause with
  | populated | domain members allRows | numericLimit comparison min max
  | dateLimit comparison min max today =>
    rw [hclause] at hpassive
    simp only [execute, hclause] at h
    cases h
    exact .answered hpassive _
  | assignment value defaultOnly =>
    rw [hclause] at hpassive hwrite
    simp only [execute, hclause] at h
    split at h
    · next hkept =>
      cases h
      rw [Bool.and_eq_true, bne_iff_ne] at hkept
      exact .kept (by rw [hclause]; exact hkept.1) hkept.2
    · next hempty =>
      refine hwrite hpassive (fun hd => ?_) (.assigned value defaultOnly) (Except.ok.inj h)
      rw [Clause.isDefault] at hd
      simpa [hd] using hempty
  | arithmetic operation operands =>
    rw [hclause] at hpassive hwrite
    simp only [execute, hclause] at h
    split at h
    · next hfinite =>
      exact hwrite hpassive (fun hd => absurd hd Bool.false_ne_true) (.calculated hfinite)
        (Except.ok.inj h)
    · cases h
      exact .failed _
  | custom name arguments =>
    rw [hclause] at hpassive hwrite
    simp only [execute, hclause] at h
    split at h
    · next text htext =>
      exact hwrite hpassive (fun hd => absurd hd Bool.false_ne_true)
        (Clause.computes_of_invoke htext) (Except.ok.inj h)
    · cases h

/-- A rule that runs leaves the records as they are, or it is one that writes, and writes to its
target; a default does so only where the target is empty. -/
theorem execute_cases {outcome : Outcome}
    (h : rule.execute environment records = .ok (outcome, after)) :
    after = records ∨ rule.isPassive = false ∧
      (rule.clause.isDefault = true → records.value rule.link = "") ∧
      ∃ text, records.write? rule.link text = some after := by
  cases course_of_execute h with
  | answered | kept | failed => exact .inl rfl
  | wrote hp hd hc hw => exact .inr ⟨hp, hd, _, hw⟩

/-- A rule refuses only for a custom operator without a function, and leaves the records alone. -/
theorem execute_error {stopped : Stopped}
    (h : rule.execute environment records = .error stopped) :
    ∃ name arguments, rule.clause = .custom name arguments ∧
      environment.registry.contains name = false ∧
      stopped = ⟨.unboundOperator name, records⟩ := by
  cases hc : rule.clause with
  | custom name arguments =>
    simp only [execute, hc, Registry.invoke] at h
    cases hf : environment.registry.find? name with
    | some operation =>
      rw [hf] at h
      cases h
    | none =>
      rw [hf] at h
      cases h
      refine ⟨name, arguments, rfl, ?_, rfl⟩
      rw [Registry.contains, hf]
      rfl
  | populated | domain members allRows | numericLimit comparison min max
  | dateLimit comparison min max today =>
    simp only [execute, hc] at h
    cases h
  | assignment value defaultOnly =>
    simp only [execute, hc] at h
    split at h <;> cases h
  | arithmetic operation operands =>
    simp only [execute, hc] at h
    split at h <;> cases h

end Rule

section ExecuteAll

variable {environment : Environment} {records after : Records} {rules : List Rule}

/-- Rules of two lists run one list after the other. -/
theorem executeAll_append (environment : Environment) (records : Records) (left right : List Rule) :
    executeAll environment records (left ++ right) =
      (executeAll environment records left).bind fun between =>
        executeAll environment between right := by
  rw [executeAll, List.foldlM_append]
  rfl

/-- One rule leaves the records that it leaves by itself. -/
theorem executeAll_singleton {rule : Rule} {outcome : Outcome}
    (h : rule.execute environment records = .ok (outcome, after)) :
    executeAll environment records [rule] = .ok after := by
  rw [executeAll, List.foldlM_cons, h]
  rfl

/-- Rules that run in order begin with the first one. -/
theorem executeAll_cons {rule : Rule} (h : executeAll environment records (rule :: rules) =
    .ok after) : ∃ outcome between, rule.execute environment records = .ok (outcome, between) ∧
      executeAll environment between rules = .ok after := by
  rw [executeAll, List.foldlM_cons] at h
  cases he : rule.execute environment records with
  | error refusal =>
    rw [he] at h
    cases h
  | ok result =>
    rw [he] at h
    exact ⟨result.1, result.2, rfl, h⟩

/-- What each of some rules keeps of the records is kept when they run in order. -/
theorem executeAll_keeps (property : Records → Prop)
    (hkeeps : ∀ rule ∈ rules, ∀ {before : Records} {outcome : Outcome} {after : Records},
      rule.execute environment before = .ok (outcome, after) → property before → property after)
    (h : executeAll environment records rules = .ok after) (hp : property records) :
    property after := by
  induction rules generalizing records with
  | nil =>
    cases h
    exact hp
  | cons rule more ih =>
    obtain ⟨hrule, hmore⟩ := List.forall_mem_cons.mp hkeeps
    obtain ⟨outcome, between, hexecute, hrest⟩ := executeAll_cons h
    exact ih hmore hrest (hrule hexecute hp)

end ExecuteAll

/-- A part of a walk runs rules in order and reports them. -/
structure Walk.Runs (environment : Environment) (rules : List Rule) (before after : Walk) :
    Prop where
  /-- The rules lead from the records before to those after. -/
  records : executeAll environment before.records rules = .ok after.records
  /-- The rules are reported behind those that ran before. -/
  fired : after.report.fired = before.report.fired ++ rules.map Rule.id

/-- A part of a walk that runs rules behind a part that runs others. -/
theorem Walk.Runs.trans {environment : Environment} {rules more : List Rule}
    {first second third : Walk} (h : Walk.Runs environment rules first second)
    (h' : Walk.Runs environment more second third) :
    Walk.Runs environment (rules ++ more) first third := by
  refine ⟨?_, ?_⟩
  · rw [executeAll_append, h.records]
    exact h'.records
  · rw [h'.fired, h.fired, List.map_append, List.append_assoc]

/-- A part of a walk runs some of the rules in order. If it is stopped, the rule behind them refuses
the records that are left. -/
structure Walking.RunsAmong (environment : Environment) (rules : List Rule) {α : Type}
    (part : Walking α) : Prop where
  /-- A part that is not stopped runs some of the rules. -/
  ok {before after : Walk} {value : α} (h : part before = .ok value after) :
    ∃ run ⊆ rules, Walk.Runs environment run before after
  /-- A part that is stopped runs some of the rules up to one that refuses. -/
  error {before after : Walk} {refusal : Refusal} (h : part before = .error refusal after) :
    ∃ run ⊆ rules, executeAll environment before.records run = .ok after.records ∧
      ∃ last ∈ rules,
        last.execute environment after.records = .error ⟨refusal, after.records⟩

/-- A part of a walk that stops it does so in its first half, or in the second half behind the
first. -/
theorem Walking.bind_eq_error {α β : Type} {first : Walking α} {second : α → Walking β}
    {before after : Walk} {refusal : Refusal}
    (h : (first >>= second) before = .error refusal after) :
    first before = .error refusal after ∨ ∃ value between, first before = .ok value between ∧
      second value between = .error refusal after := by
  cases hf : first before with
  | ok value between =>
    refine .inr ⟨value, between, rfl, ?_⟩
    simpa only [bind, EStateM.bind, hf] using h
  | error other between =>
    left
    simp only [bind, EStateM.bind, hf] at h
    cases h
    rfl

/-- A part of a walk that leaves the records alone and reports no rule runs none. -/
theorem Walking.runsAmong_modify {environment : Environment} {rules : List Rule} {f : Walk → Walk}
    (hr : ∀ walk, (f walk).records = walk.records)
    (hf : ∀ walk, (f walk).report.fired = walk.report.fired) :
    Walking.RunsAmong environment rules (modify f : Walking Unit) where
  ok {before after value} h := by
    cases h
    refine ⟨[], List.nil_subset _, ?_, ?_⟩
    · rw [hr]
      rfl
    · rw [hf]
      exact (List.append_nil _).symm
  error h := nomatch h

/-- What each part of a walk runs is run when the parts follow each other. -/
theorem Walking.RunsAmong.bind {environment : Environment} {rules : List Rule} {α β : Type}
    {first : Walking α} {second : α → Walking β} (h : first.RunsAmong environment rules)
    (h' : ∀ value, (second value).RunsAmong environment rules) :
    (first >>= second).RunsAmong environment rules where
  ok {before after value} hboth := by
    obtain ⟨value, between, hfirst, hsecond⟩ := Walking.bind_eq_ok hboth
    obtain ⟨run, hrun, hruns⟩ := h.ok hfirst
    obtain ⟨more, hmore, hruns'⟩ := (h' value).ok hsecond
    exact ⟨run ++ more, List.append_subset.mpr ⟨hrun, hmore⟩, hruns.trans hruns'⟩
  error {before after refusal} hboth := by
    rcases Walking.bind_eq_error hboth with hfirst | ⟨value, between, hfirst, hsecond⟩
    · exact h.error hfirst
    · obtain ⟨run, hrun, hruns⟩ := h.ok hfirst
      obtain ⟨more, hmore, hexecute, hlast⟩ := (h' value).error hsecond
      refine ⟨run ++ more, List.append_subset.mpr ⟨hrun, hmore⟩, ?_, hlast⟩
      rw [executeAll_append, hruns.records]
      exact hexecute

namespace Guide

/-- Running a rule is stopped where the rule refuses, with the records that it leaves then. -/
theorem fire_error {guide : Guide} {rule : Rule} {before after : Walk} {refusal : Refusal}
    (h : guide.fire rule before = .error refusal after) :
    rule.execute guide.environment before.records = .error ⟨refusal, after.records⟩ := by
  rcases Walking.bind_eq_error h with h | ⟨_, noted, hnoted, h⟩
  · cases h
  cases hnoted
  rcases Walking.bind_eq_error h with h | ⟨_, _, hget, h⟩
  · cases h
  cases hget
  cases he : rule.execute guide.environment before.records with
  | error stopped =>
    simp only [he] at h
    cases h
    rfl
  | ok result =>
    simp only [he] at h
    rcases Walking.bind_eq_error h with h | ⟨_, _, _, h⟩
    · cases h
    · rcases Walking.bind_eq_error h with h | ⟨_, _, _, h⟩
      · cases h
      · cases h

/-- A rule that is refused leaves the records as they are. -/
theorem records_of_fire_error {guide : Guide} {rule : Rule} {before after : Walk}
    {refusal : Refusal} (h : guide.fire rule before = .error refusal after) :
    after.records = before.records := by
  obtain ⟨_, _, -, -, heq⟩ := Rule.execute_error (fire_error h)
  exact congrArg Stopped.records heq

/-- Running a rule runs it and nothing else. -/
theorem runsAmong_fire (guide : Guide) {rules : List Rule} {rule : Rule} (hr : rule ∈ rules) :
    (guide.fire rule).RunsAmong guide.environment rules where
  ok {before after outcome} h := by
    obtain ⟨hexecute, hadds⟩ := fire_spec h
    have hrun : [rule] ⊆ rules := List.cons_subset.mpr ⟨hr, List.nil_subset _⟩
    exact ⟨[rule], hrun, executeAll_singleton hexecute, hadds.fired⟩
  error {before after refusal} h := by
    have hexecute := fire_error h
    rw [← records_of_fire_error h] at hexecute ⊢
    exact ⟨[], List.nil_subset _, rfl, rule, hr, hexecute⟩

/-- Every part of a walk runs rules among those that it may run. -/
theorem runsAmong_composes (guide : Guide) (rules : List Rule) :
    Walking.Composes guide rules fun _ part => part.RunsAmong guide.environment rules where
  give value := ⟨fun h => by
    cases h
    exact ⟨[], List.nil_subset _, rfl, (List.append_nil _).symm⟩, fun h => nomatch h⟩
  follow h h' := h.bind h'
  note entry := by
    refine Walking.runsAmong_modify (fun walk => ?_) (fun walk => ?_)
    · split <;> rfl
    · split <;> rfl
  enter id := Walking.runsAmong_modify (fun _ => rfl) (fun _ => rfl)
  fail failure := Walking.runsAmong_modify (fun _ => rfl) (fun _ => rfl)
  fire hr := guide.runsAmong_fire hr

/-- The visit of a rule set runs rules of its tree. -/
theorem runsAmong_visit (guide : Guide) (set : RuleSet) :
    (guide.visit set).RunsAmong guide.environment set.allRules :=
  (guide.runsAmong_composes set.allRules).visit set (List.Subset.refl _)

end Guide

namespace Evaluator

variable {evaluator : Evaluator} {tree : RuleTree} {records after : Records}

/-- An evaluation with a report ran rules of the tree in order, those of the report, from the
records before to those after. -/
theorem runs_of_evaluate {report : Report}
    (h : evaluator.evaluate tree records = (.ok report, after)) :
    ∃ run ⊆ tree.root.allRules, report.fired = run.map Rule.id ∧
      executeAll (evaluator.guide tree).environment records run = .ok after := by
  rw [evaluate] at h
  cases hv : (evaluator.guide tree).visit tree.root { records } with
  | error refusal walk =>
    rw [hv] at h
    cases h
  | ok result walk =>
    rw [hv] at h
    cases h
    obtain ⟨run, hrun, hruns⟩ := (Guide.runsAmong_visit _ tree.root).ok hv
    exact ⟨run, hrun, hruns.fired, hruns.records⟩

/-- An evaluation that is stopped ran rules of the tree in order up to one that refuses on the
records that are left. -/
theorem runs_of_evaluate_error {refusal : Refusal}
    (h : evaluator.evaluate tree records = (.error refusal, after)) :
    ∃ run ⊆ tree.root.allRules,
      executeAll (evaluator.guide tree).environment records run = .ok after ∧
      ∃ last ∈ tree.root.allRules,
        last.execute (evaluator.guide tree).environment after = .error ⟨refusal, after⟩ := by
  rw [evaluate] at h
  cases hv : (evaluator.guide tree).visit tree.root { records } with
  | ok result walk =>
    rw [hv] at h
    cases h
  | error other walk =>
    rw [hv] at h
    cases h
    exact (Guide.runsAmong_visit _ tree.root).error hv

/-- What each rule of a tree keeps of the records, every evaluation of the tree keeps, also one that
is stopped. -/
theorem evaluate_keeps (property : Records → Prop)
    (hkeeps : ∀ rule ∈ tree.root.allRules, ∀ {before : Records} {outcome : Outcome}
      {after : Records}, rule.execute (evaluator.guide tree).environment before =
        .ok (outcome, after) → property before → property after)
    (hp : property records) : property (evaluator.evaluate tree records).2 := by
  obtain ⟨run, hrun, hexecute⟩ : ∃ run ⊆ tree.root.allRules,
      executeAll (evaluator.guide tree).environment records run =
        .ok (evaluator.evaluate tree records).2 := by
    cases he : evaluator.evaluate tree records with
    | mk result after =>
      cases result with
      | ok report =>
        obtain ⟨run, hrun, -, hexecute⟩ := runs_of_evaluate he
        exact ⟨run, hrun, hexecute⟩
      | error refusal =>
        obtain ⟨run, hrun, hexecute, -⟩ := runs_of_evaluate_error he
        exact ⟨run, hrun, hexecute⟩
  exact executeAll_keeps property (fun rule hr => hkeeps rule (hrun hr)) hexecute hp

end Evaluator

/-- A rule that has nothing but a number, a target and a clause. -/
def Rule.ofClause (id : UInt32) (link : Link) (clause : Clause) : Rule where
  id := id
  label := none
  expression := ""
  operator := ""
  target := link.attr
  record := link.record
  negated := false
  operands := []
  clause := clause

/-- The owner in the new record. -/
def Link.owner : Link := ⟨⟨1, 10, "Owner"⟩, .new⟩

/-- The fee in the new record, in the group of the owner. -/
def Link.fee : Link := ⟨⟨2, 10, "Fee"⟩, .new⟩

/-- A tree whose first condition writes the owner and whose other rules go on with what was written:
a fee by default, and in a branch a custom operator on the owner. -/
def RuleSet.writing : RuleSet where
  head :=
    { RuleSet.root.head with
      evaluative := [.ofClause 1 .owner (.assignment (.literal "ann") false)]
      assertive := [.ofClause 2 .fee (.assignment (.literal "5") true)] }
  children :=
    [{ head :=
        { id := 2, parent := some 1, kind := .flow, description := ""
          evaluative := [.ofClause 3 .fee .populated]
          assertive := [.ofClause 4 .owner (.custom "MASK" [.linked .owner])] } }]

/-- A registry with the operator that the tree needs. -/
def Registry.masking : Registry := ⟨[("MASK", fun text _ _ _ => text ++ "*")]⟩

end Rulebook
