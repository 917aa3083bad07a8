import Rulebook.Evaluation.Walk

/-!
# When the conditions of a rule set hold

Conditions only read, so what each of them says is fixed by the records with which the rule set is
entered. `holds` is the plain reading of a combinator over them, without a walk: all of them or one
of them, and nothing to show where there are none. A walk tests them from the left and stops at the
first that decides; `tested` are the conditions that are run. Testing answers what `holds` says,
leaves the records alone and reports the tested conditions.
-/

namespace Rulebook

/-- What a rule answers to records; a rule that stops the evaluation does not pass. -/
def Rule.outcome (rule : Rule) (environment : Environment) (records : Records) : Outcome :=
  match rule.execute environment records with
  | .ok (outcome, _) => outcome
  | .error _ => { passed := false }

/-- The rule passes on records. -/
def Rule.passes (rule : Rule) (environment : Environment) (records : Records) : Bool :=
  (rule.outcome environment records).passed

/-- A passive rule answers and leaves the records as they are. -/
theorem Rule.execute_of_isPassive {rule : Rule} (h : rule.isPassive = true)
    (environment : Environment) (records : Records) :
    rule.execute environment records = .ok (rule.outcome environment records, records) := by
  unfold Rule.outcome
  unfold isPassive at h
  cases hc : rule.clause with
  | populated => simp only [execute, hc]
  | domain members allRows => simp only [execute, hc]
  | numericLimit comparison min max => simp only [execute, hc]
  | dateLimit comparison min max today => simp only [execute, hc]
  | assignment value defaultOnly =>
    rw [hc] at h
    cases h
  | arithmetic operation operands =>
    rw [hc] at h
    cases h
  | custom name arguments =>
    rw [hc] at h
    cases h

/-- The rules up to the first one that decides, this one included. -/
def upTo (decides : Rule → Bool) : List Rule → List Rule
  | [] => []
  | rule :: more => if decides rule then [rule] else rule :: upTo decides more

/-- The rules up to the first one that decides are some of the rules, in order. -/
theorem upTo_sublist (decides : Rule → Bool) (rules : List Rule) :
    (upTo decides rules).Sublist rules := by
  induction rules with
  | nil => exact List.Sublist.refl []
  | cons rule more ih =>
    rw [upTo]
    split
    · exact (List.nil_sublist more).cons_cons rule
    · exact ih.cons_cons rule

namespace RuleSet

/-- The conditions of a rule set hold on records: there are none, all pass where they are joined by
"and", or one passes where they are joined by "or". -/
def Head.holds (head : Head) (environment : Environment) (records : Records) : Bool :=
  head.evaluative.isEmpty ||
    match head.combinator with
    | .and => head.evaluative.all fun rule => rule.passes environment records
    | .or => head.evaluative.any fun rule => rule.passes environment records

/-- The conditions that are run: those up to the first that decides. -/
def Head.tested (head : Head) (environment : Environment) (records : Records) : List Rule :=
  match head.combinator with
  | .and => upTo (fun rule => !rule.passes environment records) head.evaluative
  | .or => upTo (fun rule => rule.passes environment records) head.evaluative

/-- The conditions that are run are conditions of the rule set, in order. -/
theorem Head.tested_sublist (head : Head) (environment : Environment) (records : Records) :
    (head.tested environment records).Sublist head.evaluative := by
  unfold tested
  split <;> exact upTo_sublist _ _

end RuleSet

/-- What keeps conditions from holding: the answers of those that do not pass. -/
def diagnosticsOf (environment : Environment) (records : Records) (rules : List Rule) :
    List String :=
  (rules.filter fun rule => !rule.passes environment records).map fun rule =>
    Guide.diagnostic rule (rule.outcome environment records)

/-- A part of a walk adds rule sets that are visited, rules that are run, and failures. -/
structure Walk.Adds (before after : Walk) (visited fired : List UInt32) (failures : List Failure) :
    Prop where
  /-- The rule sets that are visited come behind those before. -/
  visited : after.report.visited = before.report.visited ++ visited
  /-- The rules that are run come behind those before. -/
  fired : after.report.fired = before.report.fired ++ fired
  /-- The failures come behind those before. -/
  failures : after.report.failures = before.report.failures ++ failures

theorem Walk.Adds.refl (walk : Walk) : walk.Adds walk [] [] [] :=
  ⟨(List.append_nil _).symm, (List.append_nil _).symm, (List.append_nil _).symm⟩

/-- Parts of a walk one after the other add what they add one after the other. -/
theorem Walk.Adds.trans {first second third : Walk} {visited visited' fired fired' : List UInt32}
    {failures failures' : List Failure} (h : first.Adds second visited fired failures)
    (h' : second.Adds third visited' fired' failures') :
    first.Adds third (visited ++ visited') (fired ++ fired') (failures ++ failures') := by
  refine ⟨?_, ?_, ?_⟩
  · rw [h'.visited, h.visited, List.append_assoc]
  · rw [h'.fired, h.fired, List.append_assoc]
  · rw [h'.failures, h.failures, List.append_assoc]

/-- A part of a walk that does not stop it goes through its two halves. -/
theorem Walking.bind_eq_ok {α β : Type} {first : Walking α} {second : α → Walking β}
    {before after : Walk} {result : β} (h : (first >>= second) before = .ok result after) :
    ∃ value between, first before = .ok value between ∧
      second value between = .ok result after := by
  cases hf : first before with
  | ok value between =>
    refine ⟨value, between, rfl, ?_⟩
    simpa only [bind, EStateM.bind, hf] using h
  | error refusal between =>
    simp only [bind, EStateM.bind, hf] at h
    cases h

namespace Guide

variable {guide : Guide} {before after : Walk}

/-- Noting a step changes neither the records nor what is reported besides the steps. -/
theorem note_spec {entry : TraceEntry} (h : guide.note entry before = .ok () after) :
    after.records = before.records ∧ before.Adds after [] [] [] := by
  have hafter : EStateM.Result.ok () (if guide.traced then
      { before with report := { before.report with trace := before.report.trace ++ [entry] } }
      else before) = .ok () after := h
  rw [← (EStateM.Result.ok.inj hafter).2]
  split
  · exact ⟨rfl, by simp, by simp, by simp⟩
  · exact ⟨rfl, by simp, by simp, by simp⟩

/-- Running a rule gives its outcome and the records that it leaves, and reports the rule. -/
theorem fire_spec {rule : Rule} {outcome : Outcome}
    (h : guide.fire rule before = .ok outcome after) :
    rule.execute guide.environment before.records = .ok (outcome, after.records) ∧
      before.Adds after [] [rule.id] [] := by
  obtain ⟨_, noted, hnoted, h⟩ := Walking.bind_eq_ok h
  cases hnoted
  obtain ⟨_, _, hget, h⟩ := Walking.bind_eq_ok h
  cases hget
  cases he : rule.execute guide.environment before.records with
  | error refusal =>
    simp only [he] at h
    cases h
  | ok result =>
    obtain ⟨answer, records⟩ := result
    simp only [he] at h
    obtain ⟨_, _, hset, h⟩ := Walking.bind_eq_ok h
    cases hset
    obtain ⟨_, last, hnote, h⟩ := Walking.bind_eq_ok h
    cases h
    obtain ⟨hrecords, hvisited, hfired, hfailures⟩ := note_spec hnote
    refine ⟨by rw [hrecords], ?_, ?_, ?_⟩
    · rw [hvisited, List.append_nil]
    · rw [hfired, List.append_nil]
    · rw [hfailures, List.append_nil]

/-- Running a condition gives what it says of the records and leaves them alone. -/
theorem fire_passive {rule : Rule} (hp : rule.isPassive = true) {outcome : Outcome}
    (h : guide.fire rule before = .ok outcome after) :
    outcome = rule.outcome guide.environment before.records ∧ after.records = before.records ∧
      before.Adds after [] [rule.id] [] := by
  obtain ⟨hexecute, hadds⟩ := fire_spec h
  rw [Rule.execute_of_isPassive hp] at hexecute
  obtain ⟨houtcome, hrecords⟩ := Prod.mk.inj (Except.ok.inj hexecute)
  exact ⟨houtcome.symm, hrecords.symm, hadds⟩

/-- Testing whether all conditions hold tells so, runs them up to the first that does not, and
answers why it does not. -/
theorem testAll_spec {setId : UInt32} {rules : List Rule}
    (hp : ∀ rule ∈ rules, rule.isPassive = true) {holds : Bool} {diagnostics : List String}
    (h : guide.testAll setId rules before = .ok (holds, diagnostics) after) :
    let tested := upTo (fun rule => !rule.passes guide.environment before.records) rules
    holds = rules.all (fun rule => rule.passes guide.environment before.records) ∧
      (holds = false →
        diagnostics = diagnosticsOf guide.environment before.records tested) ∧
      after.records = before.records ∧ before.Adds after [] (tested.map Rule.id) [] := by
  induction rules generalizing before with
  | nil =>
    obtain ⟨_, noted, hnote, h⟩ := Walking.bind_eq_ok h
    cases h
    obtain ⟨hrecords, hadds⟩ := note_spec hnote
    exact ⟨rfl, fun hno => absurd hno (by decide), hrecords, hadds⟩
  | cons rule more ih =>
    obtain ⟨hrule, hmore⟩ := List.forall_mem_cons.mp hp
    obtain ⟨outcome, fired, hfire, h⟩ := Walking.bind_eq_ok h
    obtain ⟨houtcome, hrecords, hadds⟩ := fire_passive hrule hfire
    have hpasses : outcome.passed = rule.passes guide.environment before.records := by
      rw [houtcome, Rule.passes]
    rw [hpasses] at h
    cases hpass : rule.passes guide.environment before.records with
    | true =>
      simp only [hpass, if_true] at h
      obtain ⟨hholds, hdiagnostics, hrecords', hadds'⟩ := ih hmore h
      rw [hrecords] at hholds hdiagnostics hrecords' hadds'
      refine ⟨?_, ?_, hrecords', ?_⟩
      · rw [hholds, List.all_cons, hpass, Bool.true_and]
      · intro hno
        rw [hdiagnostics hno]
        simp [diagnosticsOf, upTo, hpass]
      · simpa [upTo, hpass] using hadds.trans hadds'
    | false =>
      simp only [hpass, Bool.false_eq_true, if_false] at h
      obtain ⟨_, noted, hnote, h⟩ := Walking.bind_eq_ok h
      cases h
      obtain ⟨hrecords', hadds'⟩ := note_spec hnote
      refine ⟨?_, ?_, hrecords'.trans hrecords, ?_⟩
      · rw [List.all_cons, hpass, Bool.false_and]
      · intro _
        simp [diagnosticsOf, upTo, hpass, houtcome]
      · simpa [upTo, hpass] using hadds.trans hadds'

/-- Testing whether one condition holds tells so, runs them up to the first that does, and answers
why none does. -/
theorem testAny_spec {setId : UInt32} {rules : List Rule}
    (hp : ∀ rule ∈ rules, rule.isPassive = true) {earlier diagnostics : List String} {holds : Bool}
    (h : guide.testAny setId earlier rules before = .ok (holds, diagnostics) after) :
    let tested := upTo (fun rule => rule.passes guide.environment before.records) rules
    holds = rules.any (fun rule => rule.passes guide.environment before.records) ∧
      (holds = false →
        diagnostics = earlier ++ diagnosticsOf guide.environment before.records tested) ∧
      after.records = before.records ∧ before.Adds after [] (tested.map Rule.id) [] := by
  induction rules generalizing before earlier with
  | nil =>
    obtain ⟨_, noted, hnote, h⟩ := Walking.bind_eq_ok h
    cases h
    obtain ⟨hrecords, hadds⟩ := note_spec hnote
    exact ⟨rfl, fun _ => (List.append_nil _).symm, hrecords, hadds⟩
  | cons rule more ih =>
    obtain ⟨hrule, hmore⟩ := List.forall_mem_cons.mp hp
    obtain ⟨outcome, fired, hfire, h⟩ := Walking.bind_eq_ok h
    obtain ⟨houtcome, hrecords, hadds⟩ := fire_passive hrule hfire
    have hpasses : outcome.passed = rule.passes guide.environment before.records := by
      rw [houtcome, Rule.passes]
    rw [hpasses] at h
    cases hpass : rule.passes guide.environment before.records with
    | true =>
      simp only [hpass, if_true] at h
      obtain ⟨_, noted, hnote, h⟩ := Walking.bind_eq_ok h
      cases h
      obtain ⟨hrecords', hadds'⟩ := note_spec hnote
      refine ⟨?_, fun hno => absurd hno (by decide), hrecords'.trans hrecords, ?_⟩
      · rw [List.any_cons, hpass, Bool.true_or]
      · simpa [upTo, hpass] using hadds.trans hadds'
    | false =>
      simp only [hpass, Bool.false_eq_true, if_false] at h
      obtain ⟨hholds, hdiagnostics, hrecords', hadds'⟩ := ih hmore h
      rw [hrecords] at hholds hdiagnostics hrecords' hadds'
      refine ⟨?_, ?_, hrecords', ?_⟩
      · rw [hholds, List.any_cons, hpass, Bool.false_or]
      · intro hno
        rw [hdiagnostics hno]
        simp [diagnosticsOf, upTo, hpass, houtcome]
      · simpa [upTo, hpass] using hadds.trans hadds'

/-- Testing the conditions of a rule set tells whether they hold on the records, leaves the records
alone, reports the conditions that it runs, and answers why they do not hold. -/
theorem test_spec {head : RuleSet.Head} (hp : ∀ rule ∈ head.evaluative, rule.isPassive = true)
    {holds : Bool} {diagnostics : List String}
    (h : guide.test head before = .ok (holds, diagnostics) after) :
    let tested := head.tested guide.environment before.records
    holds = head.holds guide.environment before.records ∧
      (holds = false →
        diagnostics = diagnosticsOf guide.environment before.records tested) ∧
      after.records = before.records ∧ before.Adds after [] (tested.map Rule.id) [] := by
  unfold test at h
  simp only [RuleSet.Head.tested, RuleSet.Head.holds]
  cases he : head.evaluative with
  | nil =>
    rw [he] at h
    cases h
    refine ⟨rfl, fun hno => absurd hno (by decide), rfl, ?_⟩
    cases head.combinator <;> exact Walk.Adds.refl before
  | cons rule more =>
    rw [he] at h hp
    cases hc : head.combinator with
    | and =>
      rw [hc] at h
      simpa using testAll_spec hp h
    | or =>
      rw [hc] at h
      simpa using testAny_spec hp h

end Guide

end Rulebook
