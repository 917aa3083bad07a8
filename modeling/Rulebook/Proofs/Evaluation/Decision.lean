import Rulebook.Proofs.Evaluation.Tour

/-!
# Where conditions are decided

Conditions at the front of a list decide when the answers of those behind them make no difference
to what the combinator says. Testing the conditions of a rule set runs the shortest front that
decides, and all of them where none does. As conditions only read, what is answered in the end is
the plain reading of the combinator over what each condition says by itself of the records as they
were at first.
-/

namespace Rulebook

/-- What a combinator makes of the answers of conditions. -/
def Combinator.joins : Combinator → List Bool → Bool
  | .and, answers => answers.all id
  | .or, answers => answers.any id

/-- The answer of a single condition that settles what a combinator makes of all answers. -/
def Combinator.settling : Combinator → Bool
  | .and => false
  | .or => true

/-- Further answers make no difference just where one is there that settles the combinator. -/
theorem Combinator.joins_append_iff (combinator : Combinator) (answers : List Bool) :
    (∀ rest, combinator.joins (answers ++ rest) = combinator.joins answers) ↔
      combinator.settling ∈ answers := by
  cases combinator with
  | and =>
    refine ⟨fun h => ?_, fun h rest => ?_⟩
    · have hno := h [false]
      simpa [joins, settling] using hno.symm
    · have hno : answers.all id = false := List.all_eq_false.mpr ⟨false, h, Bool.false_ne_true⟩
      rw [joins, joins, List.all_append, hno, Bool.false_and]
  | or =>
    refine ⟨fun h => ?_, fun h rest => ?_⟩
    · have hyes := h [true]
      simpa [joins, settling] using hyes.symm
    · have hyes : answers.any id = true := List.any_eq_true.mpr ⟨true, h, rfl⟩
      rw [joins, joins, List.any_append, hyes, Bool.true_or]

section UpTo

variable {decides : Rule → Bool} {rules front behind : List Rule} {rule : Rule}

/-- Where no rule decides, all are taken. -/
theorem upTo_of_none (h : ∀ rule ∈ rules, decides rule = false) : upTo decides rules = rules := by
  induction rules with
  | nil => rfl
  | cons first more ih =>
    obtain ⟨hfirst, hmore⟩ := List.forall_mem_cons.mp h
    rw [upTo, hfirst, if_neg Bool.false_ne_true, ih hmore]

/-- The first rule that decides is the last one that is taken. -/
theorem upTo_of_first (h : ∀ rule ∈ front, decides rule = false) (hr : decides rule = true) :
    upTo decides (front ++ rule :: behind) = front ++ [rule] := by
  induction front with
  | nil => rw [List.nil_append, upTo, if_pos hr, List.nil_append]
  | cons first more ih =>
    obtain ⟨hfirst, hmore⟩ := List.forall_mem_cons.mp h
    rw [List.cons_append, upTo, hfirst, if_neg Bool.false_ne_true, ih hmore, List.cons_append]

/-- No rule decides, or one of them is the first that does. -/
theorem none_or_first (decides : Rule → Bool) (rules : List Rule) :
    (∀ rule ∈ rules, decides rule = false) ∨ ∃ front rule behind,
      rules = front ++ rule :: behind ∧ (∀ other ∈ front, decides other = false) ∧
        decides rule = true := by
  cases hf : rules.find? decides with
  | none =>
    exact .inl fun rule hr => Bool.eq_false_iff.mpr (List.find?_eq_none.mp hf rule hr)
  | some rule =>
    obtain ⟨hr, front, behind, hsplit, hfront⟩ := List.find?_eq_some_iff_append.mp hf
    exact .inr ⟨front, rule, behind, hsplit, fun other ho => by simpa using hfront other ho, hr⟩

/-- Rules at the front that decide hold all rules up to the first that does. -/
theorem upTo_prefix (hfront : front <+: rules) (hr : rule ∈ front) (hd : decides rule = true) :
    upTo decides rules <+: front := by
  rcases none_or_first decides rules with hnone | ⟨first, other, behind, rfl, hfirst, hother⟩
  · rw [hnone rule (hfront.subset hr)] at hd
    cases hd
  · rw [upTo_of_first hfirst hother]
    have htaken : first ++ [other] <+: first ++ other :: behind := ⟨behind, by simp⟩
    rcases List.prefix_or_prefix_of_prefix htaken hfront with hshort | hlong
    · exact hshort
    · -- a shorter front would hold none of the rules that decide
      rcases List.prefix_concat_iff.mp hlong with rfl | hlong
      · exact List.prefix_refl _
      · rw [hfirst rule (hlong.subset hr)] at hd
        cases hd

end UpTo

namespace RuleSet.Head

variable {head : Head} {environment : Environment} {records : Records}

/-- The answers of conditions. -/
def answersOf (environment : Environment) (records : Records) (rules : List Rule) : List Bool :=
  rules.map fun rule => rule.passes environment records

/-- Conditions at the front decide: there are no others, or whatever the others would answer makes
no difference. -/
structure DecidedBy (head : Head) (environment : Environment) (records : Records)
    (first : List Rule) : Prop where
  /-- They are the first conditions of the rule set. -/
  front : first <+: head.evaluative
  /-- All answers are known, or the answers that are known decide. -/
  decides : first = head.evaluative ∨ ∀ rest : List Bool,
    head.combinator.joins (answersOf environment records first ++ rest) =
      head.combinator.joins (answersOf environment records first)

/-- The conditions that are run are those up to the first whose answer settles the combinator. -/
theorem tested_eq (head : Head) (environment : Environment) (records : Records) :
    head.tested environment records =
      upTo (fun rule => rule.passes environment records == head.combinator.settling)
        head.evaluative := by
  rw [tested]
  cases head.combinator <;> simp [Combinator.settling]

/-- The conditions that are run decide. -/
theorem decidedBy_tested (head : Head) (environment : Environment) (records : Records) :
    head.DecidedBy environment records (head.tested environment records) := by
  rw [tested_eq]
  rcases none_or_first (fun rule => rule.passes environment records == head.combinator.settling)
    head.evaluative with hnone | ⟨front, rule, behind, hsplit, hfront, hrule⟩
  · rw [upTo_of_none hnone]
    exact ⟨List.prefix_refl _, .inl rfl⟩
  · rw [hsplit, upTo_of_first hfront hrule]
    refine ⟨⟨behind, by simp [hsplit]⟩, .inr ?_⟩
    rw [Combinator.joins_append_iff, ← eq_of_beq hrule]
    exact List.mem_map_of_mem (List.mem_append_right _ (List.mem_singleton_self rule))

/-- No shorter front of the conditions decides. -/
theorem DecidedBy.tested_prefix {first : List Rule}
    (h : head.DecidedBy environment records first) :
    head.tested environment records <+: first := by
  rcases h.decides with rfl | hdecides
  · exact (head.decidedBy_tested environment records).front
  · rw [Combinator.joins_append_iff] at hdecides
    obtain ⟨rule, hrule, hanswer⟩ := List.mem_map.mp hdecides
    rw [tested_eq]
    exact upTo_prefix h.front hrule (beq_iff_eq.mpr hanswer)

end RuleSet.Head

/-- What testing the conditions of a rule set comes to, said of what each condition does by itself
on the records as they were before. -/
structure RuleSet.Head.Decided (head : RuleSet.Head) (environment : Environment)
    (before after : Walk) (holds : Bool) (diagnostics : List String) : Prop where
  /-- By itself every condition answers and leaves the records as they are. -/
  alone : ∀ rule ∈ head.evaluative, rule.execute environment before.records =
    .ok (rule.outcome environment before.records, before.records)
  /-- The records stay as they are. -/
  records : after.records = before.records
  /-- The conditions hold if there are none, if they are joined by "and" and all pass, or if they
  are joined by "or" and one passes. -/
  holds_iff : holds = true ↔ head.evaluative = [] ∨
    (head.combinator = .and ∧
      ∀ rule ∈ head.evaluative, (rule.outcome environment before.records).passed = true) ∨
    (head.combinator = .or ∧
      ∃ rule ∈ head.evaluative, (rule.outcome environment before.records).passed = true)
  /-- The conditions that are reported as run are the shortest front that decides, and no rule set
  and no failure is reported. -/
  run : ∃ first, head.DecidedBy environment before.records first ∧
    (∀ other, head.DecidedBy environment before.records other → first <+: other) ∧
    before.Adds after [] (first.map Rule.id) []
  /-- Where the conditions hold, nothing is said. -/
  silent : holds = true → diagnostics = []
  /-- Where not all conditions pass that have to, the first that does not says why. -/
  first_failing : holds = false → head.combinator = .and →
    ∃ front rule behind, head.evaluative = front ++ rule :: behind ∧
      (∀ other ∈ front, (other.outcome environment before.records).passed = true) ∧
      (rule.outcome environment before.records).passed = false ∧
      diagnostics = [Guide.diagnostic rule (rule.outcome environment before.records)]
  /-- Where none of the conditions passes of which one has to, each of them says why. -/
  all_failing : holds = false → head.combinator = .or →
    diagnostics = head.evaluative.map fun rule =>
      Guide.diagnostic rule (rule.outcome environment before.records)

namespace RuleSet.Head

variable {head : Head} {environment : Environment} {records : Records}

/-- What the conditions of a rule set come to is the plain reading of their combinator. -/
theorem holds_iff : head.holds environment records = true ↔ head.evaluative = [] ∨
    (head.combinator = .and ∧
      ∀ rule ∈ head.evaluative, (rule.outcome environment records).passed = true) ∨
    (head.combinator = .or ∧
      ∃ rule ∈ head.evaluative, (rule.outcome environment records).passed = true) := by
  rw [holds]
  cases head.combinator <;> simp [Rule.passes]

/-- Where not all conditions pass that have to, the first that does not is the only one that has
something to say. -/
theorem diagnosticsOf_and (hc : head.combinator = .and)
    (hno : head.holds environment records = false) :
    ∃ front rule behind, head.evaluative = front ++ rule :: behind ∧
      (∀ other ∈ front, (other.outcome environment records).passed = true) ∧
      (rule.outcome environment records).passed = false ∧
      diagnosticsOf environment records (head.tested environment records) =
        [Guide.diagnostic rule (rule.outcome environment records)] := by
  rw [tested, hc]
  rcases none_or_first (fun rule => !rule.passes environment records) head.evaluative with
    hnone | ⟨front, rule, behind, hsplit, hfront, hrule⟩
  · -- all pass, so the conditions hold
    have hyes : head.holds environment records = true :=
      holds_iff.mpr (.inr (.inl ⟨hc, by simpa [Rule.passes] using hnone⟩))
    rw [hyes] at hno
    cases hno
  · have hpasses : ∀ other ∈ front, other.passes environment records = true := by
      simpa using hfront
    have hfails : rule.passes environment records = false := by simpa using hrule
    refine ⟨front, rule, behind, hsplit, hpasses, hfails, ?_⟩
    rw [hsplit]
    dsimp only
    rw [upTo_of_first hfront hrule, diagnosticsOf, List.filter_append,
      List.filter_eq_nil_iff.mpr (by simpa using hpasses), List.nil_append]
    simp [hfails]

/-- Where none of the conditions passes of which one has to, all of them have something to say. -/
theorem diagnosticsOf_or (hc : head.combinator = .or)
    (hno : head.holds environment records = false) :
    diagnosticsOf environment records (head.tested environment records) =
      head.evaluative.map fun rule => Guide.diagnostic rule (rule.outcome environment records) := by
  have hnone : ∀ rule ∈ head.evaluative, rule.passes environment records = false := by
    rw [holds, hc] at hno
    simpa using (Bool.or_eq_false_iff.mp hno).2
  have hall : head.tested environment records = head.evaluative := by
    rw [tested, hc]
    exact upTo_of_none hnone
  rw [hall, diagnosticsOf, List.filter_eq_self.mpr fun rule hr => by rw [hnone rule hr]; rfl]

end RuleSet.Head

namespace Guide

variable {guide : Guide} {head : RuleSet.Head}

/-- Testing conditions that only read ends with an answer. -/
theorem test_ok (hp : ∀ rule ∈ head.evaluative, rule.isPassive = true) (before : Walk) :
    ∃ answer after, guide.test head before = .ok answer after := by
  cases ht : guide.test head before with
  | ok answer after => exact ⟨answer, after, rfl⟩
  | error refusal after =>
    have hruns := (guide.runsAmong_composes head.evaluative).test (List.Subset.refl _)
    obtain ⟨-, -, -, last, hlast, hrefused⟩ := hruns.error ht
    rw [Rule.execute_of_isPassive (hp last hlast)] at hrefused
    cases hrefused

/-- Where the conditions hold, testing them says nothing. -/
theorem diagnostics_of_test {before after : Walk} {diagnostics : List String}
    (h : guide.test head before = .ok (true, diagnostics) after) : diagnostics = [] := by
  have hends := guide.test_follows head before
  rw [h] at hends
  generalize hleft : EStateM.Result.ok (true, diagnostics) after = left at hends
  generalize head.inspect guide.environment before.records = right at hends
  cases hends with
  | error refusal last => cases hleft
  | ok answers hadds =>
    obtain ⟨hanswer, -⟩ := EStateM.Result.ok.inj hleft
    obtain ⟨hyes, hsaid⟩ := Prod.mk.inj hanswer
    rw [hsaid, Passage.unmet?, ← hyes]
    rfl

/-- Testing conditions that only read answers as their combinator is plainly read, leaves the
records alone, runs the shortest front of the conditions that decides, and says why they do not
hold. -/
theorem test_decided (guide : Guide) (hp : ∀ rule ∈ head.evaluative, rule.isPassive = true)
    (before : Walk) : ∃ holds diagnostics after,
      guide.test head before = .ok (holds, diagnostics) after ∧
      head.Decided guide.environment before after holds diagnostics := by
  obtain ⟨⟨holds, diagnostics⟩, after, htest⟩ := test_ok hp before
  obtain ⟨hholds, hdiagnostics, hrecords, hadds⟩ := test_spec hp htest
  refine ⟨holds, diagnostics, after, htest, ?_⟩
  exact
    { alone := fun rule hr => Rule.execute_of_isPassive (hp rule hr) _ _
      records := hrecords
      holds_iff := by rw [hholds, RuleSet.Head.holds_iff]
      run := ⟨_, head.decidedBy_tested _ _, fun other ho => ho.tested_prefix, hadds⟩
      silent := fun hyes => diagnostics_of_test (hyes ▸ htest)
      first_failing := fun hno hc => by
        rw [hdiagnostics hno]
        exact RuleSet.Head.diagnosticsOf_and hc (hholds ▸ hno)
      all_failing := fun hno hc => by
        rw [hdiagnostics hno]
        exact RuleSet.Head.diagnosticsOf_or hc (hholds ▸ hno) }

/-- A branch with an owner, a fee and a second fee as its conditions, which all have to be there. -/
def sampleHead : RuleSet.Head where
  id := 2
  parent := some 1
  kind := .flow
  description := ""
  evaluative := [.ofClause 1 .owner .populated, .ofClause 2 .fee .populated,
    .ofClause 3 .fee .populated]

/-- On a record with an owner and no fee the test of the branch ends behind the second condition,
which is the one that says why. -/
theorem test_decided_owner :
    let guide : Guide := ⟨true, { today := Calendar.Date.first }⟩
    let before : Walk := { records := { new := Record.empty.setValue Link.owner.attr "ann" } }
    (∀ rule ∈ sampleHead.evaluative, rule.isPassive = true) ∧
      ∃ diagnostics after, guide.test sampleHead before = .ok (false, diagnostics) after ∧
        sampleHead.Decided guide.environment before after false diagnostics ∧
        diagnostics.length = 1 ∧ after.report.fired = [1, 2] := by
  intro guide before
  have hp : ∀ rule ∈ sampleHead.evaluative, rule.isPassive = true := by decide
  have hrun : (match guide.test sampleHead before with
      | .ok (holds, diagnostics) after => some (holds, diagnostics.length, after.report.fired)
      | .error _ _ => none) = some (false, 1, [1, 2]) := by decide +kernel
  obtain ⟨holds, diagnostics, after, htest, hdecided⟩ := test_decided guide hp before
  rw [htest] at hrun
  simp only [Option.some.injEq, Prod.mk.injEq] at hrun
  obtain ⟨rfl, hlength, hfired⟩ := hrun
  exact ⟨hp, diagnostics, after, htest, hdecided, hlength, hfired⟩

end Guide

end Rulebook
