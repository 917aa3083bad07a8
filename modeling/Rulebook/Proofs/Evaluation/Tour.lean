import Rulebook.Proofs.Evaluation.Runs

/-!
# Tours

A tour goes through a rule tree as a walk does and writes no report: it only notes each rule set
that it comes to with the answers of the conditions that were asked there. Conditions may write, so
each is asked on the records that the one before left. The report of an evaluation is what can be
told of the passages of the tour, and the records are those that the tour leaves; where the tour is
refused, the evaluation is. This holds of every tree, also of one whose conditions write.
-/

namespace Rulebook

/-- A part of a tour: rules run on the records, and one may be refused. -/
abbrev Touring := EStateM Refusal Records

/-- A condition that was asked, with what it answered. -/
structure Answer where
  /-- The condition. -/
  rule : Rule
  /-- What it answered. -/
  outcome : Outcome

/-- A rule set that is visited, with the answers of its conditions up to the one that decided. -/
structure Passage where
  /-- What the rule set holds. -/
  head : RuleSet.Head
  /-- The conditions that were asked, with their answers. -/
  answers : List Answer

/-- Why conditions do not hold: what those say that did not pass. -/
def unmetOf (answers : List Answer) : List String :=
  (answers.filter fun answer => !answer.outcome.passed).map fun answer =>
    Guide.diagnostic answer.rule answer.outcome

namespace Passage

/-- The conditions hold: there are none, all that were asked passed where they are joined by "and",
or one passed where they are joined by "or". -/
def holds (passage : Passage) : Bool :=
  passage.head.evaluative.isEmpty ||
    match passage.head.combinator with
    | .and => passage.answers.all fun answer => answer.outcome.passed
    | .or => passage.answers.any fun answer => answer.outcome.passed

/-- Why the conditions do not hold, if they do not. -/
def unmet? (passage : Passage) : Option (List String) :=
  if passage.holds then none else some (unmetOf passage.answers)

/-- The numbers of the rules that ran: the conditions that were asked, and the other rules if the
conditions hold. -/
def fired (passage : Passage) : List UInt32 :=
  passage.answers.map (fun answer => answer.rule.id) ++
    if passage.holds then passage.head.assertive.map Rule.id else []

/-- The failure: the conditions do not hold, and the rule set has a severity. -/
def failure? (passage : Passage) : Option Failure :=
  passage.unmet?.bind fun diagnostics => passage.head.severity.map fun severity =>
    ⟨passage.head.id, severity, passage.head.description, passage.head.customId,
      passage.head.failureMessage, diagnostics⟩

end Passage

/-- Runs a rule. -/
def Rule.run (rule : Rule) (environment : Environment) : Touring Outcome := fun records =>
  match rule.execute environment records with
  | .ok (outcome, after) => .ok outcome after
  | .error stopped => .error stopped.refusal stopped.records

/-- Asks conditions up to the first that passes as `decisive` says. -/
def ask (environment : Environment) (decisive : Bool) : List Rule → Touring (List Answer)
  | [] => return []
  | rule :: more => do
    let outcome ← rule.run environment
    let behind ← (if outcome.passed = decisive then pure [] else ask environment decisive more)
    return ⟨rule, outcome⟩ :: behind

/-- Runs rules in order. -/
def runAll (environment : Environment) : List Rule → Touring Unit
  | [] => return ()
  | rule :: more => do
    let _ ← rule.run environment
    runAll environment more

namespace RuleSet

/-- Asks the conditions of a rule set, up to the first that decides. -/
def Head.inspect (head : Head) (environment : Environment) : Touring (List Answer) :=
  ask environment (head.combinator == .or) head.evaluative

mutual
/-- Tours a rule set: its conditions are asked, and where they hold the other rules run and the
rule sets below follow. -/
def tour (environment : Environment) : RuleSet → Touring (List Passage)
  | ⟨head, children⟩ => do
    let answers ← head.inspect environment
    let below ← (if Passage.holds ⟨head, answers⟩ then
        runAll environment head.assertive >>= fun _ => tourAll environment children
      else pure [])
    return ⟨head, answers⟩ :: below

/-- Tours rule sets in order. -/
def tourAll (environment : Environment) : List RuleSet → Touring (List Passage)
  | [] => return []
  | set :: more => do
    let passages ← tour environment set
    let behind ← tourAll environment more
    return passages ++ behind
end

end RuleSet

/-- What is added to a report. -/
structure Told where
  /-- The rule sets that are visited. -/
  visited : List UInt32 := []
  /-- The rules that are run. -/
  fired : List UInt32 := []
  /-- The failures. -/
  failures : List Failure := []

/-- What is added first, and what is added behind it. -/
def Told.append (told more : Told) : Told :=
  ⟨told.visited ++ more.visited, told.fired ++ more.fired, told.failures ++ more.failures⟩

/-- A part of a walk adds to the report what is told. -/
def Walk.Tells (before after : Walk) (told : Told) : Prop :=
  before.Adds after told.visited told.fired told.failures

/-- A part of a walk and a part of a tour end alike: with the same records, and refused for the same
reason, or with a value and an addition to the report that come from what the tour found. -/
inductive Walking.EndsAs {α β : Type} (before : Walk) (value : β → α) (tell : β → Told) :
    EStateM.Result Refusal Walk α → EStateM.Result Refusal Records β → Prop where
  /-- Both go on. -/
  | ok (found : β) {after : Walk} (h : before.Tells after (tell found)) :
    EndsAs before value tell (.ok (value found) after) (.ok found after.records)
  /-- Both are refused. -/
  | error (refusal : Refusal) (after : Walk) :
    EndsAs before value tell (.error refusal after) (.error refusal after.records)

/-- A part of a walk does on all records what a part of a tour does. -/
def Walking.Follows {α β : Type} (part : Walking α) (plain : Touring β) (value : β → α)
    (tell : β → Told) : Prop :=
  ∀ before : Walk, EndsAs before value tell (part before) (plain before.records)

/-- A part of a walk leaves the records alone and adds what is told to the report. -/
def Walking.Notes (part : Walking Unit) (told : Told) : Prop :=
  ∀ before : Walk, ∃ after, part before = .ok () after ∧ after.records = before.records ∧
    before.Tells after told

namespace Walking

variable {α β γ δ ε : Type}

/-- A part that only gives a value follows one that only gives what was found. -/
theorem follows_pure {given : α} {value : β → α} {tell : β → Told} (found : β)
    (hv : value found = given) (ht : tell found = {}) :
    (pure given : Walking α).Follows (pure found) value tell := fun before => by
  subst hv
  refine .ok found ?_
  rw [ht]
  exact Walk.Adds.refl before

/-- Parts that follow each other do what two parts of a tour do, and tell what both tell. -/
theorem Follows.bind {part : Walking α} {plain : Touring β} {value : β → α} {tell : β → Told}
    {next : α → Walking γ} {plain' : β → Touring δ} {value' : ε → γ} (join : β → δ → ε)
    (tell' : β → δ → Told) (tellBoth : ε → Told) (h : part.Follows plain value tell)
    (h' : ∀ found, (next (value found)).Follows (plain' found)
      (fun more => value' (join found more)) (tell' found))
    (hjoin : ∀ found more, tellBoth (join found more) = (tell found).append (tell' found more)) :
    (part >>= next).Follows (plain >>= fun found => plain' found >>= fun more =>
      pure (join found more)) value' tellBoth := by
  intro before
  have hpart := h before
  simp only [Bind.bind, EStateM.bind, Pure.pure, EStateM.pure]
  generalize part before = left at hpart
  generalize plain before.records = right at hpart
  cases hpart with
  | error refusal after => exact .error refusal after
  | @ok found between hadds =>
    have hnext := h' found between
    simp only
    generalize next (value found) between = left at hnext
    generalize plain' found between.records = right at hnext
    cases hnext with
    | error refusal after => exact .error refusal after
    | @ok more after hadds' =>
      refine .ok (join found more) ?_
      rw [Walk.Tells, hjoin]
      exact hadds.trans hadds'

/-- A part behind one that only notes something tells what was noted and what it tells itself. -/
theorem Follows.behind {first : Walking Unit} {told : Told} (hfirst : first.Notes told)
    {next : Walking α} {plain : Touring β} {value : β → α} (tell tellBoth : β → Told)
    (h : next.Follows plain value tell)
    (hboth : ∀ found, tellBoth found = told.append (tell found)) :
    (first >>= fun _ => next).Follows plain value tellBoth := by
  intro before
  obtain ⟨between, hnoted, hrecords, hadds⟩ := hfirst before
  have hnext := h between
  simp only [Bind.bind, EStateM.bind, hnoted]
  rw [hrecords] at hnext
  generalize next between = left at hnext
  generalize plain before.records = right at hnext
  cases hnext with
  | error refusal after => exact .error refusal after
  | @ok found after hadds' =>
    refine .ok found ?_
    rw [Walk.Tells, hboth]
    exact hadds.trans hadds'

end Walking

namespace Guide

theorem notes_note (guide : Guide) (entry : TraceEntry) : (guide.note entry).Notes {} :=
  fun _ => ⟨_, rfl, note_spec rfl⟩

theorem notes_enter (id : UInt32) : (enter id).Notes { visited := [id] } :=
  fun _ => ⟨_, rfl, rfl, rfl, (List.append_nil _).symm, (List.append_nil _).symm⟩

/-- A walk runs a rule as a tour does, and reports it. -/
theorem fire_follows (guide : Guide) (rule : Rule) :
    (guide.fire rule).Follows (rule.run guide.environment) id
      fun _ => { fired := [rule.id] } := by
  intro before
  cases hf : guide.fire rule before with
  | ok outcome after =>
    obtain ⟨hexecute, hadds⟩ := fire_spec hf
    rw [Rule.run, hexecute]
    exact .ok outcome hadds
  | error refusal after =>
    rw [Rule.run, fire_error hf]
    exact .error refusal after

/-- What is told of conditions that were asked. -/
def toldOf (answers : List Answer) : Told := { fired := answers.map fun answer => answer.rule.id }

/-- Testing whether all conditions hold asks them up to the first that does not pass. -/
theorem testAll_follows (guide : Guide) (setId : UInt32) (rules : List Rule) :
    (guide.testAll setId rules).Follows (ask guide.environment false rules)
      (fun answers => (answers.all fun answer => answer.outcome.passed, unmetOf answers))
      toldOf := by
  induction rules with
  | nil =>
    exact .behind (guide.notes_note _) toldOf toldOf (Walking.follows_pure [] rfl rfl)
      fun _ => rfl
  | cons rule more ih =>
    unfold testAll ask
    refine (guide.fire_follows rule).bind (fun outcome behind => Answer.mk rule outcome :: behind)
      (fun _ => toldOf) toldOf (fun outcome => ?_) fun outcome behind => rfl
    simp only [id_eq]
    cases hp : outcome.passed with
    | true => simpa [hp, unmetOf] using ih
    | false =>
      simp only [Bool.false_eq_true, if_false, if_true]
      exact .behind (guide.notes_note _) toldOf toldOf
        (Walking.follows_pure [] (by simp [hp, unmetOf]) rfl) fun _ => rfl

/-- Testing whether one condition holds asks them up to the first that passes. -/
theorem testAny_follows (guide : Guide) (setId : UInt32) (earlier : List String)
    (rules : List Rule) :
    (guide.testAny setId earlier rules).Follows (ask guide.environment true rules)
      (fun answers => if answers.any fun answer => answer.outcome.passed then (true, [])
        else (false, earlier ++ unmetOf answers)) toldOf := by
  induction rules generalizing earlier with
  | nil =>
    exact .behind (guide.notes_note _) toldOf toldOf
      (Walking.follows_pure [] (by simp [unmetOf]) rfl) fun _ => rfl
  | cons rule more ih =>
    unfold testAny ask
    refine (guide.fire_follows rule).bind (fun outcome behind => Answer.mk rule outcome :: behind)
      (fun _ => toldOf) toldOf (fun outcome => ?_) fun outcome behind => rfl
    simp only [id_eq]
    cases hp : outcome.passed with
    | true =>
      simp only [if_true]
      exact .behind (guide.notes_note _) toldOf toldOf
        (Walking.follows_pure [] (by simp [hp]) rfl) fun _ => rfl
    | false => simpa [hp, unmetOf] using ih (earlier ++ [diagnostic rule outcome])

/-- Conditions that are joined by "and" hold when all of them pass. -/
theorem verdict_of_and {head : RuleSet.Head} {rule : Rule} {more : List Rule}
    (he : head.evaluative = rule :: more) (hc : head.combinator = .and) (answers : List Answer) :
    (Passage.holds ⟨head, answers⟩, (Passage.unmet? ⟨head, answers⟩).getD []) =
      (answers.all fun answer => answer.outcome.passed, unmetOf answers) := by
  cases ha : answers.all fun answer => answer.outcome.passed with
  | false => simp [Passage.holds, Passage.unmet?, he, hc, ha, unmetOf]
  | true =>
    have hnone : unmetOf answers = [] := by
      rw [List.all_eq_true] at ha
      simpa [unmetOf] using ha
    simp [Passage.holds, Passage.unmet?, he, hc, ha, hnone]

/-- Conditions that are joined by "or" hold when one of them passes. -/
theorem verdict_of_or {head : RuleSet.Head} {rule : Rule} {more : List Rule}
    (he : head.evaluative = rule :: more) (hc : head.combinator = .or) (answers : List Answer) :
    (Passage.holds ⟨head, answers⟩, (Passage.unmet? ⟨head, answers⟩).getD []) =
      if answers.any fun answer => answer.outcome.passed then (true, [])
        else (false, [] ++ unmetOf answers) := by
  cases ha : answers.any fun answer => answer.outcome.passed with
  | false => simp [Passage.holds, Passage.unmet?, he, hc, ha, unmetOf]
  | true => simp [Passage.holds, Passage.unmet?, he, hc, ha]

/-- Testing the conditions of a rule set asks them, and answers whether they hold and why not. -/
theorem test_follows (guide : Guide) (head : RuleSet.Head) :
    (guide.test head).Follows (head.inspect guide.environment)
      (fun answers => (Passage.holds ⟨head, answers⟩, (Passage.unmet? ⟨head, answers⟩).getD []))
      toldOf := by
  unfold test RuleSet.Head.inspect
  cases he : head.evaluative with
  | nil =>
    exact Walking.follows_pure [] (by simp [Passage.holds, Passage.unmet?, he]) rfl
  | cons rule more =>
    cases hc : head.combinator with
    | and =>
      rw [funext (verdict_of_and he hc)]
      exact guide.testAll_follows head.id (rule :: more)
    | or =>
      rw [funext (verdict_of_or he hc)]
      exact guide.testAny_follows head.id [] (rule :: more)

/-- Entering a rule set and testing its conditions asks them, and notes the rule set. -/
theorem enter_follows (guide : Guide) (head : RuleSet.Head) :
    (enter head.id >>= fun _ => guide.note (.entered head.id head.combinator
      head.evaluative.length) >>= fun _ => guide.test head).Follows
      (head.inspect guide.environment)
      (fun answers => (Passage.holds ⟨head, answers⟩, (Passage.unmet? ⟨head, answers⟩).getD []))
      fun answers => Told.append { visited := [head.id] } (toldOf answers) :=
  .behind (notes_enter head.id) toldOf _ (.behind (guide.notes_note _) toldOf toldOf
    (guide.test_follows head) fun _ => rfl) fun _ => rfl

/-- Carrying out rules runs them. -/
theorem carryOut_follows (guide : Guide) (setId : UInt32) (rules : List Rule) :
    (guide.carryOut setId rules).Follows (runAll guide.environment rules) id
      fun _ => { fired := rules.map Rule.id } := by
  induction rules with
  | nil => exact Walking.follows_pure () rfl rfl
  | cons rule more ih =>
    have hplain : runAll guide.environment (rule :: more) = (rule.run guide.environment >>=
        fun _ => runAll guide.environment more >>= fun _ => pure ()) := by
      rw [runAll, bind_pure_unit]
    rw [hplain]
    refine (guide.fire_follows rule).bind (fun _ _ => ())
      (fun _ _ => { fired := more.map Rule.id }) _ (fun outcome => ?_) fun _ _ => rfl
    exact .behind (guide.notes_note _) _ _ ih fun _ => rfl

/-- Passing over a rule set notes the failure, if it has a severity. -/
theorem notes_skip (guide : Guide) (head : RuleSet.Head) (diagnostics : List String) :
    (guide.skip head diagnostics).Notes { failures := (head.severity.map fun severity =>
      ⟨head.id, severity, head.description, head.customId, head.failureMessage,
        diagnostics⟩).toList } := by
  intro before
  cases hs : guide.skip head diagnostics before with
  | ok value after => exact ⟨after, rfl, skip_spec hs⟩
  | error refusal after =>
    unfold skip at hs
    cases hseverity : head.severity <;> rw [hseverity] at hs <;> cases hs

/-- What is told of passages. -/
def toldOfAll (passages : List Passage) : Told where
  visited := passages.map fun passage => passage.head.id
  fired := passages.flatMap Passage.fired
  failures := passages.filterMap Passage.failure?

mutual
/-- Visiting a rule set tours it, and tells of its passages. -/
theorem visit_follows (guide : Guide) : (set : RuleSet) →
    (guide.visit set).Follows (set.tour guide.environment) (fun _ => ()) toldOfAll
  | ⟨head, children⟩ => by
    have hassoc : guide.visit ⟨head, children⟩ = ((enter head.id >>= fun _ =>
        guide.note (.entered head.id head.combinator head.evaluative.length) >>= fun _ =>
        guide.test head) >>= fun found =>
        if found.1 then guide.carryOut head.id head.assertive >>= fun _ => guide.visitAll children
        else guide.skip head found.2) := by
      rw [visit]
      simp only [bind_assoc]
    rw [hassoc, RuleSet.tour]
    refine (guide.enter_follows head).bind (fun answers below => Passage.mk head answers :: below)
      (fun answers below => Told.append
        { fired := if Passage.holds ⟨head, answers⟩ then head.assertive.map Rule.id else []
          failures := (Passage.failure? ⟨head, answers⟩).toList } (toldOfAll below)) toldOfAll
      (fun answers => ?_) fun answers below => ?_
    · cases hh : Passage.holds ⟨head, answers⟩ with
      | true =>
        have hnone : Passage.failure? ⟨head, answers⟩ = none := by
          rw [Passage.failure?, Passage.unmet?, hh]
          rfl
        have hdown : (guide.carryOut head.id head.assertive >>= fun _ =>
            guide.visitAll children).Follows
            (runAll guide.environment head.assertive >>= fun _ =>
              RuleSet.tourAll guide.environment children >>= pure) (fun _ => ())
            fun below => Told.append { fired := head.assertive.map Rule.id } (toldOfAll below) :=
          (guide.carryOut_follows head.id head.assertive).bind (fun _ below => below)
            (fun _ => toldOfAll) _ (fun _ => guide.visitAll_follows children) fun _ _ => rfl
        simp only [bind_pure] at hdown
        simp only [if_true, hnone]
        exact hdown
      | false =>
        have hnothing : (pure () : Walking Unit).Follows (pure []) (fun _ => ()) toldOfAll :=
          Walking.follows_pure [] rfl rfl
        have hskip := Walking.Follows.behind (guide.notes_skip head
            ((Passage.unmet? ⟨head, answers⟩).getD [])) toldOfAll
          (fun below => Told.append
            { failures := (Passage.failure? ⟨head, answers⟩).toList } (toldOfAll below))
          hnothing fun below => by
            rw [Passage.failure?, Passage.unmet?, hh]
            rfl
        simpa only [Bool.false_eq_true, if_false, bind_pure_unit] using hskip
    · simp only [toldOfAll, toldOf, Told.append, List.map_cons, List.flatMap_cons, Passage.fired,
        List.nil_append, List.append_nil, List.append_assoc, List.singleton_append,
        List.filterMap_cons]
      cases Passage.failure? ⟨head, answers⟩ <;> rfl

/-- Visiting rule sets in order tours them, and tells of their passages. -/
theorem visitAll_follows (guide : Guide) : (sets : List RuleSet) →
    (guide.visitAll sets).Follows (RuleSet.tourAll guide.environment sets) (fun _ => ()) toldOfAll
  | [] => Walking.follows_pure [] rfl rfl
  | set :: more => by
    refine (guide.visit_follows set).bind (fun passages behind => passages ++ behind)
      (fun _ => toldOfAll) toldOfAll (fun _ => guide.visitAll_follows more)
      fun passages behind => ?_
    simp [toldOfAll, Told.append]
end

end Guide

/-- A report says what can be told of passages, and passes where none of the failures is severe. -/
structure Report.TellsOf (report : Report) (passages : List Passage) : Prop where
  /-- The rule sets that were visited are those of the passages. -/
  visited : report.visited = passages.map fun passage => passage.head.id
  /-- The rules that were run are those of the passages. -/
  fired : report.fired = passages.flatMap Passage.fired
  /-- The failures are those of the passages. -/
  failures : report.failures = passages.filterMap Passage.failure?
  /-- The verdict comes from the failures. -/
  passed : report.passed = report.failures.all fun failure => failure.severity != .severe

namespace Evaluator

/-- An evaluation is refused where the tour is, for the same reason; otherwise its report tells of
the passages of the tour. Both leave the same records. -/
theorem evaluate_tour (evaluator : Evaluator) (tree : RuleTree) (records : Records) :
    (∃ refusal after,
      tree.root.tour (evaluator.guide tree).environment records = .error refusal after ∧
        evaluator.evaluate tree records = (.error refusal, after)) ∨
    ∃ passages after report,
      tree.root.tour (evaluator.guide tree).environment records = .ok passages after ∧
        evaluator.evaluate tree records = (.ok report, after) ∧ report.TellsOf passages := by
  have hvisit := (evaluator.guide tree).visit_follows tree.root { records }
  rw [evaluate]
  generalize (evaluator.guide tree).visit tree.root { records } = left at hvisit
  generalize tree.root.tour (evaluator.guide tree).environment records = right at hvisit
  cases hvisit with
  | error refusal after => exact .inl ⟨refusal, after.records, rfl, rfl⟩
  | @ok passages after hadds =>
    exact .inr ⟨passages, after.records, after.report.judged, rfl, rfl, hadds.visited, hadds.fired,
      hadds.failures, rfl⟩

end Evaluator

end Rulebook
