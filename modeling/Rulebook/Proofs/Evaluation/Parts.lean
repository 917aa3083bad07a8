import Rulebook.Proofs.Compiler.Numbering
import Rulebook.Proofs.Evaluation.Visiting

/-!
# Whatever holds of the parts of a walk

A walk is put together from small parts: something is noted, or a rule is run. `Composes` says of a
property of parts that it holds of the small ones and is kept when one part follows another. Such a
property holds of a whole walk through any tree, compiled or not, so this module is the only
induction over trees that facts about all walks need.
-/

namespace Rulebook

/-- A property of parts of a walk holds of the smallest ones, where rules are among some rules, and
is kept when one part follows another. -/
structure Walking.Composes (guide : Guide) (rules : List Rule)
    (property : (α : Type) → Walking α → Prop) : Prop where
  /-- It holds of a part that only gives a value. -/
  give {α : Type} (value : α) : property α (pure value)
  /-- It is kept when one part follows another. -/
  follow {α β : Type} {first : Walking α} {second : α → Walking β} (h : property α first)
    (h' : ∀ value, property β (second value)) : property β (first >>= second)
  /-- It holds where a step is noted. -/
  note (entry : TraceEntry) : property Unit (guide.note entry)
  /-- It holds where a rule set is entered. -/
  enter (id : UInt32) : property Unit (Guide.enter id)
  /-- It holds where a failure is noted. -/
  fail (failure : Failure) : property Unit (Guide.fail failure)
  /-- It holds where one of the rules is run. -/
  fire {rule : Rule} (h : rule ∈ rules) : property Outcome (guide.fire rule)

namespace Walking.Composes

variable {guide : Guide} {rules : List Rule} {property : (α : Type) → Walking α → Prop}

/-- It holds where all conditions are tested. -/
theorem testAll (h : Composes guide rules property) (setId : UInt32) {conditions : List Rule}
    (hc : conditions ⊆ rules) : property _ (guide.testAll setId conditions) := by
  induction conditions with
  | nil => exact h.follow (h.note _) fun _ => h.give _
  | cons rule more ih =>
    obtain ⟨hrule, hmore⟩ := List.cons_subset.mp hc
    refine h.follow (h.fire hrule) fun outcome => ?_
    cases outcome.passed with
    | true => exact ih hmore
    | false => exact h.follow (h.note _) fun _ => h.give _

/-- It holds where conditions are tested for one that holds. -/
theorem testAny (h : Composes guide rules property) (setId : UInt32) {conditions : List Rule}
    (hc : conditions ⊆ rules) (diagnostics : List String) :
    property _ (guide.testAny setId diagnostics conditions) := by
  induction conditions generalizing diagnostics with
  | nil => exact h.follow (h.note _) fun _ => h.give _
  | cons rule more ih =>
    obtain ⟨hrule, hmore⟩ := List.cons_subset.mp hc
    refine h.follow (h.fire hrule) fun outcome => ?_
    cases outcome.passed with
    | true => exact h.follow (h.note _) fun _ => h.give _
    | false => exact ih hmore _

/-- It holds where the conditions of a rule set are tested. -/
theorem test (h : Composes guide rules property) {head : RuleSet.Head}
    (hc : head.evaluative ⊆ rules) : property _ (guide.test head) := by
  unfold Guide.test
  split
  · exact h.give _
  · exact h.testAll head.id hc
  · exact h.testAny head.id hc []

/-- It holds where rules are carried out. -/
theorem carryOut (h : Composes guide rules property) (setId : UInt32) {others : List Rule}
    (ho : others ⊆ rules) : property _ (guide.carryOut setId others) := by
  induction others with
  | nil => exact h.give _
  | cons rule more ih =>
    obtain ⟨hrule, hmore⟩ := List.cons_subset.mp ho
    exact h.follow (h.fire hrule) fun _ => h.follow (h.note _) fun _ => ih hmore

/-- It holds where the rest of a rule set is passed over. -/
theorem skip (h : Composes guide rules property) (head : RuleSet.Head)
    (diagnostics : List String) : property _ (guide.skip head diagnostics) := by
  unfold Guide.skip
  cases head.severity with
  | none => exact h.note _
  | some severity => exact h.follow (h.fail _) fun _ => h.note _

mutual
/-- It holds of the visit of a rule set with its rules among those. -/
theorem visit (h : Composes guide rules property) : (set : RuleSet) → set.allRules ⊆ rules →
    property _ (guide.visit set)
  | ⟨head, children⟩, hs => by
    rw [RuleSet.allRules_mk, RuleSet.Head.rules, List.append_subset, List.append_subset] at hs
    obtain ⟨⟨hconditions, hothers⟩, hbelow⟩ := hs
    unfold Guide.visit
    refine h.follow (h.enter _) fun _ => h.follow (h.note _) fun _ =>
      h.follow (h.test hconditions) fun ⟨holds, diagnostics⟩ => ?_
    cases holds with
    | true => exact h.follow (h.carryOut head.id hothers) fun _ => h.visitAll children hbelow
    | false => exact h.skip head diagnostics

/-- It holds of the visits of rule sets with their rules among those. -/
theorem visitAll (h : Composes guide rules property) : (sets : List RuleSet) →
    RuleSet.allRulesAll sets ⊆ rules → property _ (guide.visitAll sets)
  | [], _ => h.give _
  | set :: more, hs => by
    rw [RuleSet.allRulesAll_cons, List.append_subset] at hs
    exact h.follow (h.visit set hs.1) fun _ => h.visitAll more hs.2
end

end Walking.Composes

end Rulebook
