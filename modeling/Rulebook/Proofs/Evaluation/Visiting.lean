import Rulebook.Proofs.Evaluation.Conditions

/-!
# Which rule sets a walk visits

A walk stops at rule sets with the records as they are then. `Walks` says which stops these are,
without a report: where the conditions hold, the other rules run and the rule sets below follow;
where they do not, nothing below does. A walk through a tree makes these stops, and its report is
what the stops say, in order.
-/

namespace Rulebook

/-- A rule set that is visited, with the records as they are then. -/
structure Stop where
  /-- The rule set. -/
  set : RuleSet
  /-- The records when it is entered. -/
  records : Records

namespace Stop

/-- The conditions hold at the stop. -/
def holds (stop : Stop) (environment : Environment) : Bool :=
  stop.set.head.holds environment stop.records

/-- The rules that are run at the stop: the conditions up to the first that decides, and the other
rules if the conditions hold. -/
def fired (stop : Stop) (environment : Environment) : List Rule :=
  stop.set.head.tested environment stop.records ++
    if stop.holds environment then stop.set.head.assertive else []

/-- The failure at the stop: the conditions do not hold, and the rule set has a severity. -/
def failure? (stop : Stop) (environment : Environment) : Option Failure :=
  let head := stop.set.head
  if stop.holds environment then none
  else head.severity.map fun severity =>
    ⟨head.id, severity, head.description, head.customId, head.failureMessage,
      diagnosticsOf environment stop.records (head.tested environment stop.records)⟩

variable {environment : Environment} {stop : Stop}

/-- Where the conditions hold, the other rules are run behind them. -/
theorem fired_of_holds (h : stop.holds environment = true) :
    stop.fired environment =
      stop.set.head.tested environment stop.records ++ stop.set.head.assertive := by
  rw [fired, h, if_pos rfl]

/-- Where the conditions do not hold, no other rules are run. -/
theorem fired_of_not_holds (h : stop.holds environment = false) :
    stop.fired environment = stop.set.head.tested environment stop.records := by
  rw [fired, h, if_neg Bool.false_ne_true, List.append_nil]

/-- Where the conditions hold, there is no failure. -/
theorem failure?_of_holds (h : stop.holds environment = true) :
    stop.failure? environment = none := by
  rw [failure?, h, if_pos rfl]

end Stop

/-- The records after rules in order, if no rule stops the evaluation. -/
def executeAll (environment : Environment) (records : Records) (rules : List Rule) :
    Except Stopped Records :=
  rules.foldlM (fun records rule => do return (← rule.execute environment records).2) records

/-- A walk through rule sets from some records makes stops and leaves other records. -/
inductive Walks (environment : Environment) :
    List RuleSet → Records → List Stop → Records → Prop where
  /-- There is no rule set left. -/
  | done (records : Records) : Walks environment [] records [] records
  /-- The conditions hold: the other rules run, and the rule sets below are visited. -/
  | held {set : RuleSet} {more : List RuleSet} {records written between last : Records}
    {below behind : List Stop} (hh : set.head.holds environment records = true)
    (hw : executeAll environment records set.head.assertive = .ok written)
    (down : Walks environment set.children written below between)
    (on : Walks environment more between behind last) :
    Walks environment (set :: more) records (⟨set, records⟩ :: (below ++ behind)) last
  /-- The conditions do not hold: nothing below is visited. -/
  | skipped {set : RuleSet} {more : List RuleSet} {records last : Records} {behind : List Stop}
    (hh : set.head.holds environment records = false)
    (on : Walks environment more records behind last) :
    Walks environment (set :: more) records (⟨set, records⟩ :: behind) last

/-- A walk through a rule set and a walk through others make one walk. -/
theorem Walks.cons {environment : Environment} {set : RuleSet} {more : List RuleSet}
    {records between last : Records} {stops behind : List Stop}
    (h : Walks environment [set] records stops between)
    (on : Walks environment more between behind last) :
    Walks environment (set :: more) records (stops ++ behind) last := by
  cases h with
  | held hh hw down rest =>
    cases rest
    rw [List.append_nil]
    exact .held hh hw down on
  | skipped hh rest =>
    cases rest
    exact .skipped hh on

/-- A part of a walk adds to the report what stops say. -/
def Walk.AddsStops (before after : Walk) (environment : Environment) (stops : List Stop) : Prop :=
  before.Adds after (stops.map fun stop => stop.set.id)
    (stops.flatMap fun stop => (stop.fired environment).map Rule.id)
    (stops.filterMap fun stop => stop.failure? environment)

/-- What one stop says and what the stops behind it say is added together. -/
theorem Walk.AddsStops.cons {before between after : Walk} {environment : Environment} {stop : Stop}
    {stops : List Stop}
    (h : before.Adds between [stop.set.id] ((stop.fired environment).map Rule.id)
      (stop.failure? environment).toList)
    (h' : between.AddsStops after environment stops) :
    before.AddsStops after environment (stop :: stops) := by
  have hfailures : (stop :: stops).filterMap (fun stop => stop.failure? environment) =
      (stop.failure? environment).toList ++
        stops.filterMap (fun stop => stop.failure? environment) := by
    rw [List.filterMap_cons]
    cases stop.failure? environment <;> rfl
  rw [AddsStops, hfailures]
  exact h.trans h'

namespace Guide

variable {guide : Guide} {before after : Walk}

/-- Carrying out rules leaves the records that the rules leave in order, and reports the rules. -/
theorem carryOut_spec {setId : UInt32} {rules : List Rule}
    (h : guide.carryOut setId rules before = .ok () after) :
    executeAll guide.environment before.records rules = .ok after.records ∧
      before.Adds after [] (rules.map Rule.id) [] := by
  induction rules generalizing before with
  | nil =>
    cases h
    exact ⟨rfl, Walk.Adds.refl _⟩
  | cons rule more ih =>
    obtain ⟨outcome, fired, hfire, h⟩ := Walking.bind_eq_ok h
    obtain ⟨_, noted, hnote, h⟩ := Walking.bind_eq_ok h
    obtain ⟨hexecute, hadds⟩ := fire_spec hfire
    obtain ⟨hrecords, hadds'⟩ := note_spec hnote
    obtain ⟨hlast, hadds''⟩ := ih h
    refine ⟨?_, ?_⟩
    · rw [executeAll, List.foldlM_cons, hexecute, ← hrecords]
      exact hlast
    · simpa using (hadds.trans hadds').trans hadds''

/-- Passing over a rule set leaves the records alone, and reports a failure if it has a severity. -/
theorem skip_spec {head : RuleSet.Head} {diagnostics : List String}
    (h : guide.skip head diagnostics before = .ok () after) :
    after.records = before.records ∧ before.Adds after [] [] (head.severity.map fun severity =>
      ⟨head.id, severity, head.description, head.customId, head.failureMessage,
        diagnostics⟩).toList := by
  unfold skip at h
  cases hs : head.severity with
  | none =>
    simp only [hs] at h
    exact note_spec h
  | some severity =>
    simp only [hs] at h
    obtain ⟨_, failed, hfail, h⟩ := Walking.bind_eq_ok h
    cases hfail
    obtain ⟨hrecords, hadds⟩ := note_spec h
    refine ⟨hrecords, hadds.visited, hadds.fired, ?_⟩
    rw [hadds.failures, List.append_nil]
    rfl

mutual
/-- A visit of a rule set makes stops, and reports what they say. -/
theorem visit_walks {guide : Guide} : (set : RuleSet) →
    (∀ node ∈ set.preorder, ∀ rule ∈ node.head.evaluative, rule.isPassive = true) →
    ∀ {before after : Walk}, guide.visit set before = .ok () after →
    ∃ stops, Walks guide.environment [set] before.records stops after.records ∧
      before.AddsStops after guide.environment stops
  | ⟨head, children⟩, hp, before, after, h => by
    obtain ⟨hown, hbelow⟩ := List.forall_mem_cons.mp hp
    obtain ⟨_, entered, henter, h⟩ := Walking.bind_eq_ok h
    have hentered : before.Adds entered [head.id] [] [] := by
      cases henter
      exact ⟨rfl, (List.append_nil _).symm, (List.append_nil _).symm⟩
    cases henter
    obtain ⟨_, noted, hnote, h⟩ := Walking.bind_eq_ok h
    obtain ⟨hnoted, hadds⟩ := note_spec hnote
    obtain ⟨⟨holds, diagnostics⟩, tested, htest, h⟩ := Walking.bind_eq_ok h
    obtain ⟨hholds, hdiagnostics, htested, hadds'⟩ := test_spec hown htest
    rw [hnoted] at hholds hdiagnostics htested hadds'
    simp only at hholds hdiagnostics htested hadds' h
    cases holds with
    | true =>
      simp only [if_true] at h
      obtain ⟨_, carried, hcarry, h⟩ := Walking.bind_eq_ok h
      obtain ⟨hwritten, hadds''⟩ := carryOut_spec hcarry
      obtain ⟨stops, hwalks, hstops⟩ := visitAll_walks children hbelow h
      rw [htested] at hwritten
      have hstop : Stop.holds ⟨⟨head, children⟩, before.records⟩ guide.environment = true :=
        hholds.symm
      refine ⟨⟨⟨head, children⟩, before.records⟩ :: (stops ++ []),
        .held hholds.symm hwritten hwalks (.done _), ?_⟩
      rw [List.append_nil]
      refine Walk.AddsStops.cons ?_ hstops
      rw [Stop.fired_of_holds hstop, Stop.failure?_of_holds hstop, List.map_append]
      exact ((hentered.trans hadds).trans hadds').trans hadds''
    | false =>
      simp only [Bool.false_eq_true, if_false] at h
      obtain ⟨hrecords, hadds''⟩ := skip_spec h
      have hstop : Stop.holds ⟨⟨head, children⟩, before.records⟩ guide.environment = false :=
        hholds.symm
      have hfailure : Stop.failure? ⟨⟨head, children⟩, before.records⟩ guide.environment =
          head.severity.map fun severity => ⟨head.id, severity, head.description, head.customId,
            head.failureMessage, diagnostics⟩ := by
        rw [Stop.failure?, hstop, if_neg Bool.false_ne_true, hdiagnostics rfl]
      refine ⟨[⟨⟨head, children⟩, before.records⟩], ?_, ?_⟩
      · rw [hrecords, htested]
        exact .skipped hholds.symm (.done _)
      · refine Walk.AddsStops.cons ?_ (Walk.Adds.refl after)
        rw [Stop.fired_of_not_holds hstop, hfailure, ← List.append_nil (List.map Rule.id _)]
        exact ((hentered.trans hadds).trans hadds').trans hadds''

/-- Visits of rule sets in order make stops, and report what they say. -/
theorem visitAll_walks {guide : Guide} : (sets : List RuleSet) →
    (∀ node ∈ RuleSet.preorderAll sets, ∀ rule ∈ node.head.evaluative, rule.isPassive = true) →
    ∀ {before after : Walk}, guide.visitAll sets before = .ok () after →
    ∃ stops, Walks guide.environment sets before.records stops after.records ∧
      before.AddsStops after guide.environment stops
  | [], hp, before, after, h => by
    cases h
    exact ⟨[], .done before.records, Walk.Adds.refl before⟩
  | set :: more, hp, before, after, h => by
    obtain ⟨hset, hmore⟩ := List.forall_mem_append.mp hp
    obtain ⟨_, between, hvisit, h⟩ := Walking.bind_eq_ok h
    obtain ⟨stops, hwalks, hadds⟩ := visit_walks set hset hvisit
    obtain ⟨behind, hwalks', hadds'⟩ := visitAll_walks more hmore h
    refine ⟨stops ++ behind, hwalks.cons hwalks', ?_⟩
    have hboth := hadds.trans hadds'
    rw [Walk.AddsStops, List.map_append, List.flatMap_append, List.filterMap_append]
    exact hboth
end

end Guide

end Rulebook
