import Mathlib.Data.List.Nodup
import Mathlib.Data.List.TakeDrop
import Rulebook.Export.Markup
import Rulebook.Proofs.Compiler.Order
import Rulebook.Proofs.Export.Outline

/-!
# Where rules stand in a written tree

A written rule set has its rules in the order of their numbers, and a child stands behind the rules
whose numbers are not above the least number in the child. In a numbered tree this is the order of
the document: sorting brings the rules back into it, and each child parts them where it stood.
-/

namespace Rulebook

/-- The number is the least one of some numbers, and is missing where there are none. -/
def IsLeastId (least : Option UInt32) (ids : List UInt32) : Prop :=
  match least with
  | none => ids = []
  | some least => least ∈ ids ∧ ∀ id ∈ ids, least ≤ id

/-- The lesser of two least numbers is the least number of all. -/
theorem IsLeastId.append {left right : Option UInt32} {ids ids' : List UInt32}
    (hl : IsLeastId left ids) (hr : IsLeastId right ids') :
    IsLeastId (leastId left right) (ids ++ ids') := by
  cases left with
  | none =>
    have hnil : ids = [] := hl
    rw [hnil, List.nil_append]
    exact hr
  | some left =>
    obtain ⟨hlm, hle⟩ := hl
    cases right with
    | none =>
      have hnil : ids' = [] := hr
      rw [hnil, List.append_nil]
      exact ⟨hlm, hle⟩
    | some right =>
      obtain ⟨hrm, hre⟩ := hr
      by_cases hlt : right < left
      · rw [leastId, if_pos hlt]
        refine ⟨List.mem_append_right _ hrm, fun id hid => ?_⟩
        rcases List.mem_append.mp hid with hid | hid
        · exact UInt32.le_trans (UInt32.le_of_lt hlt) (hle id hid)
        · exact hre id hid
      · rw [leastId, if_neg hlt]
        refine ⟨List.mem_append_left _ hlm, fun id hid => ?_⟩
        rcases List.mem_append.mp hid with hid | hid
        · exact hle id hid
        · exact UInt32.le_trans (UInt32.not_lt.mp hlt) (hre id hid)

namespace RuleSetDescription

/-- The least number of rules is found. -/
theorem isLeastId_leastRuleId (rules : List RuleDescription) :
    IsLeastId (leastRuleId rules) (rules.map RuleDescription.id) := by
  induction rules with
  | nil => rfl
  | cons rule more ih =>
    have hone : IsLeastId (some rule.id) [rule.id] :=
      ⟨List.mem_singleton_self _, fun id hid => (List.mem_singleton.mp hid) ▸ UInt32.le_refl _⟩
    exact hone.append ih

/-- Sorting rules brings them into the order in which they ascend. -/
theorem Head.sortedRules_eq {head : Head} {rules : List RuleDescription}
    (hp : (head.evaluative ++ head.assertive).Perm rules)
    (ha : rules.Pairwise fun a b => a.id < b.id) : head.sortedRules = rules := by
  have hsorted : head.sortedRules.Pairwise fun a b => decide (a.id ≤ b.id) = true :=
    List.pairwise_mergeSort idLe_trans idLe_total _
  have hperm : head.sortedRules.Perm rules := (List.mergeSort_perm _ _).trans hp
  refine hperm.eq_of_pairwise (fun a b hma hmb hab hba => ?_) hsorted
    (ha.imp fun hlt => decide_eq_true (UInt32.le_of_lt hlt))
  have hids : (rules.map RuleDescription.id).Nodup :=
    List.pairwise_map.mpr (ha.imp fun hlt => UInt32.ne_of_lt hlt)
  exact List.inj_on_of_nodup_map hids (hperm.mem_iff.mp hma) hmb
    (UInt32.le_antisymm (of_decide_eq_true hab) (of_decide_eq_true hba))

end RuleSetDescription

namespace RuleSet

mutual
/-- The least number of a rule in a described tree is that of a rule in the tree. -/
theorem isLeastId_firstRuleId : (set : RuleSet) →
    IsLeastId set.describe.firstRuleId (set.allRules.map Rule.id)
  | ⟨head, children⟩ => by
    have hown := RuleSetDescription.isLeastId_leastRuleId
      (head.describe.evaluative ++ head.describe.assertive)
    have hids : (head.describe.evaluative ++ head.describe.assertive).map RuleDescription.id =
        head.rules.map Rule.id := by
      rw [Head.describe, Head.rules, ← List.map_append, List.map_map]
      rfl
    rw [hids] at hown
    rw [describe, RuleSetDescription.firstRuleId, allRules_mk, List.map_append]
    exact hown.append (isLeastId_firstRuleIdAll children)

/-- The least number of a rule in described trees is that of a rule in the trees. -/
theorem isLeastId_firstRuleIdAll : (sets : List RuleSet) →
    IsLeastId (RuleSetDescription.firstRuleIdAll (describeAll sets))
      ((allRulesAll sets).map Rule.id)
  | [] => rfl
  | set :: more => by
    rw [describeAll, RuleSetDescription.firstRuleIdAll, allRulesAll_cons, List.map_append]
    exact (isLeastId_firstRuleId set).append (isLeastId_firstRuleIdAll more)
end

/-- The least number of a rule in a numbered tree is the number from which its rules are numbered.
-/
theorem Numbered.firstRuleId {set : RuleSet} {firstSet firstRule : Nat}
    (h : set.Numbered firstSet firstRule) :
    (set.allRules = [] → set.describe.firstRuleId = none) ∧
    (set.allRules ≠ [] → ∃ least, set.describe.firstRuleId = some least ∧
      least.toNat = firstRule) := by
  have hleast := isLeastId_firstRuleId set
  cases hf : set.describe.firstRuleId with
  | none =>
    rw [hf] at hleast
    refine ⟨fun _ => rfl, fun hne => absurd (List.map_eq_nil_iff.mp hleast) hne⟩
  | some least =>
    rw [hf] at hleast
    obtain ⟨hmem, hle⟩ := hleast
    obtain ⟨rule, hr, hid⟩ := List.mem_map.mp hmem
    refine ⟨fun hnil => ?_, fun _ => ⟨least, rfl, ?_⟩⟩
    · rw [hnil] at hr
      exact absurd hr List.not_mem_nil
    · have hlow := (h.bounds hr).1
      have hpos : 0 < set.allRules.length := List.length_pos_of_mem hr
      have hfirst : firstRule ∈ numbers set.allRules :=
        h.perm.mem_iff.mpr (List.mem_range'_1.mpr ⟨le_rfl, by omega⟩)
      obtain ⟨first, hfm, hfid⟩ := List.mem_map.mp hfirst
      have hup : least.toNat ≤ first.id.toNat :=
        UInt32.le_iff_toNat_le.mp (hle first.id (List.mem_map_of_mem hfm))
      rw [← hid] at hup ⊢
      omega

/-- The rules of a numbered rule set are written in the order of the document. -/
theorem NumberedAll.sortedRules {head : Head} {rules : List Rule} {children : List RuleSet}
    {firstSet firstRule : Nat} (he : head.evaluative = rules.filter Rule.isPassive)
    (ha : head.assertive = rules.filter (fun rule => !rule.isPassive))
    (h : NumberedAll head.id rules children firstSet firstRule) :
    head.describe.sortedRules = rules.map Rule.describe := by
  refine RuleSetDescription.Head.sortedRules_eq ?_ ?_
  · rw [Head.describe, ← List.map_append]
    exact (Head.rules_perm he ha).map _
  · exact List.pairwise_map.mpr h.ascending

/-- A child of a numbered rule set parts the rules where it stood. -/
theorem NumberedAll.splitRules {parent : UInt32} {front rest : List Rule} {child : RuleSet}
    {more : List RuleSet} {firstSet firstRule : Nat}
    (hfront : numbers front = List.range' firstRule front.length)
    (hnone : child.allRules = [] → front = [])
    (hchild : child.Numbered firstSet (firstRule + front.length))
    (hmore : NumberedAll parent rest more (firstSet + child.preorder.length)
      (firstRule + front.length + child.allRules.length)) :
    RuleSetDescription.splitRules child.describe.firstRuleId ((front ++ rest).map Rule.describe) =
      (front.map Rule.describe, rest.map Rule.describe) := by
  obtain ⟨hmissing, hfound⟩ := hchild.firstRuleId
  by_cases hrules : child.allRules = []
  · rw [hmissing hrules, hnone hrules]
    rfl
  · obtain ⟨least, hleast, hnumber⟩ := hfound hrules
    have hpos : 0 < child.allRules.length := List.length_pos_of_ne_nil hrules
    have hbefore : ∀ rule ∈ front.map Rule.describe, decide (rule.id ≤ least) = true := by
      intro rule hr
      obtain ⟨source, hs, rfl⟩ := List.mem_map.mp hr
      have hlt := lt_of_mem_front hfront hs
      have hle : source.id ≤ least := UInt32.le_iff_toNat_le.mpr (by omega)
      exact decide_eq_true hle
    have hbehind : (rest.map Rule.describe).takeWhile (fun rule => decide (rule.id ≤ least)) = [] ∧
        (rest.map Rule.describe).dropWhile (fun rule => decide (rule.id ≤ least)) =
          rest.map Rule.describe := by
      cases rest with
      | nil => exact ⟨rfl, rfl⟩
      | cons rule others =>
        have hle := hmore.le_rule (List.mem_cons_self (a := rule) (l := others))
        have hgt : decide (rule.describe.id ≤ least) = false := by
          refine decide_eq_false fun hno => ?_
          have hno' : rule.id.toNat ≤ least.toNat := UInt32.le_iff_toNat_le.mp hno
          omega
        simp only [List.map_cons, List.takeWhile_cons, List.dropWhile_cons, hgt]
        exact ⟨rfl, rfl⟩
    rw [hleast, RuleSetDescription.splitRules, List.span_eq_takeWhile_dropWhile, List.map_append,
      List.takeWhile_append_of_pos hbefore, List.dropWhile_append_of_pos hbefore, hbehind.1,
      hbehind.2, List.append_nil]

end RuleSet

end Rulebook
