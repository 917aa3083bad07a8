import Rulebook.Proofs.Compiler.Numbering

/-!
# The order of numbers in a numbered tree

The rule sets of a numbered tree have consecutive numbers in preorder, and its rules have
consecutive numbers in some order. The rules of one rule set ascend in the order of the document. A
child stands at one place in this order: each rule of the rule set is in front of all rules of the
child or behind all of them, and so are the rules of other children.
-/

namespace Rulebook

namespace RuleSet

/-- Consecutive numbers that follow each other are consecutive. -/
theorem perm_range'_append {left right : List Nat} {first count more : Nat}
    (hl : left.Perm (List.range' first count))
    (hr : right.Perm (List.range' (first + count) more)) :
    (left ++ right).Perm (List.range' first (count + more)) := by
  rw [← List.range'_append_1]
  exact hl.append hr

theorem numbers_append (left right : List Rule) :
    numbers (left ++ right) = numbers left ++ numbers right :=
  List.map_append

theorem mem_preorder_self (set : RuleSet) : set ∈ set.preorder := by
  obtain ⟨head, children⟩ := set
  exact List.mem_cons_self

theorem Numbered.id_eq {set : RuleSet} {firstSet firstRule : Nat}
    (h : set.Numbered firstSet firstRule) : set.head.id.toNat = firstSet := by
  obtain ⟨head, children⟩ := set
  exact h.1

mutual
/-- The rule sets of a numbered tree have consecutive numbers in preorder. -/
theorem Numbered.ids : {set : RuleSet} → {firstSet firstRule : Nat} →
    set.Numbered firstSet firstRule →
    set.preorder.map (fun node => node.id.toNat) = List.range' firstSet set.preorder.length
  | ⟨head, children⟩, firstSet, firstRule, h => by
    obtain ⟨hid, rules, -, -, hall⟩ := h
    rw [preorder, List.map_cons, List.length_cons, List.range'_succ, hall.ids]
    exact congrArg (· :: _) hid

/-- The rule sets of trees that are numbered one behind the other have consecutive numbers. -/
theorem NumberedAll.ids : {parent : UInt32} → {rules : List Rule} → {children : List RuleSet} →
    {firstSet firstRule : Nat} → NumberedAll parent rules children firstSet firstRule →
    (preorderAll children).map (fun node => node.id.toNat) =
      List.range' firstSet (preorderAll children).length
  | _, _, [], _, _, _ => rfl
  | parent, rules, child :: more, firstSet, firstRule, h => by
    obtain ⟨front, rest, -, -, -, -, hchild, hmore⟩ := h
    rw [preorderAll, List.map_append, List.length_append, hchild.ids, hmore.ids,
      List.range'_append_1]
end

mutual
/-- The rules of a numbered tree have consecutive numbers in some order. -/
theorem Numbered.perm : {set : RuleSet} → {firstSet firstRule : Nat} →
    set.Numbered firstSet firstRule →
    (numbers set.allRules).Perm (List.range' firstRule set.allRules.length)
  | ⟨head, children⟩, firstSet, firstRule, h => by
    obtain ⟨-, rules, he, ha, hall⟩ := h
    have hrules := Head.rules_perm he ha
    have hown : (numbers head.rules).Perm (numbers rules) := hrules.map _
    rw [allRules_mk, numbers_append, List.length_append, hrules.length_eq]
    exact (hown.append_right _).trans hall.perm

/-- The rules of a rule set and of the trees below have consecutive numbers in some order. -/
theorem NumberedAll.perm : {parent : UInt32} → {rules : List Rule} → {children : List RuleSet} →
    {firstSet firstRule : Nat} → NumberedAll parent rules children firstSet firstRule →
    (numbers rules ++ numbers (allRulesAll children)).Perm
      (List.range' firstRule (rules.length + (allRulesAll children).length))
  | _, rules, [], _, firstRule, h => by
    have hnone : allRulesAll [] = [] := rfl
    rw [NumberedAll] at h
    rw [hnone, h, numbers, List.map_nil, List.append_nil, List.length_nil, Nat.add_zero]
  | parent, rules, child :: more, firstSet, firstRule, h => by
    obtain ⟨front, rest, rfl, hfront, -, -, hchild, hmore⟩ := h
    have hbehind := perm_range'_append hchild.perm hmore.perm
    have hboth := perm_range'_append (List.Perm.of_eq hfront) hbehind
    rw [allRulesAll_cons, numbers_append, numbers_append, List.length_append, List.length_append]
    have hcount : front.length + rest.length +
          (child.allRules.length + (allRulesAll more).length) =
        front.length + (child.allRules.length + (rest.length + (allRulesAll more).length)) := by
      omega
    rw [hcount]
    refine List.Perm.trans ?_ hboth
    rw [List.append_assoc]
    refine List.Perm.append_left _ ?_
    rw [← List.append_assoc, ← List.append_assoc]
    exact List.perm_append_comm.append_right _
end

mutual
/-- Every rule set of a numbered tree is numbered from some numbers on. -/
theorem Numbered.node : {set : RuleSet} → {firstSet firstRule : Nat} →
    set.Numbered firstSet firstRule → ∀ node ∈ set.preorder, ∃ s r, node.Numbered s r
  | ⟨head, children⟩, firstSet, firstRule, h, node, hn => by
    rcases List.mem_cons.mp hn with rfl | hn
    · exact ⟨firstSet, firstRule, h⟩
    · obtain ⟨-, rules, -, -, hall⟩ := h
      exact hall.node node hn

/-- Every rule set of numbered trees is numbered from some numbers on. -/
theorem NumberedAll.node : {parent : UInt32} → {rules : List Rule} → {children : List RuleSet} →
    {firstSet firstRule : Nat} → NumberedAll parent rules children firstSet firstRule →
    ∀ node ∈ preorderAll children, ∃ s r, node.Numbered s r
  | _, _, [], _, _, _, node, hn => absurd hn List.not_mem_nil
  | parent, rules, child :: more, firstSet, firstRule, h, node, hn => by
    obtain ⟨front, rest, -, -, -, -, hchild, hmore⟩ := h
    rcases List.mem_append.mp hn with hn | hn
    · exact hchild.node node hn
    · exact hmore.node node hn
end

section Bounds

variable {parent : UInt32} {rules : List Rule} {child : RuleSet} {children : List RuleSet}
  {firstSet firstRule : Nat} {rule : Rule}

/-- The rules of a numbered tree have numbers in the interval of the tree. -/
theorem Numbered.bounds (h : child.Numbered firstSet firstRule) (hr : rule ∈ child.allRules) :
    firstRule ≤ rule.id.toNat ∧ rule.id.toNat < firstRule + child.allRules.length := by
  have hm : rule.id.toNat ∈ numbers child.allRules := List.mem_map_of_mem hr
  exact List.mem_range'_1.mp (h.perm.mem_iff.mp hm)

theorem NumberedAll.le_rule (h : NumberedAll parent rules children firstSet firstRule)
    (hr : rule ∈ rules) : firstRule ≤ rule.id.toNat := by
  have hm : rule.id.toNat ∈ numbers rules := List.mem_map_of_mem hr
  exact (List.mem_range'_1.mp (h.perm.mem_iff.mp (List.mem_append_left _ hm))).1

/-- The rules below a rule set have numbers behind the first one. -/
theorem NumberedAll.le_below (h : NumberedAll parent rules children firstSet firstRule)
    (hc : child ∈ children) (hr : rule ∈ child.allRules) : firstRule ≤ rule.id.toNat := by
  have hbelow : rule ∈ allRulesAll children := by
    induction children generalizing rules firstSet firstRule with
    | nil => exact absurd hc List.not_mem_nil
    | cons other more ih =>
      obtain ⟨front, rest, -, -, -, -, -, hmore⟩ := h
      rw [allRulesAll_cons]
      rcases List.mem_cons.mp hc with rfl | hc
      · exact List.mem_append_left _ hr
      · exact List.mem_append_right _ (ih hmore hc)
  have hm : rule.id.toNat ∈ numbers (allRulesAll children) := List.mem_map_of_mem hbelow
  exact (List.mem_range'_1.mp (h.perm.mem_iff.mp (List.mem_append_right _ hm))).1

/-- Rules in front have numbers in front. -/
theorem lt_of_mem_front {front : List Rule}
    (h : numbers front = List.range' firstRule front.length) (hr : rule ∈ front) :
    rule.id.toNat < firstRule + front.length := by
  have hm : rule.id.toNat ∈ numbers front := List.mem_map_of_mem hr
  rw [h] at hm
  exact (List.mem_range'_1.mp hm).2

/-- Rules with consecutive numbers ascend. -/
theorem ascending_of_numbers {front : List Rule}
    (h : numbers front = List.range' firstRule front.length) :
    front.Pairwise fun earlier later => earlier.id < later.id := by
  have hp : (numbers front).Pairwise (· < ·) := by
    rw [h]
    exact List.pairwise_lt_range'
  exact (List.pairwise_map.mp hp).imp fun hlt => UInt32.lt_iff_toNat_lt.mpr hlt

end Bounds

section Order

variable {parent : UInt32} {rules : List Rule} {children : List RuleSet} {firstSet firstRule : Nat}

/-- The rules of a rule set ascend in the order of the document. -/
theorem NumberedAll.ascending (h : NumberedAll parent rules children firstSet firstRule) :
    rules.Pairwise fun earlier later => earlier.id < later.id := by
  induction children generalizing rules firstSet firstRule with
  | nil => exact ascending_of_numbers h
  | cons child more ih =>
    obtain ⟨front, rest, rfl, hfront, -, -, hchild, hmore⟩ := h
    refine List.pairwise_append.mpr ⟨ascending_of_numbers hfront, ih hmore, ?_⟩
    intro earlier he later hl
    have hlt := lt_of_mem_front hfront he
    have hle := hmore.le_rule hl
    exact UInt32.lt_iff_toNat_lt.mpr (by omega)

/-- The rules of an earlier child are in front of those of a later one. -/
theorem NumberedAll.apart (h : NumberedAll parent rules children firstSet firstRule) :
    children.Pairwise fun earlier later =>
      ∀ rule ∈ earlier.allRules, ∀ other ∈ later.allRules, rule.id < other.id := by
  induction children generalizing rules firstSet firstRule with
  | nil => exact List.Pairwise.nil
  | cons child more ih =>
    obtain ⟨front, rest, rfl, hfront, -, -, hchild, hmore⟩ := h
    refine List.pairwise_cons.mpr ⟨?_, ih hmore⟩
    intro later hl rule hr other ho
    have hlt := (hchild.bounds hr).2
    have hle := hmore.le_below hl ho
    exact UInt32.lt_iff_toNat_lt.mpr (by omega)

/-- A rule of a rule set is in front of all rules of a child or behind all of them. -/
theorem NumberedAll.around (h : NumberedAll parent rules children firstSet firstRule) {rule : Rule}
    (hr : rule ∈ rules) {child : RuleSet} (hc : child ∈ children) :
    (∀ other ∈ child.allRules, rule.id < other.id) ∨
      (∀ other ∈ child.allRules, other.id < rule.id) := by
  induction children generalizing rules firstSet firstRule with
  | nil => exact absurd hc List.not_mem_nil
  | cons first more ih =>
    obtain ⟨front, rest, rfl, hfront, -, -, hfirst, hmore⟩ := h
    rcases List.mem_append.mp hr with hr | hr
    · left
      intro other ho
      have hlt := lt_of_mem_front hfront hr
      have hle : firstRule + front.length ≤ other.id.toNat := by
        rcases List.mem_cons.mp hc with rfl | hc
        · exact (hfirst.bounds ho).1
        · have := hmore.le_below hc ho
          omega
      exact UInt32.lt_iff_toNat_lt.mpr (by omega)
    · rcases List.mem_cons.mp hc with rfl | hc
      · right
        intro other ho
        have hlt := (hfirst.bounds ho).2
        have hle := hmore.le_rule hr
        exact UInt32.lt_iff_toNat_lt.mpr (by omega)
      · exact ih hmore hr hc

/-- The children of a rule set know its number. -/
theorem NumberedAll.parent_eq (h : NumberedAll parent rules children firstSet firstRule)
    {child : RuleSet} (hc : child ∈ children) : child.head.parent = some parent := by
  induction children generalizing rules firstSet firstRule with
  | nil => exact absurd hc List.not_mem_nil
  | cons first more ih =>
    obtain ⟨front, rest, -, -, hparent, -, -, hmore⟩ := h
    rcases List.mem_cons.mp hc with rfl | hc
    · exact hparent
    · exact ih hmore hc

end Order

end RuleSet

end Rulebook
