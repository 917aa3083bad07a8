import Mathlib.Data.List.Perm.Basic
import Rulebook.Proofs.Compiler.Sound

/-!
# How compiled trees are numbered

A tree that is numbered from some rule set and some rule on uses up an interval of numbers of each
kind. Its root has the first number of a rule set. The rules of the root, in the order of the
document, fall into runs: one in front of each child that holds rules, and one behind them all, and
the numbers of a run, of the child behind it, and of the next run follow each other. `Numbered` says
so for every rule set of a tree. A rule set that grows stays numbered, as long as the numbers fit
into 32 bits.
-/

namespace Rulebook

namespace RuleSet

/-- The numbers of rules, in order. -/
def numbers (rules : List Rule) : List Nat := rules.map fun rule => rule.id.toNat

/-- The rules of the rule sets of a tree. -/
def allRules (set : RuleSet) : List Rule := set.preorder.flatMap fun node => node.head.rules

/-- The rules of the rule sets of a list of trees. -/
def allRulesAll (sets : List RuleSet) : List Rule :=
  (preorderAll sets).flatMap fun node => node.head.rules

mutual
/-- A tree is numbered from a rule set and a rule on. -/
def Numbered : RuleSet → Nat → Nat → Prop
  | ⟨head, children⟩, firstSet, firstRule =>
    head.id.toNat = firstSet ∧ ∃ rules : List Rule,
      head.evaluative = rules.filter Rule.isPassive ∧
      head.assertive = rules.filter (fun rule => !rule.isPassive) ∧
      NumberedAll head.id rules children (firstSet + 1) firstRule

/-- The rules of a rule set and the trees below it are numbered from a rule set and a rule on. -/
def NumberedAll (parent : UInt32) : List Rule → List RuleSet → Nat → Nat → Prop
  | rules, [], _, firstRule => numbers rules = List.range' firstRule rules.length
  | rules, child :: more, firstSet, firstRule =>
    ∃ front rest, rules = front ++ rest ∧
      numbers front = List.range' firstRule front.length ∧
      child.head.parent = some parent ∧ (child.allRules = [] → front = []) ∧
      child.Numbered firstSet (firstRule + front.length) ∧
      NumberedAll parent rest more (firstSet + child.preorder.length)
        (firstRule + front.length + child.allRules.length)
end

theorem allRules_mk (head : Head) (children : List RuleSet) :
    allRules ⟨head, children⟩ = head.rules ++ allRulesAll children := by
  rw [allRules, preorder, List.flatMap_cons, allRulesAll]

theorem allRulesAll_cons (set : RuleSet) (more : List RuleSet) :
    allRulesAll (set :: more) = set.allRules ++ allRulesAll more := by
  rw [allRulesAll, preorderAll, List.flatMap_append, allRules, allRulesAll]

theorem allRulesAll_append (left right : List RuleSet) :
    allRulesAll (left ++ right) = allRulesAll left ++ allRulesAll right := by
  rw [allRulesAll, preorderAll_append, List.flatMap_append, allRulesAll, allRulesAll]

/-- The rules of a head are the rules that it was made of, regrouped. -/
theorem Head.rules_perm {head : Head} {rules : List Rule}
    (he : head.evaluative = rules.filter Rule.isPassive)
    (ha : head.assertive = rules.filter (fun rule => !rule.isPassive)) :
    head.rules.Perm rules := by
  rw [Head.rules, he, ha]
  exact List.filter_append_perm Rule.isPassive rules

/-- A rule that is added comes last. -/
theorem Head.addRule_filter {head : Head} {rules : List Rule}
    (he : head.evaluative = rules.filter Rule.isPassive)
    (ha : head.assertive = rules.filter (fun rule => !rule.isPassive)) (rule : Rule) :
    (head.addRule rule).evaluative = (rules ++ [rule]).filter Rule.isPassive ∧
      (head.addRule rule).assertive =
        (rules ++ [rule]).filter (fun rule => !rule.isPassive) := by
  rw [List.filter_append, List.filter_append, ← he, ← ha, Head.addRule]
  cases hp : rule.isPassive with
  | true => simp [hp]
  | false => simp [hp]

mutual
/-- Where there are no rules, the number of the next rule does not matter. -/
theorem Numbered.shift : {set : RuleSet} → {firstSet firstRule : Nat} →
    set.Numbered firstSet firstRule → set.allRules = [] → ∀ other, set.Numbered firstSet other
  | ⟨head, children⟩, firstSet, firstRule, h, hnone, other => by
    obtain ⟨hid, rules, he, ha, hall⟩ := h
    rw [allRules_mk, List.append_eq_nil_iff] at hnone
    have hempty : rules = [] := by
      have hperm := Head.rules_perm he ha
      rw [hnone.1] at hperm
      exact hperm.nil_eq.symm
    subst hempty
    exact ⟨hid, [], he, ha, hall.shift hnone.2 other⟩

/-- Where there are no rules in trees, the number of the next rule does not matter. -/
theorem NumberedAll.shift : {parent : UInt32} → {children : List RuleSet} →
    {firstSet firstRule : Nat} → NumberedAll parent [] children firstSet firstRule →
    allRulesAll children = [] → ∀ other, NumberedAll parent [] children firstSet other
  | _, [], _, _, _, _, _ => rfl
  | parent, child :: more, firstSet, firstRule, h, hnone, other => by
    obtain ⟨front, rest, happ, -, hparent, -, hchild, hmore⟩ := h
    rw [allRulesAll_cons, List.append_eq_nil_iff] at hnone
    obtain ⟨rfl, rfl⟩ := List.append_eq_nil_iff.mp happ.symm
    rw [hnone.1] at hmore
    refine ⟨[], [], rfl, rfl, hparent, fun _ => rfl, hchild.shift hnone.1 _, ?_⟩
    rw [hnone.1]
    exact hmore.shift hnone.2 _
end

/-- A rule with the next number may come behind all that is there. -/
theorem NumberedAll.snoc_rule {parent : UInt32} {children : List RuleSet} {rules : List Rule}
    {firstSet firstRule : Nat} (h : NumberedAll parent rules children firstSet firstRule)
    {rule : Rule}
    (hr : rule.id.toNat = firstRule + (rules.length + (allRulesAll children).length)) :
    NumberedAll parent (rules ++ [rule]) children firstSet firstRule := by
  induction children generalizing rules firstSet firstRule with
  | nil =>
    simp only [NumberedAll] at h ⊢
    have hr' : rule.id.toNat = firstRule + rules.length := by
      simpa [allRulesAll, preorderAll] using hr
    rw [numbers, List.map_append, ← numbers, h, List.length_append, List.length_singleton,
      List.range'_1_concat, List.map_singleton, hr']
  | cons child more ih =>
    obtain ⟨front, rest, rfl, hfront, hparent, hnone, hchild, hmore⟩ := h
    refine ⟨front, rest ++ [rule], List.append_assoc _ _ _, hfront, hparent, hnone, hchild,
      ih hmore ?_⟩
    rw [hr, allRulesAll_cons, List.length_append, List.length_append]
    omega

/-- A tree that is numbered from the next numbers on may come behind all that is there. -/
theorem NumberedAll.snoc_child {parent : UInt32} {children : List RuleSet} {rules : List Rule}
    {firstSet firstRule : Nat} (h : NumberedAll parent rules children firstSet firstRule)
    {child : RuleSet} (hp : child.head.parent = some parent)
    (hc : child.Numbered (firstSet + (preorderAll children).length)
      (firstRule + (rules.length + (allRulesAll children).length))) :
    NumberedAll parent rules (children ++ [child]) firstSet firstRule := by
  induction children generalizing rules firstSet firstRule with
  | nil =>
    simp only [NumberedAll] at h
    have hc' : child.Numbered firstSet (firstRule + rules.length) := by
      simpa [allRulesAll, preorderAll] using hc
    by_cases hnone : child.allRules = []
    · refine ⟨[], rules, rfl, rfl, hp, fun _ => rfl, hc'.shift hnone _, ?_⟩
      simpa [NumberedAll, hnone] using h
    · refine ⟨rules, [], (List.append_nil rules).symm, h, hp, fun hn => absurd hn hnone, hc', ?_⟩
      rfl
  | cons other more ih =>
    obtain ⟨front, rest, rfl, hfront, hparent, hnone, hother, hmore⟩ := h
    refine ⟨front, rest, rfl, hfront, hparent, hnone, hother, ih hmore ?_⟩
    have hset : firstSet + other.preorder.length + (preorderAll more).length =
        firstSet + (preorderAll (other :: more)).length := by
      rw [preorderAll, List.length_append]
      omega
    have hrule : firstRule + front.length + other.allRules.length +
          (rest.length + (allRulesAll more).length) =
        firstRule + ((front ++ rest).length + (allRulesAll (other :: more)).length) := by
      rw [allRulesAll_cons, List.length_append, List.length_append]
      omega
    rw [hset, hrule]
    exact hc

/-- A tree is numbered, and the next numbers are those behind the ones that it uses. -/
structure Occupies (set : RuleSet) (firstSet firstRule : Nat) (next : Numbering) : Prop where
  /-- The tree is numbered. -/
  numbered : set.Numbered firstSet firstRule
  /-- The next rule set has the number behind those of the rule sets. -/
  sets : next.nextSet = firstSet + set.preorder.length
  /-- The next rule has the number behind those of the rules. -/
  rules : next.nextRule = firstRule + set.allRules.length

/-- A rule set to which nothing was added is numbered from its own number on. -/
theorem Occupies.start {head : Head} (he : head.evaluative = []) (ha : head.assertive = [])
    {number : Nat} (hid : head.id.toNat = number) (firstRule : Nat) :
    Occupies ⟨head, []⟩ number firstRule ⟨number + 1, firstRule⟩ := by
  have hnone : allRules ⟨head, []⟩ = [] := by
    rw [allRules_mk, Head.rules, he, ha]
    rfl
  refine ⟨⟨hid, [], he, ha, rfl⟩, rfl, ?_⟩
  rw [hnone]
  rfl

/-- A rule with the next number may be added. -/
theorem Occupies.addRule {head : Head} {children : List RuleSet} {firstSet firstRule : Nat}
    {next : Numbering} (h : Occupies ⟨head, children⟩ firstSet firstRule next) {rule : Rule}
    (hr : rule.id.toNat = next.nextRule) :
    Occupies ⟨head.addRule rule, children⟩ firstSet firstRule
      ⟨next.nextSet, next.nextRule + 1⟩ := by
  obtain ⟨⟨hid, rules, he, ha, hall⟩, hsets, hrules⟩ := h
  obtain ⟨he', ha'⟩ := Head.addRule_filter he ha rule
  have hlength : head.rules.length = rules.length := (Head.rules_perm he ha).length_eq
  have hlength' : (head.addRule rule).rules.length = rules.length + 1 := by
    rw [(Head.rules_perm he' ha').length_eq, List.length_append, List.length_singleton]
  have hid' : (head.addRule rule).id = head.id := by
    rw [Head.addRule]
    split <;> rfl
  rw [allRules_mk, List.length_append, hlength] at hrules
  refine ⟨⟨hid' ▸ hid, rules ++ [rule], he', ha', ?_⟩, hsets, ?_⟩
  · rw [hid']
    exact hall.snoc_rule (hr.trans hrules)
  · have hnext : next.nextRule + 1 = firstRule + (rules.length + 1 +
        (allRulesAll children).length) := by omega
    rw [allRules_mk, List.length_append, hlength']
    exact hnext

/-- A tree that is numbered from the next numbers on may be added. -/
theorem Occupies.addChild {head : Head} {children : List RuleSet} {firstSet firstRule : Nat}
    {next after : Numbering} (h : Occupies ⟨head, children⟩ firstSet firstRule next)
    {child : RuleSet} (hp : child.head.parent = some head.id)
    (hc : Occupies child next.nextSet next.nextRule after) :
    Occupies ⟨head, children ++ [child]⟩ firstSet firstRule after := by
  obtain ⟨⟨hid, rules, he, ha, hall⟩, hsets, hrules⟩ := h
  have hlength : head.rules.length = rules.length := (Head.rules_perm he ha).length_eq
  have hpre : (preorderAll (children ++ [child])).length =
      (preorderAll children).length + child.preorder.length := by
    rw [preorderAll_append, List.length_append, preorderAll, preorderAll, List.append_nil]
  have hall' : (allRulesAll (children ++ [child])).length =
      (allRulesAll children).length + child.allRules.length := by
    rw [allRulesAll_append, List.length_append, allRulesAll_cons, List.length_append]
    rfl
  rw [preorder, List.length_cons] at hsets
  rw [allRules_mk, List.length_append, hlength] at hrules
  obtain ⟨hnumbered, hcsets, hcrules⟩ := hc
  refine ⟨⟨hid, rules, he, ha, hall.snoc_child hp ?_⟩, ?_, ?_⟩
  · rw [hsets, hrules] at hnumbered
    convert hnumbered using 1
    omega
  · rw [preorder, List.length_cons, hpre, hcsets, hsets]
    omega
  · rw [allRules_mk, List.length_append, hlength, hall', hcrules, hrules]
    omega

/-- Growing keeps a tree numbered, as long as the numbers fit into 32 bits. Numbers are given in
order, so that those at the end bound all that are given on the way. -/
theorem Grows.occupies {reader : RuleReader} {set last : RuleSet} {numbering after : Numbering}
    (h : Grows reader set numbering last after) (hsets : after.nextSet ≤ UInt32.size)
    (hrules : after.nextRule ≤ UInt32.size) {firstSet firstRule : Nat}
    (ho : Occupies set firstSet firstRule numbering) : Occupies last firstSet firstRule after := by
  induction h generalizing firstSet firstRule with
  | done => exact ho
  | @rule head children numbering after last label text rule hne ht hread more ih =>
    have hlt : numbering.nextRule < UInt32.size :=
      lt_of_lt_of_le (Nat.lt_of_succ_le more.mono.2) hrules
    refine ih hsets hrules (ho.addRule ?_)
    rw [(RuleReader.read_keeps hread).1, UInt32.toNat_ofNat_of_lt' hlt]
  | join combinator more ih => exact ih hsets hrules ⟨ho.numbered, ho.sets, ho.rules⟩
  | name failureMessage customId hk more ih =>
    exact ih hsets hrules ⟨ho.numbered, ho.sets, ho.rules⟩
  | @node head children numbering between after child last kind description severity hk hs inside
      more ihinside ihmore =>
    have hlt : numbering.nextSet < UInt32.size :=
      lt_of_lt_of_le (Nat.lt_of_succ_le (inside.mono.1.trans more.mono.1)) hsets
    have hid : (UInt32.ofNat numbering.nextSet).toNat = numbering.nextSet :=
      UInt32.toNat_ofNat_of_lt' hlt
    have hchild : Occupies child numbering.nextSet numbering.nextRule between :=
      ihinside (more.mono.1.trans hsets) (more.mono.2.trans hrules)
        (Occupies.start rfl rfl hid numbering.nextRule)
    exact ihmore hsets hrules (ho.addChild inside.head_eq.2.1 hchild)

end RuleSet

/-- The root of a compiled tree is numbered from one on when its document has so few elements that
the numbers fit into 32 bits. -/
theorem Compiler.numbered_of_compileRoot {compiler : Compiler} {markup : String} {root : RuleSet}
    (h : compiler.compileRoot markup = .ok root)
    (hm : Markup.elementCount markup < UInt32.size - 2) : root.Numbered 1 1 := by
  obtain ⟨after, hraises, hgrows⟩ := compileRoot_grows h
  have hmono := hgrows.mono
  have hstart : RuleSet.Occupies RuleSet.root 1 1 {} := RuleSet.Occupies.start rfl rfl rfl 1
  have hfirst : ({} : Numbering).nextSet = 2 ∧ ({} : Numbering).nextRule = 1 := ⟨rfl, rfl⟩
  rw [RuleSet.Raises, hfirst.1, hfirst.2] at hraises
  rw [hfirst.1, hfirst.2] at hmono
  exact (hgrows.occupies (by omega) (by omega) hstart).numbered

end Rulebook
