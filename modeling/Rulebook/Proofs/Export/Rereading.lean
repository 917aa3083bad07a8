import Mathlib.Data.List.Perm.Basic
import Rulebook.Proofs.Export.Acceptance
import Rulebook.Proofs.Export.Elements
import Rulebook.Proofs.Expression.Rereading

/-!
# Written trees of rules that were read

A tree may be put together from rules that were read one by one, in any order and under any numbers.
As long as no text of a rule begins a tag, what it is written as can be compiled, and the rules come
back in the order in which they are written: the first one has the number one. `writtenRules` is
this order. What is written has the elements of the rules in it, an outline lists their texts in it,
and adding the items of an outline numbers the rules in it.
-/

namespace Rulebook

open Markup (Element Event)
open OutlineItem (ReadableAll)

namespace Markup.Element

mutual
/-- The elements in an element, itself included, in the order of the document. -/
def inOrder : Element → List Element
  | ⟨name, attributes, text, children⟩ => ⟨name, attributes, text, children⟩ :: inOrderAll children

/-- The elements in a list of elements, in the order of the document. -/
def inOrderAll : List Element → List Element
  | [] => []
  | element :: more => element.inOrder ++ inOrderAll more
end

/-- The elements in two lists of elements are those in the one and those in the other. -/
theorem inOrderAll_append (left right : List Element) :
    inOrderAll (left ++ right) = inOrderAll left ++ inOrderAll right := by
  induction left with
  | nil => rfl
  | cons element more ih => rw [List.cons_append, inOrderAll, inOrderAll, ih, List.append_assoc]

/-- The elements of rules in an element, in the order of the document. -/
def rules (element : Element) : List Element :=
  element.inOrder.filter fun inside => inside.name == Outline.ruleTag

/-- The elements of rules in a list of elements, in the order of the document. -/
def rulesAll (elements : List Element) : List Element :=
  (inOrderAll elements).filter fun inside => inside.name == Outline.ruleTag

theorem rulesAll_append (left right : List Element) :
    rulesAll (left ++ right) = rulesAll left ++ rulesAll right := by
  rw [rulesAll, inOrderAll_append, List.filter_append, rulesAll, rulesAll]

theorem rulesAll_cons (element : Element) (more : List Element) :
    rulesAll (element :: more) = element.rules ++ rulesAll more := by
  rw [rulesAll, inOrderAll, List.filter_append, rules, rulesAll]

/-- In an element that is no rule, the elements of rules are those below. -/
theorem rules_of_ne {name : String} (h : (name == Outline.ruleTag) = false)
    (attributes : List (String × String)) (text : String) (children : List Element) :
    rules ⟨name, attributes, text, children⟩ = rulesAll children := by
  rw [rules, inOrder]
  exact List.filter_cons_of_neg (by rw [h]; exact Bool.false_ne_true)

end Markup.Element

namespace RuleSetDescription

mutual
/-- The rules of a rule set and of those below it, in the order in which they are written. -/
def writtenRules : RuleSetDescription → List RuleDescription
  | ⟨head, children⟩ => bodyRules head.sortedRules children

/-- The rules that are still to come and those of the children, in the order in which they are
written. -/
def bodyRules (pending : List RuleDescription) : List RuleSetDescription → List RuleDescription
  | [] => pending
  | child :: more =>
    let (front, rest) := splitRules child.firstRuleId pending
    front ++ (child.writtenRules ++ bodyRules rest more)
end

/-- The elements of rules are found where they stand in a row. -/
theorem rulesAll_elements (rules : List RuleDescription) :
    Element.rulesAll (rules.map RuleDescription.element) = rules.map RuleDescription.element := by
  induction rules with
  | nil => rfl
  | cons rule more ih =>
    rw [List.map_cons, Element.rulesAll_cons, ih]
    rfl

theorem rules_criteriaElement (combinator : Combinator) (rules : List RuleDescription) :
    (criteriaElement combinator rules).rules = rules.map RuleDescription.element := by
  rw [criteriaElement, Element.rules_of_ne (by decide), rulesAll_elements]

/-- The message and the name of a failure hold no rules. -/
theorem rulesAll_failureElements (head : Head) : Element.rulesAll head.failureElements = [] := by
  unfold Head.failureElements
  split
  · cases head.failureMessage <;> cases head.customId <;> rfl
  · rfl

theorem tag_ne_ruleTag (kind : NodeKind) : (kind.tag == Outline.ruleTag) = false := by
  cases kind <;> decide

mutual
/-- The elements of rules stand in the element of a rule set in the order of the written rules. -/
theorem rules_element : (set : RuleSetDescription) →
    set.element.rules = set.writtenRules.map RuleDescription.element
  | ⟨head, children⟩ => by
    rw [element, Element.rules_of_ne (tag_ne_ruleTag head.kind), Element.rulesAll_append,
      rulesAll_failureElements, List.nil_append, rulesAll_bodyElements, writtenRules]

/-- The elements of rules stand among those of rules and children in the order of the written rules.
-/
theorem rulesAll_bodyElements (combinator : Combinator) : (children : List RuleSetDescription) →
    (pending : List RuleDescription) → (written : Bool) →
    Element.rulesAll (bodyElements combinator pending written children) =
      (bodyRules pending children).map RuleDescription.element
  | [], pending, written => by
    rw [bodyElements, bodyRules]
    by_cases hw : (!pending.isEmpty || (!written && combinator != .and)) = true
    · rw [if_pos hw, Element.rulesAll_cons, rules_criteriaElement]
      exact List.append_nil _
    · rw [if_neg hw, eq_nil_of_not_written hw]
      rfl
  | child :: more, pending, written => by
    rw [bodyElements, bodyRules]
    generalize splitRules child.firstRuleId pending = parts
    obtain ⟨front, rest⟩ := parts
    have hfront : Element.rulesAll
        (if front.isEmpty then [] else [criteriaElement combinator front]) =
          front.map RuleDescription.element := by
      cases front with
      | nil => rfl
      | cons rule others =>
        rw [List.isEmpty_cons, if_neg Bool.false_ne_true, Element.rulesAll_cons,
          rules_criteriaElement]
        exact List.append_nil _
    dsimp only
    rw [Element.rulesAll_append, hfront, Element.rulesAll_cons, rules_element child,
      rulesAll_bodyElements combinator more, List.map_append, List.map_append]
end

end RuleSetDescription

namespace OutlineItem

mutual
/-- The names and texts of the rules in an item, in order. -/
def rules : OutlineItem → List (Option String × String)
  | .rule label text => [(label, text)]
  | .node _ _ _ items => rulesAll items
  | .join _ | .failureMessage _ | .customId _ => []

/-- The names and texts of the rules in a list of items, in order. -/
def rulesAll : List OutlineItem → List (Option String × String)
  | [] => []
  | item :: more => item.rules ++ rulesAll more
end

/-- The rules in two lists of items are those in the one and those in the other. -/
theorem rulesAll_append (left right : List OutlineItem) :
    rulesAll (left ++ right) = rulesAll left ++ rulesAll right := by
  induction left with
  | nil => rfl
  | cons item more ih => rw [List.cons_append, rulesAll, rulesAll, ih, List.append_assoc]

end OutlineItem

/-- The name of a rule and its text without the blanks around it. -/
def RuleDescription.said (rule : RuleDescription) : Option String × String :=
  (rule.label, Text.trimmed rule.expression)

namespace RuleSetDescription

/-- Conditions say the rules in order. -/
theorem rulesAll_criteriaItems (combinator : Combinator) (rules : List RuleDescription) :
    OutlineItem.rulesAll (criteriaItems combinator rules) = rules.map RuleDescription.said := by
  rw [criteriaItems, OutlineItem.rulesAll, OutlineItem.rules, List.nil_append]
  induction rules with
  | nil => rfl
  | cons rule more ih =>
    rw [List.map_cons, OutlineItem.rulesAll, ih]
    rfl

/-- The message and the name of a failure say no rules. -/
theorem rulesAll_failureItems (head : Head) : OutlineItem.rulesAll head.failureItems = [] := by
  unfold Head.failureItems
  split
  · cases head.failureMessage <;> cases head.customId <;> rfl
  · rfl

mutual
/-- What a rule set is written as says the rules in the order in which they are written. -/
theorem rulesAll_items : (set : RuleSetDescription) →
    OutlineItem.rulesAll set.items = set.writtenRules.map RuleDescription.said
  | ⟨head, children⟩ => by
    have hinside : OutlineItem.rulesAll (head.failureItems ++
        bodyItems head.combinator head.sortedRules false children) =
        (bodyRules head.sortedRules children).map RuleDescription.said := by
      rw [OutlineItem.rulesAll_append, rulesAll_failureItems,
        rulesAll_bodyItems head.combinator children, List.nil_append]
    rw [items, writtenRules]
    cases head.kind with
    | root => exact hinside
    | flow => exact (List.append_nil _).trans hinside
    | validate => exact (List.append_nil _).trans hinside

/-- What rules and children are written as says the rules in the order in which they are written. -/
theorem rulesAll_bodyItems (combinator : Combinator) : (children : List RuleSetDescription) →
    (pending : List RuleDescription) → (written : Bool) →
    OutlineItem.rulesAll (bodyItems combinator pending written children) =
      (bodyRules pending children).map RuleDescription.said
  | [], pending, written => by
    rw [bodyItems, bodyRules]
    by_cases hw : (!pending.isEmpty || (!written && combinator != .and)) = true
    · rw [if_pos hw, rulesAll_criteriaItems]
    · rw [if_neg hw, eq_nil_of_not_written hw]
      rfl
  | child :: more, pending, written => by
    rw [bodyItems, bodyRules]
    generalize splitRules child.firstRuleId pending = parts
    obtain ⟨front, rest⟩ := parts
    have hfront : OutlineItem.rulesAll
        (if front.isEmpty then [] else criteriaItems combinator front) =
          front.map RuleDescription.said := by
      cases front with
      | nil => rfl
      | cons rule others => exact rulesAll_criteriaItems combinator (rule :: others)
    dsimp only
    rw [OutlineItem.rulesAll_append, hfront, OutlineItem.rulesAll_append, rulesAll_items child,
      rulesAll_bodyItems combinator more, List.map_append, List.map_append]
end

end RuleSetDescription

namespace RuleSet

mutual
/-- The rules of a tree are written each once. -/
theorem writtenRules_perm : (set : RuleSet) →
    set.describe.writtenRules.Perm (set.allRules.map Rule.describe)
  | ⟨head, children⟩ => by
    have hown : head.describe.sortedRules.Perm (head.rules.map Rule.describe) := by
      rw [Head.rules, List.map_append]
      exact List.mergeSort_perm _ _
    rw [describe, RuleSetDescription.writtenRules, allRules_mk, List.map_append]
    exact (bodyRules_perm children head.describe.sortedRules).trans (hown.append_right _)

/-- The rules that are still to come and those of some trees are written each once. -/
theorem bodyRules_perm : (sets : List RuleSet) → (pending : List RuleDescription) →
    (RuleSetDescription.bodyRules pending (describeAll sets)).Perm
      (pending ++ (allRulesAll sets).map Rule.describe)
  | [], pending => by
    rw [describeAll, RuleSetDescription.bodyRules]
    exact .of_eq (List.append_nil pending).symm
  | set :: more, pending => by
    rw [describeAll, RuleSetDescription.bodyRules, allRulesAll_cons, List.map_append]
    have hs := RuleSetDescription.splitRules_append set.describe.firstRuleId pending
    generalize RuleSetDescription.splitRules set.describe.firstRuleId pending = parts at hs ⊢
    obtain ⟨front, rest⟩ := parts
    dsimp only at hs ⊢
    have hmore := bodyRules_perm more rest
    have hturn : (set.allRules.map Rule.describe ++ (rest ++
        (allRulesAll more).map Rule.describe)).Perm
          (rest ++ (set.allRules.map Rule.describe ++ (allRulesAll more).map Rule.describe)) := by
      rw [← List.append_assoc, ← List.append_assoc]
      exact List.perm_append_comm.append_right _
    rw [← hs, List.append_assoc]
    exact (((writtenRules_perm set).append hmore).trans hturn).append_left front
end

/-- The rules of a tree can be listed in the order in which they are written. -/
theorem exists_writtenRules (set : RuleSet) : ∃ rules : List Rule, rules.Perm set.allRules ∧
    set.describe.writtenRules = rules.map Rule.describe := by
  have hdescribed : List.Forall₂ (fun described rule => described = Rule.describe rule)
      (set.allRules.map Rule.describe) set.allRules := by
    rw [List.forall₂_map_left_iff]
    exact List.forall₂_same.mpr fun _ _ => rfl
  obtain ⟨rules, hrules, hperm⟩ := List.perm_comp_forall₂ set.writtenRules_perm hdescribed
  refine ⟨rules, hperm, ?_⟩
  rw [← List.forall₂_eq_eq_eq, List.forall₂_map_right_iff]
  exact hrules

/-- Rules with the next numbers were added to a tree for the names and texts of rules, in order. -/
structure Added (reader : RuleReader) (set : RuleSet) (numbering : Numbering)
    (said : List (Option String × String)) (last : RuleSet) (after : Numbering)
    (made : List Rule) : Prop where
  /-- The tree has the new rules besides those it had. -/
  perm : last.allRules.Perm (set.allRules ++ made)
  /-- The new rules have the next numbers. -/
  ids : made.map Rule.id = (List.range' numbering.nextRule made.length).map UInt32.ofNat
  /-- These numbers are not given again. -/
  count : after.nextRule = numbering.nextRule + made.length
  /-- Each new rule was read from its text. -/
  read : List.Forall₂ (fun part rule => reader.read part.2 rule.id part.1 = .ok rule) said made

section Added

variable {reader : RuleReader} {set next last : RuleSet} {numbering between after : Numbering}
  {said said' : List (Option String × String)} {made made' : List Rule}

/-- Where a head keeps its rules, none are added. -/
theorem Added.none {head head' : Head} (h : head'.rules = head.rules) (children : List RuleSet)
    (numbering : Numbering) :
    Added reader ⟨head, children⟩ numbering [] ⟨head', children⟩ numbering [] := by
  refine ⟨?_, rfl, rfl, .nil⟩
  rw [allRules_mk, allRules_mk, h, List.append_nil]

/-- What is said behind is added behind. -/
theorem Added.trans (h : Added reader set numbering said next between made)
    (h' : Added reader next between said' last after made') :
    Added reader set numbering (said ++ said') last after (made ++ made') := by
  refine ⟨?_, ?_, ?_, List.rel_append h.read h'.read⟩
  · rw [← List.append_assoc]
    exact h'.perm.trans (h.perm.append_right _)
  · rw [List.map_append, h.ids, h'.ids, h.count, List.length_append, ← List.range'_append_1,
      List.map_append]
  · rw [h'.count, h.count, List.length_append, Nat.add_assoc]

end Added

mutual
/-- Adding an item adds the rules that it says. -/
theorem added_of_addItem {reader : RuleReader} : (item : OutlineItem) →
    ∀ {set next : RuleSet} {numbering between : Numbering},
    addItem reader set numbering item = .ok (next, between) →
    ∃ made, Added reader set numbering item.rules next between made
  | .rule label text, ⟨head, children⟩, next, numbering, between, h => by
    obtain ⟨-, rule, hread, rfl, rfl⟩ := addItem_rule h
    have hid := (RuleReader.read_keeps hread).1
    have hrules : (head.addRule rule).rules.Perm (head.rules ++ [rule]) := by
      unfold Head.addRule Head.rules
      split
      · rw [List.append_assoc, List.append_assoc]
        exact List.perm_append_comm.append_left _
      · rw [List.append_assoc]
    refine ⟨[rule], ?_, congrArg (fun id => [id]) hid, rfl, .cons (hid ▸ hread) .nil⟩
    rw [allRules_mk, allRules_mk, List.append_assoc]
    refine (hrules.append_right _).trans ?_
    rw [List.append_assoc]
    exact List.perm_append_comm.append_left _
  | .join combinator, ⟨head, children⟩, next, numbering, between, h => by
    rw [addItem] at h
    cases h
    exact ⟨[], .none (by rfl) children numbering⟩
  | .failureMessage text, ⟨head, children⟩, next, numbering, between, h => by
    rw [addItem] at h
    split at h <;> cases h <;> exact ⟨[], .none (by rfl) children numbering⟩
  | .customId text, ⟨head, children⟩, next, numbering, between, h => by
    rw [addItem] at h
    split at h <;> cases h <;> exact ⟨[], .none (by rfl) children numbering⟩
  | .node kind description severity items, ⟨head, children⟩, next, numbering, between, h => by
    obtain ⟨child, hchild, rfl⟩ := addItem_node h
    obtain ⟨made, hmade⟩ := added_of_addItems items hchild
    refine ⟨made, ?_, hmade.ids, hmade.count, hmade.read⟩
    have hbelow : child.allRules.Perm made := hmade.perm
    rw [allRules_mk, allRules_mk, allRulesAll_append, allRulesAll_cons, List.append_assoc]
    exact (((List.Perm.of_eq (List.append_nil _)).trans hbelow).append_left _).append_left _

/-- Adding items adds the rules that they say. -/
theorem added_of_addItems {reader : RuleReader} : (items : List OutlineItem) →
    ∀ {set last : RuleSet} {numbering after : Numbering},
    addItems reader set numbering items = .ok (last, after) →
    ∃ made, Added reader set numbering (OutlineItem.rulesAll items) last after made
  | [], ⟨head, children⟩, last, numbering, after, h => by
    rw [addItems_nil] at h
    cases h
    exact ⟨[], .none (by rfl) children numbering⟩
  | item :: more, set, last, numbering, after, h => by
    obtain ⟨next, between, hitem, hmore⟩ := addItems_cons h
    obtain ⟨made, hmade⟩ := added_of_addItem item hitem
    obtain ⟨made', hmade'⟩ := added_of_addItems more hmore
    exact ⟨made ++ made', hmade.trans hmade'⟩
end

end RuleSet

/-- The rule comes back, maybe under another number and with other bounds. -/
structure Rule.Returns (rule again : Rule) : Prop where
  /-- The name is the same. -/
  label : again.label = rule.label
  /-- The text is the same. -/
  expression : again.expression = rule.expression
  /-- The operator is the same. -/
  operator : again.operator = rule.operator
  /-- The attribute is the same. -/
  target : again.target = rule.target
  /-- The record is the same. -/
  record : again.record = rule.record
  /-- The rule is negated if it was. -/
  negated : again.negated = rule.negated
  /-- The operands are the same. -/
  operands : again.operands = rule.operands
  /-- The rule tests or writes the same kind of thing. -/
  kind : again.clause.kind = rule.clause.kind

/-- The rules of a tree in the order in which they are written, next to those of the tree that is
compiled from what is written. -/
structure RuleTree.Returns (tree again : RuleTree) (rules made : List Rule) : Prop where
  /-- The rules of the tree are listed, each once. -/
  rules_perm : rules.Perm tree.root.allRules
  /-- They are listed in the order in which their elements are written. -/
  written : ∃ element, Event.build? tree.describe.root.events =
      some { name := "#document", children := [element] } ∧
    element.rules = rules.map fun rule => rule.describe.element
  /-- The rules of the other tree are listed, each once. -/
  made_perm : made.Perm again.root.allRules
  /-- They are listed by their numbers, which are given from one on. -/
  made_ids : made.map Rule.id = (List.range' 1 made.length).map UInt32.ofNat
  /-- Each rule comes back at its place. -/
  returns : List.Forall₂ Rule.Returns rules made

namespace Compiler

variable {compiler : Compiler} {root : RuleSet}

/-- A rule that was read comes back when it is read from what it says. -/
theorem returns_of_read {reader : RuleReader} {rule again : Rule} (h : rule.WasRead reader)
    (hp : '<' ∉ rule.expression.toList)
    (hread : reader.read rule.describe.said.2 again.id rule.describe.said.1 = .ok again) :
    rule.Returns again := by
  obtain ⟨clause, hkind, hreadable⟩ := h.readable hp
  have htext : Text.trimmed rule.describe.expression = rule.expression := hreadable.proper.1
  have hagain : reader.read rule.expression again.id rule.label = .ok again := by
    rw [← htext]
    exact hread
  have hsame := (hreadable.read again.id rule.label).symm.trans hagain
  rw [← Except.ok.inj hsame]
  exact ⟨rfl, rfl, rfl, rfl, rfl, rfl, rfl, hkind⟩

/-- A tree of rules that were read is written as a document that can be read, and that is compiled
to a tree to which the rules come back in the order in which they are written, if the text of no
rule begins a tag and the written elements fit the limit. The rules may have been read from any
texts, in any order, and with any numbers and names, and they may stand anywhere in the tree. -/
theorem compile_written_read (hread : ∀ rule ∈ root.allRules, rule.WasRead compiler.reader)
    (hplain : ∀ rule ∈ root.allRules, '<' ∉ rule.expression.toList)
    (hfits : root.describe.nesting ≤ compiler.maxDepth) (registry : Registry) (version : UInt64) :
    (∃ document, Markup.readDocument compiler.maxDepth
      (RuleTree.ofRoot root registry version).describe.markup = .ok document) ∧
    ∃ again later rules made,
      compiler.compile (RuleTree.ofRoot root registry version).describe.markup =
        .ok (again, later) ∧ (RuleTree.ofRoot root registry version).Returns again rules made := by
  have hp : root.describe.Plain := RuleSet.plain_of_allRules root hplain
  have hitems : ReadableAll compiler.reader root.describe.items :=
    RuleSet.readable_of_allRules root fun rule hr => by
      obtain ⟨clause, -, hreadable⟩ := (hread rule hr).readable (hplain rule hr)
      exact hreadable.item
  obtain ⟨document, hdocument, -, -⟩ := RuleSetDescription.readDocument_eq_ok hp hfits
  refine ⟨⟨document, hdocument⟩, ?_⟩
  obtain ⟨last, after, hadd, hmade⟩ := exists_compileRoot_document hp hfits hitems
  obtain ⟨made, hadded⟩ := RuleSet.added_of_addItems _ hadd
  obtain ⟨rules, hperm, hwritten⟩ := root.exists_writtenRules
  have hsaid : OutlineItem.rulesAll root.describe.items =
      rules.map fun rule => rule.describe.said := by
    rw [RuleSetDescription.rulesAll_items, hwritten, List.map_map]
    rfl
  have hagain := hadded.read
  rw [hsaid, List.forall₂_map_left_iff] at hagain
  have hmem : ∀ rule ∈ rules, rule ∈ root.allRules := fun rule hr => hperm.mem_iff.mp hr
  refine ⟨_, _, rules, made, compile_of_compileRoot hmade, ?_⟩
  exact
    { rules_perm := hperm
      written := ⟨root.describe.element, (RuleSetDescription.builds_events _).build?_eq, by
        rw [RuleSetDescription.rules_element, hwritten, List.map_map]
        rfl⟩
      made_perm := hadded.perm.symm
      made_ids := hadded.ids
      returns := ((List.forall₂_and_left _ _).mpr ⟨hmem, hagain⟩).imp fun rule again h =>
        returns_of_read (hread rule h.1) (hplain rule h.1) h.2 }

/-- A rule from which something is computed by way of reading its text is read. -/
theorem exists_rule {α : Type} {reader : RuleReader} {text : String} {id : UInt32} (f : Rule → α)
    (value : α) (h : (reader.read text id none).toOption.map f = some value) :
    ∃ rule, reader.read text id none = .ok rule ∧ f rule = value := by
  cases hr : reader.read text id none with
  | error refusal =>
    rw [hr] at h
    cases h
  | ok rule =>
    rw [hr] at h
    exact ⟨rule, rfl, Option.some.inj h⟩

/-- A tree with some conditions and nothing else. -/
def conditions (rules : List Rule) : RuleSet :=
  ⟨{ RuleSet.root.head with evaluative := rules }, []⟩

theorem allRules_conditions (rules : List Rule) : (conditions rules).allRules = rules := by
  rw [conditions, RuleSet.allRules_mk]
  exact (List.append_nil _).trans (List.append_nil _)

/-- A tree with a condition is written with three elements that are nested. -/
theorem nesting_conditions (rule : Rule) (more : List Rule) :
    (conditions (rule :: more)).describe.nesting = 3 := rfl

/-- Two rules are read from texts with blanks around them and put into a tree under descending
numbers. They come back from the written tree, the one with the lesser number first. -/
theorem compile_written_read_owner : ∃ first second again later rules made,
    (small 3).reader.read " (N.Owner) POPULATED\n" 9 none = .ok first ∧
    (small 3).reader.read "NOT (N.Owner) == ('A &amp; B') " 2 none = .ok second ∧
    (small 3).compile (RuleTree.ofRoot (conditions [first, second]) {} 1).describe.markup =
      .ok (again, later) ∧
    (RuleTree.ofRoot (conditions [first, second]) {} 1).Returns again rules made := by
  obtain ⟨first, hfirst, htext⟩ : ∃ rule,
      (small 3).reader.read " (N.Owner) POPULATED\n" 9 none = .ok rule ∧
        rule.expression = "(N.Owner) POPULATED" :=
    exists_rule Rule.expression _ (by decide +kernel)
  obtain ⟨second, hsecond, htext'⟩ : ∃ rule,
      (small 3).reader.read "NOT (N.Owner) == ('A &amp; B') " 2 none = .ok rule ∧
        rule.expression = "NOT (N.Owner) == ('A &amp; B')" :=
    exists_rule Rule.expression _ (by decide +kernel)
  have hread : ∀ rule ∈ (conditions [first, second]).allRules,
      rule.WasRead (small 3).reader := by
    rw [allRules_conditions]
    exact List.forall_mem_cons.mpr ⟨⟨_, _, _, _, rfl, rfl, fun _ => rfl, hfirst⟩,
      List.forall_mem_singleton.mpr ⟨_, _, _, _, rfl, rfl, fun _ => rfl, hsecond⟩⟩
  have hplain : ∀ rule ∈ (conditions [first, second]).allRules,
      '<' ∉ rule.expression.toList := by
    rw [allRules_conditions, List.forall_mem_cons, List.forall_mem_singleton, htext, htext']
    decide
  have hfits : (conditions [first, second]).describe.nesting ≤ (small 3).maxDepth :=
    (nesting_conditions first [second]).le
  obtain ⟨-, again, later, rules, made, hagain⟩ := compile_written_read hread hplain hfits {} 1
  exact ⟨first, second, again, later, rules, made, hfirst, hsecond, hagain⟩

/-- Not every tree of rules that were read is written as a document that can be compiled: a text in
quotes may begin a tag. -/
theorem not_compile_written_read_always :
    ¬ ∀ (compiler : Compiler) (root : RuleSet),
      (∀ rule ∈ root.allRules, rule.WasRead compiler.reader) →
      root.describe.nesting ≤ compiler.maxDepth →
      ∃ again later, compiler.compile (RuleTree.ofRoot root {} 1).describe.markup =
        .ok (again, later) := by
  intro h
  obtain ⟨rule, hr, hnone⟩ : ∃ rule,
      (small 3).reader.read "(N.Owner) == ('a<b')" 1 none = .ok rule ∧
        ((small 3).compile (RuleTree.ofRoot (conditions [rule]) {} 1).describe.markup
          ).toOption.isNone = true :=
    exists_rule (fun rule => ((small 3).compile
      (RuleTree.ofRoot (conditions [rule]) {} 1).describe.markup).toOption.isNone) _
      (by decide +kernel)
  have hread : ∀ other ∈ (conditions [rule]).allRules, other.WasRead (small 3).reader := by
    rw [allRules_conditions]
    exact List.forall_mem_singleton.mpr ⟨_, _, _, _, rfl, rfl, fun _ => rfl, hr⟩
  obtain ⟨again, later, hagain⟩ := h (small 3) (conditions [rule]) hread
    (nesting_conditions rule []).le
  rw [hagain] at hnone
  cases hnone

end Compiler

end Rulebook
