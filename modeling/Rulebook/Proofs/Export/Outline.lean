import Mathlib.Data.List.TakeDrop
import Rulebook.Export.Markup
import Rulebook.Proofs.Markup.Adding

/-!
# What written descriptions say

A description is written as a document, and the document has an outline again. `items` is this
outline, taken from the description without writing it, and `nesting` is the number of elements that
are nested in the document. `adds_events` ties them to the written parts: a document whose texts
begin no tags is read as its outline within the limit for nested elements, and is too deep
otherwise.
-/

namespace Rulebook

open Markup (Element Event IsName)
open Outline (ofElements)

namespace RuleDescription

/-- What the element of a rule says. -/
def item (rule : RuleDescription) : OutlineItem :=
  .rule rule.label (Text.trimmed rule.expression)

/-- The element that a rule is written as. -/
def element (rule : RuleDescription) : Element where
  name := Outline.ruleTag
  attributes := (rule.label.map fun label => ("id", label)).toList
  text := rule.expression

/-- The text of a rule begins no tag. -/
def Plain (rule : RuleDescription) : Prop := '<' ∉ rule.expression.toList

/-- The element of a rule has the tag of rules and says what the rule is. -/
theorem element_says (rule : RuleDescription) :
    rule.element.hasTag Outline.ruleTag = true ∧ Outline.rule rule.element = rule.item := by
  refine ⟨Text.alike_refl _, ?_⟩
  cases hl : rule.label with
  | none => simp [Outline.rule, element, item, hl, Element.attribute?, Element.rawText]
  | some label =>
    have hk : Text.alike "id" "id" = true := Text.alike_refl _
    simp [Outline.rule, element, item, hl, Element.attribute?, Element.rawText, hk]

/-- The parts of a rule add its element. -/
theorem adds_events {rule : RuleDescription} (h : rule.Plain) (maxDepth : Nat) :
    Event.Adds maxDepth true rule.events 1 (fun elements => elements = [rule.element]) := by
  have hn : ∀ entry ∈ (rule.label.map fun label => ("id", label)).toList, IsName entry.1 := by
    cases rule.label with
    | none => simp
    | some label =>
      intro entry he
      rw [List.mem_singleton.mp he]
      exact (by decide : IsName "id")
  have hd : ((rule.label.map fun label => ("id", label)).toList.map
      fun entry => entry.1.toList).Nodup := by
    cases rule.label <;> simp
  exact Event.Adds.text (by decide) hn hd h

/-- The parts of rules in a row add their elements. -/
theorem adds_flatMap_events {rules : List RuleDescription} (h : ∀ rule ∈ rules, rule.Plain)
    (maxDepth : Nat) :
    Event.Adds maxDepth true (rules.flatMap events) (if rules.isEmpty then 0 else 1)
      (fun elements => elements = rules.map element) := by
  induction rules with
  | nil => exact Event.Adds.nil
  | cons rule more ih =>
    have hfirst := adds_events (h rule List.mem_cons_self) maxDepth
    have hmore := ih (fun other ho => h other (List.mem_cons_of_mem _ ho))
    have hboth := hfirst.append hmore (fun elements => elements = (rule :: more).map element)
      (fun a b ha hb => by rw [ha, hb]; rfl)
    have hheight : max 1 (if more.isEmpty then 0 else 1) = 1 := by split <;> rfl
    rw [hheight] at hboth
    exact hboth

end RuleDescription

namespace RuleSetDescription

/-- What an element with conditions says. -/
def criteriaItems (combinator : Combinator) (rules : List RuleDescription) : List OutlineItem :=
  .join combinator :: rules.map RuleDescription.item

theorem combinator_ofText?_text (combinator : Combinator) :
    Combinator.ofText? combinator.text = some combinator := by
  cases combinator <;> decide

/-- An element with conditions says how they are joined and which they are. -/
theorem ofElement_criteria (combinator : Combinator) (rules : List RuleDescription)
    (text : String) :
    Outline.ofElement ⟨Outline.criteriaTag, [("op", combinator.text)], text,
      rules.map RuleDescription.element⟩ = criteriaItems combinator rules := by
  have hflow : Text.alike Outline.criteriaTag NodeKind.flow.tag = false := by decide
  have hvalidate : Text.alike Outline.criteriaTag NodeKind.validate.tag = false := by decide
  have hcriteria : Text.alike Outline.criteriaTag Outline.criteriaTag = true := by decide
  have hop : Text.alike "op" "op" = true := by decide
  have hrules : (rules.map RuleDescription.element).filter
      (fun child => child.hasTag Outline.ruleTag) = rules.map RuleDescription.element := by
    rw [List.filter_eq_self]
    intro child hc
    obtain ⟨rule, -, rfl⟩ := List.mem_map.mp hc
    exact rule.element_says.1
  have hitems : (rules.map RuleDescription.element).map Outline.rule =
      rules.map RuleDescription.item := by
    rw [List.map_map]
    exact List.map_congr_left fun rule _ => rule.element_says.2
  simp only [Outline.ofElement, Element.hasTag, hflow, hvalidate, hcriteria, Bool.false_eq_true,
    if_false, if_true, Outline.criteria]
  simp only [Element.hasTag] at hrules
  rw [hrules, hitems]
  simp [Element.attribute?, hop, combinator_ofText?_text, criteriaItems]

/-- The parts of an element with conditions say how they are joined and which they are. -/
theorem adds_criteriaEvents (combinator : Combinator) {rules : List RuleDescription}
    (h : ∀ rule ∈ rules, rule.Plain) (maxDepth : Nat) :
    Event.Adds maxDepth true (criteriaEvents combinator rules) (if rules.isEmpty then 0 else 2)
      (fun elements => ofElements elements = criteriaItems combinator rules) := by
  have hn : ∀ entry ∈ [("op", combinator.text)], IsName entry.1 := by
    intro entry he
    rw [List.mem_singleton.mp he]
    exact (by decide : IsName "op")
  have hd : ([("op", combinator.text)].map fun entry => entry.1.toList).Nodup := by simp
  unfold criteriaEvents
  cases rules with
  | nil =>
    refine (Event.Adds.empty (by decide) hn hd).weaken fun elements he => ?_
    rw [he, Outline.ofElements, Outline.ofElements, List.append_nil]
    exact ofElement_criteria combinator [] ""
  | cons rule more =>
    refine ((RuleDescription.adds_flatMap_events h maxDepth).element (by decide) hn hd).weaken
      fun elements he => ?_
    obtain ⟨text, children, hc, he⟩ := he
    rw [he, hc, Outline.ofElements, Outline.ofElements, List.append_nil]
    exact ofElement_criteria combinator (rule :: more) text

/-- What the message and name of a failure say. -/
def Head.failureItems (head : Head) : List OutlineItem :=
  if head.kind = .validate then
    (head.failureMessage.map fun text => OutlineItem.failureMessage (Text.trimmed text)).toList ++
      (head.customId.map fun text => OutlineItem.customId (Text.trimmed text)).toList
  else []

/-- The message or the name of a failure is written. -/
def Head.namesFailure (head : Head) : Bool :=
  head.kind == .validate && (head.failureMessage.isSome || head.customId.isSome)

/-- A text in its written form is read back without the blanks around it. -/
theorem resolvedText_escape (name : String) (text : String) :
    Element.resolvedText ⟨name, [], String.ofList (Text.escape text.toList), []⟩ =
      Text.trimmed text := by
  have hr : Element.rawText ⟨name, [], String.ofList (Text.escape text.toList), []⟩ =
      String.ofList (Text.escape (Text.trim text.toList)) := by
    simp [Element.rawText, Text.trimmed, Text.trim_escape]
  rw [Element.resolvedText, hr, String.toList_ofList, Text.unescape_escape]
  rfl

/-- The parts of an element with a text add the element with the text in its written form. -/
theorem adds_textEvents {tag : String} (ht : IsName tag) (text : String) (maxDepth : Nat) :
    Event.Adds maxDepth true (textEvents tag text) 1
      (fun elements => elements = [⟨tag, [], String.ofList (Text.escape text.toList), []⟩]) := by
  refine Event.Adds.text ht (fun _ he => absurd he List.not_mem_nil) List.nodup_nil ?_
  rw [String.toList_ofList]
  exact Text.not_mem_escape (by decide)

/-- The element of a message says the message. -/
theorem ofElement_failureMessage (text : String) :
    Outline.ofElement ⟨Outline.failureMessageTag, [], String.ofList (Text.escape text.toList), []⟩ =
      [.failureMessage (Text.trimmed text)] := by
  have hflow : Text.alike Outline.failureMessageTag NodeKind.flow.tag = false := by decide
  have hvalidate : Text.alike Outline.failureMessageTag NodeKind.validate.tag = false := by decide
  have hcriteria : Text.alike Outline.failureMessageTag Outline.criteriaTag = false := by decide
  have hrule : Text.alike Outline.failureMessageTag Outline.ruleTag = false := by decide
  have hself : Text.alike Outline.failureMessageTag Outline.failureMessageTag = true := by decide
  simp only [Outline.ofElement, Element.hasTag, hflow, hvalidate, hcriteria, hrule, hself,
    Bool.false_eq_true, if_false, if_true]
  rw [resolvedText_escape]

/-- The element of the name of a failure says the name. -/
theorem ofElement_customId (text : String) :
    Outline.ofElement ⟨Outline.customIdTag, [], String.ofList (Text.escape text.toList), []⟩ =
      [.customId (Text.trimmed text)] := by
  have hflow : Text.alike Outline.customIdTag NodeKind.flow.tag = false := by decide
  have hvalidate : Text.alike Outline.customIdTag NodeKind.validate.tag = false := by decide
  have hcriteria : Text.alike Outline.customIdTag Outline.criteriaTag = false := by decide
  have hrule : Text.alike Outline.customIdTag Outline.ruleTag = false := by decide
  have hmessage : Text.alike Outline.customIdTag Outline.failureMessageTag = false := by decide
  have hself : Text.alike Outline.customIdTag Outline.customIdTag = true := by decide
  simp only [Outline.ofElement, Element.hasTag, hflow, hvalidate, hcriteria, hrule, hmessage, hself,
    Bool.false_eq_true, if_false, if_true]
  rw [resolvedText_escape]

/-- The parts of a text that may be missing say what the text says. -/
theorem adds_option {tag : String} (ht : IsName tag) {item : String → OutlineItem}
    (hi : ∀ text, Outline.ofElement ⟨tag, [], String.ofList (Text.escape text.toList), []⟩ =
      [item (Text.trimmed text)]) (text : Option String) (maxDepth : Nat) :
    Event.Adds maxDepth true ((text.map (textEvents tag)).getD []) (if text.isSome then 1 else 0)
      (fun elements => ofElements elements =
        (text.map fun text => item (Text.trimmed text)).toList) := by
  cases text with
  | none =>
    refine Event.Adds.nil.weaken fun elements he => ?_
    rw [he]
    rfl
  | some text =>
    refine (adds_textEvents ht text maxDepth).weaken fun elements he => ?_
    rw [he, Outline.ofElements, Outline.ofElements, hi]
    rfl

/-- The parts of the message and name of a failure say what they are. -/
theorem adds_failureEvents (head : Head) (maxDepth : Nat) :
    Event.Adds maxDepth true head.failureEvents (if head.namesFailure then 1 else 0)
      (fun elements => ofElements elements = head.failureItems) := by
  unfold Head.failureEvents Head.failureItems Head.namesFailure
  by_cases hk : head.kind = .validate
  · have hmessage := adds_option (by decide) ofElement_failureMessage head.failureMessage maxDepth
    have hname := adds_option (by decide) ofElement_customId head.customId maxDepth
    have hboth := hmessage.append hname (fun elements => ofElements elements =
      (head.failureMessage.map fun text => OutlineItem.failureMessage (Text.trimmed text)).toList ++
        (head.customId.map fun text => OutlineItem.customId (Text.trimmed text)).toList)
      (fun a b ha hb => by rw [Outline.ofElements_append, ha, hb])
    rw [if_pos hk, if_pos hk, hk]
    have hheight : max (if head.failureMessage.isSome then 1 else 0)
        (if head.customId.isSome then 1 else 0) =
        if (NodeKind.validate == NodeKind.validate &&
          (head.failureMessage.isSome || head.customId.isSome)) then 1 else 0 := by
      cases head.failureMessage <;> cases head.customId <;> rfl
    rw [←hheight]
    exact hboth
  · have hb : (head.kind == NodeKind.validate) = false := beq_false_of_ne hk
    rw [if_neg hk, if_neg hk, hb]
    refine Event.Adds.nil.weaken fun elements he => ?_
    rw [he]
    rfl

theorem Head.mem_sortedRules {head : Head} {rule : RuleDescription} :
    rule ∈ head.sortedRules ↔ rule ∈ head.evaluative ++ head.assertive :=
  List.mem_mergeSort

theorem idLe_trans (a b c : RuleDescription) (hab : decide (a.id ≤ b.id) = true)
    (hbc : decide (b.id ≤ c.id) = true) : decide (a.id ≤ c.id) = true :=
  decide_eq_true (UInt32.le_trans (of_decide_eq_true hab) (of_decide_eq_true hbc))

theorem idLe_total (a b : RuleDescription) :
    (decide (a.id ≤ b.id) || decide (b.id ≤ a.id)) = true := by
  rw [Bool.or_eq_true, decide_eq_true_eq, decide_eq_true_eq]
  exact UInt32.le_total a.id b.id

/-- The number of elements that are nested in the element of a rule set besides other rule sets. -/
def Head.nesting (head : Head) : Nat :=
  if !(head.evaluative ++ head.assertive).isEmpty then 2 else if head.namesFailure then 1 else 0

mutual
/-- The number of elements that are nested where a rule set is written, its own element included. -/
def nesting : RuleSetDescription → Nat
  | ⟨head, children⟩ => max head.nesting (nestingAll children) + 1

/-- The number of elements that are nested where rule sets are written. -/
def nestingAll : List RuleSetDescription → Nat
  | [] => 0
  | child :: more => max child.nesting (nestingAll more)
end

mutual
/-- What the element of a rule set says. -/
def items : RuleSetDescription → List OutlineItem
  | ⟨head, children⟩ =>
    let inside :=
      head.failureItems ++ bodyItems head.combinator head.sortedRules false children
    match head.kind with
    | .root => inside
    | .flow => [.node .flow head.description none inside]
    | .validate => [.node .validate head.description head.severity inside]

/-- What rules and children say, in the order in which they are written. -/
def bodyItems (combinator : Combinator) (pending : List RuleDescription) (written : Bool) :
    List RuleSetDescription → List OutlineItem
  | [] =>
    if !pending.isEmpty || (!written && combinator != .and) then criteriaItems combinator pending
    else []
  | child :: more =>
    let (front, rest) := splitRules child.firstRuleId pending
    (if front.isEmpty then [] else criteriaItems combinator front) ++
      (child.items ++ bodyItems combinator rest (written || !front.isEmpty) more)
end

mutual
/-- No text of a rule begins a tag. -/
def Plain : RuleSetDescription → Prop
  | ⟨head, children⟩ =>
    (∀ rule ∈ head.evaluative ++ head.assertive, rule.Plain) ∧ PlainAll children

/-- No text of a rule in a list of rule sets begins a tag. -/
def PlainAll : List RuleSetDescription → Prop
  | [] => True
  | child :: more => child.Plain ∧ PlainAll more
end

/-- The rules in front of a child and the rules behind it are all the rules. -/
theorem splitRules_append (first : Option UInt32) (pending : List RuleDescription) :
    (splitRules first pending).1 ++ (splitRules first pending).2 = pending := by
  cases first with
  | none => rfl
  | some first => rw [splitRules, List.span_eq_takeWhile_dropWhile, List.takeWhile_append_dropWhile]

/-- Where no conditions are written behind the last child, no rules are left. -/
theorem eq_nil_of_not_written {combinator : Combinator} {pending : List RuleDescription}
    {written : Bool} (h : ¬ (!pending.isEmpty || (!written && combinator != .and)) = true) :
    pending = [] := by
  cases pending with
  | nil => rfl
  | cons rule more => exact absurd rfl h

/-- The attributes of a rule set have names as keys, each once. -/
theorem attributes_names (head : Head) :
    (∀ entry ∈ head.attributes, IsName entry.1) ∧
      (head.attributes.map fun entry => entry.1.toList).Nodup := by
  have hdescription : IsName "description" := by decide
  have herr : IsName "err" := by decide
  unfold Head.attributes
  split_ifs
  · cases head.severity with
    | none => exact ⟨by simp [hdescription], by simp⟩
    | some severity => exact ⟨by simp [hdescription, herr], by simp⟩
  · cases head.severity with
    | none => exact ⟨by simp, by simp⟩
    | some severity => exact ⟨by simp [herr], by simp⟩

theorem severity_ofText?_text (severity : Severity) :
    Severity.ofText? severity.text = some severity := by
  cases severity <;> decide

/-- The description and the severity of a rule set are read back from its attributes. -/
theorem attributes_read {head : Head} (hk : head.kind ≠ .root) (name text : String)
    (children : List Element) :
    (Element.attribute? ⟨name, head.attributes, text, children⟩ "description").getD "" =
        head.description ∧
      Outline.severity? ⟨name, head.attributes, text, children⟩ = head.severity := by
  have hd : Text.alike "description" "description" = true := by decide
  have he : Text.alike "err" "err" = true := by decide
  have hde : Text.alike "description" "err" = false := by decide
  have hed : Text.alike "err" "description" = false := by decide
  by_cases hempty : head.description = ""
  · cases hs : head.severity with
    | none => simp [Head.attributes, hempty, hs, Element.attribute?, Outline.severity?]
    | some severity =>
      simp [Head.attributes, hempty, hs, Element.attribute?, Outline.severity?, he, hed,
        severity_ofText?_text]
  · cases hs : head.severity with
    | none => simp [Head.attributes, hempty, hk, hs, Element.attribute?, Outline.severity?, hd, hde]
    | some severity =>
      simp [Head.attributes, hempty, hk, hs, Element.attribute?, Outline.severity?, hd, he, hde,
        severity_ofText?_text]

/-- The element of a rule set says what its children say, and of which rule set if it is not the
root. -/
theorem ofElement_ruleSet (head : Head) (text : String) (children : List Element)
    {inside : List OutlineItem} (hc : ofElements children = inside) :
    Outline.ofElement ⟨head.kind.tag, head.attributes, text, children⟩ =
      match head.kind with
      | .root => inside
      | .flow => [.node .flow head.description none inside]
      | .validate => [.node .validate head.description head.severity inside] := by
  cases hk : head.kind with
  | root =>
    have h0 : Text.alike NodeKind.root.tag NodeKind.flow.tag = false := by decide
    have h1 : Text.alike NodeKind.root.tag NodeKind.validate.tag = false := by decide
    have h2 : Text.alike NodeKind.root.tag Outline.criteriaTag = false := by decide
    have h3 : Text.alike NodeKind.root.tag Outline.ruleTag = false := by decide
    have h4 : Text.alike NodeKind.root.tag Outline.failureMessageTag = false := by decide
    have h5 : Text.alike NodeKind.root.tag Outline.customIdTag = false := by decide
    simp only [Outline.ofElement, Element.hasTag, h0, h1, h2, h3, h4, h5, Bool.false_eq_true,
      if_false]
    exact hc
  | flow =>
    have h0 : Text.alike NodeKind.flow.tag NodeKind.flow.tag = true := by decide
    have hr := (attributes_read (by rw [hk]; decide) NodeKind.flow.tag text children).1
    simp only [Outline.ofElement, Element.hasTag, h0, if_true]
    rw [hr, hc]
  | validate =>
    have h0 : Text.alike NodeKind.validate.tag NodeKind.flow.tag = false := by decide
    have h1 : Text.alike NodeKind.validate.tag NodeKind.validate.tag = true := by decide
    have hr := attributes_read (by rw [hk]; decide) NodeKind.validate.tag text children
    simp only [Outline.ofElement, Element.hasTag, h0, h1, Bool.false_eq_true, if_false, if_true]
    rw [hr.1, hr.2, hc]

theorem isName_tag (kind : NodeKind) : IsName kind.tag := by
  cases kind <;> decide

/-- The parts of rules in front of a child say what they are; without rules there are no parts. -/
theorem adds_front (combinator : Combinator) {front : List RuleDescription}
    (h : ∀ rule ∈ front, rule.Plain) (maxDepth : Nat) :
    Event.Adds maxDepth true (if front.isEmpty then [] else criteriaEvents combinator front)
      (if front.isEmpty then 0 else 2)
      (fun elements => ofElements elements =
        if front.isEmpty then [] else criteriaItems combinator front) := by
  have hcriteria := adds_criteriaEvents combinator h maxDepth
  by_cases he : front.isEmpty = true
  · simp only [if_pos he]
    refine Event.Adds.nil.weaken fun elements hn => ?_
    rw [hn, Outline.ofElements]
  · simp only [if_neg he] at hcriteria ⊢
    exact hcriteria

/-- The parts of rules behind the last child say what they are. -/
theorem adds_lastEvents (combinator : Combinator) {pending : List RuleDescription}
    (hp : ∀ rule ∈ pending, rule.Plain) (written : Bool) (maxDepth : Nat) :
    Event.Adds maxDepth true (bodyEvents combinator pending written [])
      (if pending.isEmpty then 0 else 2)
      (fun elements => ofElements elements = bodyItems combinator pending written []) := by
  rw [bodyEvents, bodyItems]
  by_cases hw : (!pending.isEmpty || (!written && combinator != .and)) = true
  · rw [if_pos hw, if_pos hw]
    exact adds_criteriaEvents combinator hp maxDepth
  · rw [if_neg hw, if_neg hw, eq_nil_of_not_written hw]
    refine Event.Adds.nil.weaken fun elements he => ?_
    rw [he, Outline.ofElements]

mutual
/-- The parts of a rule set add one element that says what the rule set says. -/
theorem adds_events (maxDepth : Nat) : (set : RuleSetDescription) → set.Plain → {breaks : Bool} →
    Event.Adds maxDepth breaks set.events set.nesting
      (fun elements => ∃ element, elements = [element] ∧ Outline.ofElement element = set.items)
  | ⟨head, children⟩, h, breaks => by
    rw [Plain] at h
    have hpending : ∀ rule ∈ head.sortedRules, rule.Plain := fun rule hr =>
      h.1 rule (Head.mem_sortedRules.mp hr)
    have hbody := adds_bodyEvents maxDepth head.combinator children h.2 hpending false
    have hinside := (adds_failureEvents head maxDepth).append hbody
      (fun elements => ofElements elements = head.failureItems ++
        bodyItems head.combinator head.sortedRules false children)
      (fun a b ha hb => by rw [Outline.ofElements_append, ha, hb])
    have hnames := attributes_names head
    have hnode : Event.Adds maxDepth breaks _ _ _ :=
      hinside.element (isName_tag head.kind) hnames.1 hnames.2
    have hheight : max (if head.namesFailure then 1 else 0)
        (max (if head.sortedRules.isEmpty then 0 else 2) (nestingAll children)) =
        max head.nesting (nestingAll children) := by
      have hempty : head.sortedRules.isEmpty = (head.evaluative ++ head.assertive).isEmpty :=
        (List.mergeSort_perm _ _).isEmpty_eq
      rw [Head.nesting, hempty]
      cases (head.evaluative ++ head.assertive).isEmpty <;> cases head.namesFailure <;>
        simp only [Bool.not_true, Bool.not_false, Bool.false_eq_true, if_true, if_false] <;> omega
    rw [hheight] at hnode
    rw [events, nesting, items]
    refine hnode.weaken fun elements he => ?_
    obtain ⟨text, inside, hin, he⟩ := he
    exact ⟨_, he, ofElement_ruleSet head text inside hin⟩

/-- The parts of rules and children say what they say. -/
theorem adds_bodyEvents (maxDepth : Nat) (combinator : Combinator) :
    (children : List RuleSetDescription) → PlainAll children →
    {pending : List RuleDescription} → (∀ rule ∈ pending, rule.Plain) → (written : Bool) →
    Event.Adds maxDepth true (bodyEvents combinator pending written children)
      (max (if pending.isEmpty then 0 else 2) (nestingAll children))
      (fun elements => ofElements elements = bodyItems combinator pending written children)
  | [], _, pending, hp, written => by
    rw [nestingAll, Nat.max_zero]
    exact adds_lastEvents combinator hp written maxDepth
  | child :: more, h, pending, hp, written => by
    rw [PlainAll] at h
    rw [bodyEvents, bodyItems, nestingAll]
    have hs := splitRules_append child.firstRuleId pending
    generalize splitRules child.firstRuleId pending = parts at hs ⊢
    obtain ⟨front, rest⟩ := parts
    dsimp only at hs ⊢
    subst hs
    have hfront := adds_front combinator
      (fun rule hr => hp rule (List.mem_append_left rest hr)) maxDepth
    have hchild : Event.Adds maxDepth true child.events child.nesting
        (fun elements => ofElements elements = child.items) := by
      refine (adds_events maxDepth child h.1).weaken fun elements he => ?_
      obtain ⟨element, he, hi⟩ := he
      rw [he, Outline.ofElements, Outline.ofElements, List.append_nil, hi]
    have hrest := adds_bodyEvents maxDepth combinator more h.2
      (fun rule hr => hp rule (List.mem_append_right front hr)) (written || !front.isEmpty)
    have hboth := hfront.append (hchild.append hrest
      (fun elements => ofElements elements = child.items ++
        bodyItems combinator rest (written || !front.isEmpty) more)
      (fun a b ha hb => by rw [Outline.ofElements_append, ha, hb]))
      (fun elements => ofElements elements =
        (if front.isEmpty then [] else criteriaItems combinator front) ++ (child.items ++
          bodyItems combinator rest (written || !front.isEmpty) more))
      (fun a b ha hb => by rw [Outline.ofElements_append, ha, hb])
    have hheight : max (if front.isEmpty then 0 else 2) (max child.nesting
        (max (if rest.isEmpty then 0 else 2) (nestingAll more))) =
        max (if (front ++ rest).isEmpty then 0 else 2) (max child.nesting (nestingAll more)) := by
      cases front <;> cases rest <;>
        simp only [List.isEmpty_nil, List.isEmpty_cons, List.nil_append, List.cons_append,
          Bool.false_eq_true, if_true, if_false] <;> omega
    rw [hheight] at hboth
    exact hboth
end

/-- A rule set is written with its start tag in front. -/
theorem exists_events_cons (set : RuleSetDescription) :
    ∃ name attributes more, set.events = .start name attributes :: more := by
  obtain ⟨head, children⟩ := set
  rw [events]
  exact ⟨_, _, _, rfl⟩

/-- The written form of a rule set begins with a bracket. -/
theorem exists_render_cons (set : RuleSetDescription) :
    ∃ rest, Event.render 0 false set.events = '<' :: rest := by
  obtain ⟨name, attributes, more, he⟩ := set.exists_events_cons
  rw [he]
  exact ⟨_, rfl⟩

/-- Reading a written rule set as a document is reading its written form with no element open. -/
theorem readDocument_document (maxDepth : Nat) (set : RuleSetDescription) :
    Markup.readDocument maxDepth (Event.document set.events) =
      (Markup.OpenElements.readFrom maxDepth .document 0 (Event.render 0 false set.events) >>=
        Markup.OpenElements.finish) := by
  obtain ⟨rest, hr⟩ := set.exists_render_cons
  have hfirst : (Event.document set.events).toList = '<' :: rest := by
    rw [Event.document, String.toList_ofList, hr]
  rw [Markup.readDocument_eq_readFrom maxDepth hfirst, Event.document, String.toList_ofList]

/-- A written rule set is a document that says what the rule set says, if the limit allows it. -/
theorem readDocument_eq_ok {maxDepth : Nat} {set : RuleSetDescription} (h : set.Plain)
    (hd : set.nesting ≤ maxDepth) :
    ∃ document, Markup.readDocument maxDepth (Event.document set.events) = .ok document ∧
      document.children ≠ [] ∧ ofElements document.children = set.items := by
  have hadds : Event.Adds maxDepth false set.events set.nesting _ := adds_events maxDepth set h
  obtain ⟨text, elements, after, ⟨element, he, hi⟩, hread⟩ :=
    (hadds Markup.OpenElements.document.inner [] 0 0 [] (Nat.zero_le _)).1 (by simpa using hd)
  rw [List.append_nil, Event.render, Markup.OpenElements.readFrom_nil] at hread
  refine ⟨⟨"#document", [], String.ofList ([] ++ text), [element]⟩, ?_, List.cons_ne_nil _ _, ?_⟩
  · rw [readDocument_document]
    refine (congrArg (· >>= Markup.OpenElements.finish) hread).trans ?_
    rw [he]
    rfl
  · rw [Outline.ofElements, Outline.ofElements, List.append_nil, hi]

/-- A written rule set whose elements are nested deeper than the limit is refused for that. -/
theorem readDocument_eq_tooDeep {maxDepth : Nat} {set : RuleSetDescription} (h : set.Plain)
    (hd : maxDepth < set.nesting) :
    Markup.readDocument maxDepth (Event.document set.events) = .error (.tooDeep maxDepth) := by
  have hadds : Event.Adds maxDepth false set.events set.nesting _ := adds_events maxDepth set h
  have hread := (hadds Markup.OpenElements.document.inner [] 0 0 [] (Nat.zero_le _)).2
    (by simpa using hd)
  rw [List.append_nil] at hread
  rw [readDocument_document]
  exact congrArg (· >>= Markup.OpenElements.finish) hread

end RuleSetDescription

end Rulebook
