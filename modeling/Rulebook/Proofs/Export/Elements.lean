import Rulebook.Proofs.Export.Outline

/-!
# What written rule sets hold

The parts of a written rule set are one element, and its start tags and end tags belong together.
In this element stand the rules of the rule set, each once, in the order of their numbers, and an
element for each child, in the order of the children. This holds for every description, also where
numbers are missing, repeated or out of order: a child may part the rules anywhere, but no rule is
lost or written twice. `Interleaved` is the invariant behind this.
-/

namespace Rulebook

open Markup (Element Event OpenElement OpenElements)

namespace Markup

/-- Takes one part of a document: tags open, add and close elements, and a text is added to the
innermost one. An end tag has to have the name of the innermost element. -/
def OpenElements.take? (elements : OpenElements) : Event → Option OpenElements
  | .start name attributes =>
    some ⟨{ name := name.toList, attributes }, elements.inner :: elements.outer⟩
  | .empty name attributes => some (elements.addChild { name, attributes })
  | .text raw => some (elements.addText raw.toList)
  | .stop name =>
    match elements.outer with
    | [] => none
    | parent :: more =>
      if elements.inner.name = name.toList then
        some (OpenElements.addChild ⟨parent, more⟩ elements.inner.close)
      else none

/-- The elements and texts that the parts of a document make, if each start tag has its end tag. -/
def Event.build? (events : List Event) : Option Element :=
  (events.foldlM OpenElements.take? OpenElements.document).bind fun elements =>
    if elements.outer.isEmpty then some elements.inner.close else none

/-- Elements that are added to the innermost element in order. -/
def OpenElements.addChildren (elements : OpenElements) (children : List Element) : OpenElements :=
  children.foldl OpenElements.addChild elements

/-- Parts that add elements to the innermost element, whichever is open, and change nothing else. -/
def Event.Builds (events : List Event) (children : List Element) : Prop :=
  ∀ elements : OpenElements,
    events.foldlM OpenElements.take? elements = some (elements.addChildren children)

namespace Event.Builds

theorem nil : Builds [] [] := fun _ => rfl

/-- Parts in a row add their elements in a row. -/
theorem append {first second : List Event} {children children' : List Element}
    (h : Builds first children) (h' : Builds second children') :
    Builds (first ++ second) (children ++ children') := by
  intro elements
  have hboth : elements.addChildren (children ++ children') =
      (elements.addChildren children).addChildren children' := List.foldl_append
  rw [List.foldlM_append, h elements, hboth]
  exact h' _

/-- Adding elements in order puts them in front of the reversed list of children. -/
theorem addChildren_eq (elements : OpenElements) (children : List Element) :
    elements.addChildren children =
      { elements with
        inner :=
          { elements.inner with children := children.reverse ++ elements.inner.children } } := by
  induction children generalizing elements with
  | nil => rfl
  | cons child more ih =>
    have hstep : elements.addChildren (child :: more) =
        (elements.addChild child).addChildren more := rfl
    rw [hstep, ih, OpenElements.addChild, List.reverse_cons, List.append_assoc]
    rfl

/-- A pair of tags around parts adds one element with what they add as its children. -/
theorem element {events : List Event} {children : List Element} (h : Builds events children)
    (name : String) (attributes : List (String × String)) :
    Builds (.start name attributes :: (events ++ [.stop name]))
      [{ name, attributes, children }] := by
  intro elements
  have hinside := h ⟨{ name := name.toList, attributes }, elements.inner :: elements.outer⟩
  rw [addChildren_eq] at hinside
  have hopen : elements.take? (.start name attributes) =
      some ⟨{ name := name.toList, attributes }, elements.inner :: elements.outer⟩ := rfl
  rw [List.foldlM_cons, hopen, Option.bind_eq_bind, Option.bind_some, List.foldlM_append, hinside]
  simp [OpenElements.take?, OpenElement.close, OpenElements.addChildren]

theorem text (name : String) (attributes : List (String × String)) (raw : String) :
    Builds [.start name attributes, .text raw, .stop name] [{ name, attributes, text := raw }] := by
  intro elements
  simp [OpenElements.take?, OpenElements.addText, OpenElement.close, OpenElements.addChildren]

theorem empty (name : String) (attributes : List (String × String)) :
    Builds [.empty name attributes] [{ name, attributes }] := fun _ => rfl

theorem build?_eq {events : List Event} {child : Element} (h : Builds events [child]) :
    Event.build? events = some { name := "#document", children := [child] } := by
  rw [Event.build?, h]
  rfl

end Event.Builds

end Markup

namespace RuleSetDescription

/-- The element of conditions. -/
def criteriaElement (combinator : Combinator) (rules : List RuleDescription) : Element where
  name := Outline.criteriaTag
  attributes := [("op", combinator.text)]
  children := rules.map RuleDescription.element

/-- The element of a text. -/
def textElement (tag text : String) : Element where
  name := tag
  text := String.ofList (Text.escape text.toList)

/-- The elements of the message and the name of a failure. -/
def Head.failureElements (head : Head) : List Element :=
  if head.kind = .validate then
    (head.failureMessage.map (textElement Outline.failureMessageTag)).toList ++
      (head.customId.map (textElement Outline.customIdTag)).toList
  else []

mutual
/-- The element of a rule set. -/
def element : RuleSetDescription → Element
  | ⟨head, children⟩ =>
    { name := head.kind.tag
      attributes := head.attributes
      children :=
        head.failureElements ++ bodyElements head.combinator head.sortedRules false children }

/-- The elements of rules and children. `pending` are the rules that are still to come, and
`written` tells that conditions came before. -/
def bodyElements (combinator : Combinator) (pending : List RuleDescription) (written : Bool) :
    List RuleSetDescription → List Element
  | [] =>
    if !pending.isEmpty || (!written && combinator != .and) then
      [criteriaElement combinator pending]
    else []
  | child :: more =>
    let (front, rest) := splitRules child.firstRuleId pending
    (if front.isEmpty then [] else [criteriaElement combinator front]) ++
      (child.element :: bodyElements combinator rest (written || !front.isEmpty) more)
end

/-- The parts of rules in a row are their elements. -/
theorem builds_rules (rules : List RuleDescription) :
    Event.Builds (rules.flatMap RuleDescription.events) (rules.map RuleDescription.element) := by
  induction rules with
  | nil => exact Event.Builds.nil
  | cons rule more ih =>
    have hrule : Event.Builds rule.events [rule.element] := Event.Builds.text _ _ _
    exact hrule.append ih

/-- The parts of conditions are their element. -/
theorem builds_criteriaEvents (combinator : Combinator) (rules : List RuleDescription) :
    Event.Builds (criteriaEvents combinator rules) [criteriaElement combinator rules] := by
  unfold criteriaEvents
  cases rules with
  | nil => exact Event.Builds.empty _ _
  | cons rule more => exact (builds_rules (rule :: more)).element _ _

/-- The parts of the message and the name of a failure are their elements. -/
theorem builds_failureEvents (head : Head) :
    Event.Builds head.failureEvents head.failureElements := by
  have htext : ∀ (tag : String) (text : Option String),
      Event.Builds ((text.map (textEvents tag)).getD []) (text.map (textElement tag)).toList := by
    intro tag text
    cases text with
    | none => exact Event.Builds.nil
    | some text => exact Event.Builds.text _ _ _
  unfold Head.failureEvents Head.failureElements
  split
  · exact (htext _ _).append (htext _ _)
  · exact Event.Builds.nil

mutual
/-- The parts of a rule set are its element. -/
theorem builds_events : (set : RuleSetDescription) → Event.Builds set.events [set.element]
  | ⟨head, children⟩ => by
    rw [events, element]
    exact ((builds_failureEvents head).append
      (builds_bodyEvents head.combinator children head.sortedRules false)).element _ _

/-- The parts of rules and children are their elements. -/
theorem builds_bodyEvents (combinator : Combinator) : (children : List RuleSetDescription) →
    (pending : List RuleDescription) → (written : Bool) →
    Event.Builds (bodyEvents combinator pending written children)
      (bodyElements combinator pending written children)
  | [], pending, written => by
    rw [bodyEvents, bodyElements]
    split
    · exact builds_criteriaEvents combinator pending
    · exact Event.Builds.nil
  | child :: more, pending, written => by
    rw [bodyEvents, bodyElements]
    generalize splitRules child.firstRuleId pending = parts
    obtain ⟨front, rest⟩ := parts
    have hfront : Event.Builds (if front.isEmpty then [] else criteriaEvents combinator front)
        (if front.isEmpty then [] else [criteriaElement combinator front]) := by
      split
      · exact Event.Builds.nil
      · exact builds_criteriaEvents combinator front
    exact hfront.append ((builds_events child).append
      (builds_bodyEvents combinator more rest (written || !front.isEmpty)))
end

/-- Elements that are groups of the rules, in order, and the children, in order, in turn. -/
inductive Interleaved (combinator : Combinator) :
    List RuleDescription → List RuleSetDescription → List Element → Prop where
  /-- Nothing is left. -/
  | done : Interleaved combinator [] [] []
  /-- A group of rules comes next. -/
  | rules (front : List RuleDescription) {rest : List RuleDescription}
    {children : List RuleSetDescription} {elements : List Element}
    (more : Interleaved combinator rest children elements) :
    Interleaved combinator (front ++ rest) children
      (criteriaElement combinator front :: elements)
  /-- A child comes next. -/
  | child (child : RuleSetDescription) {rules : List RuleDescription}
    {children : List RuleSetDescription} {elements : List Element}
    (more : Interleaved combinator rules children elements) :
    Interleaved combinator rules (child :: children) (child.element :: elements)

/-- The elements of rules and children are groups of the rules and the children in turn, wherever
the children part the rules. -/
theorem interleaved_bodyElements (combinator : Combinator) (children : List RuleSetDescription)
    (pending : List RuleDescription) (written : Bool) :
    Interleaved combinator pending children
      (bodyElements combinator pending written children) := by
  induction children generalizing pending written with
  | nil =>
    rw [bodyElements]
    by_cases hw : (!pending.isEmpty || (!written && combinator != .and)) = true
    · rw [if_pos hw]
      have hlast : Interleaved combinator (pending ++ []) [] [criteriaElement combinator pending] :=
        .rules pending .done
      rwa [List.append_nil] at hlast
    · rw [if_neg hw, eq_nil_of_not_written hw]
      exact .done
  | cons child more ih =>
    rw [bodyElements]
    have hs := splitRules_append child.firstRuleId pending
    generalize splitRules child.firstRuleId pending = parts at hs ⊢
    obtain ⟨front, rest⟩ := parts
    dsimp only at hs ⊢
    have hmore := Interleaved.child child (ih rest (written || !front.isEmpty))
    rw [← hs]
    cases front with
    | nil => exact hmore
    | cons rule others => exact .rules (rule :: others) hmore

/-- The element holds conditions. -/
def isCriteria (element : Element) : Bool := element.name == Outline.criteriaTag

/-- The element is that of a rule set. -/
def isRuleSet (element : Element) : Bool := NodeKind.all.any fun kind => element.name == kind.tag

/-- The rules of a rule set, the conditions first, brought into the order of their numbers. -/
structure Head.InOrder (head : Head) (rules : List RuleDescription) : Prop where
  /-- Each rule is there once. -/
  perm : rules.Perm (head.evaluative ++ head.assertive)
  /-- The numbers ascend. -/
  ascending : rules.Pairwise fun earlier later => earlier.id ≤ later.id
  /-- Rules with the same number stay in order. -/
  stable : ∀ id, rules.filter (fun rule => rule.id == id) =
    (head.evaluative ++ head.assertive).filter fun rule => rule.id == id

/-- The element is that of a rule set: what it holds besides the children of the rule set. -/
structure Head.Shown (head : Head) (element : Element) : Prop where
  /-- The tag is that of the kind. -/
  name : element.name = head.kind.tag
  /-- The attributes are the description and the severity. -/
  attributes : element.attributes = head.attributes
  /-- In the conditions that stand in the element itself there is one element for each rule, with
  the name and the text of the rule, in the order of the numbers. -/
  rules : ∃ rules, head.InOrder rules ∧
    (element.children.filter isCriteria).flatMap Element.children =
      rules.map RuleDescription.element
  /-- All conditions say how they are joined. -/
  joined : ∀ child ∈ element.children, isCriteria child = true →
    child.attributes = [("op", head.combinator.text)]
  /-- There are conditions where there are rules, and where one condition is enough. -/
  joins : head.evaluative ++ head.assertive ≠ [] ∨ head.combinator = .or →
    ∃ child ∈ element.children, isCriteria child = true
  /-- Besides conditions and rule sets there are only the message and the name of a failure. -/
  others : element.children.filter (fun child => !isCriteria child && !isRuleSet child) =
    head.failureElements

mutual
/-- The element is that of a rule set: it shows what the rule set holds itself, and the elements of
rule sets that stand in it are those of the children, one for each and in order. -/
def Shows : RuleSetDescription → Element → Prop
  | ⟨head, children⟩, element =>
    head.Shown element ∧ ShowsAll children (element.children.filter isRuleSet)

/-- The elements are those of rule sets, one for each and in order. -/
def ShowsAll : List RuleSetDescription → List Element → Prop
  | [], elements => elements = []
  | child :: more, elements =>
    ∃ first others, elements = first :: others ∧ child.Shows first ∧ ShowsAll more others
end

/-- The rules of a rule set are written in the order of their numbers. -/
theorem Head.inOrder_sortedRules (head : Head) : head.InOrder head.sortedRules := by
  have hperm : head.sortedRules.Perm (head.evaluative ++ head.assertive) :=
    List.mergeSort_perm _ _
  refine ⟨hperm, ?_, fun id => ?_⟩
  · refine (List.pairwise_mergeSort idLe_trans idLe_total _).imp fun hle => ?_
    exact of_decide_eq_true hle
  · have hsame : ((head.evaluative ++ head.assertive).filter fun rule => rule.id == id).Pairwise
        fun a b => decide (a.id ≤ b.id) = true := by
      refine List.pairwise_of_forall_mem_list fun a ha b hb => ?_
      have ha' : a.id = id := beq_iff_eq.mp (List.mem_filter.mp ha).2
      have hb' : b.id = id := beq_iff_eq.mp (List.mem_filter.mp hb).2
      rw [ha', hb']
      exact decide_eq_true (UInt32.le_refl _)
    have hsub := List.sublist_mergeSort idLe_trans idLe_total hsame List.filter_sublist
    have hfilter := hsub.filter fun rule => rule.id == id
    rw [List.filter_filter] at hfilter
    simp only [Bool.and_self] at hfilter
    exact (hfilter.eq_of_length (hperm.filter _).length_eq.symm).symm

theorem criteriaElement_kind (combinator : Combinator) (rules : List RuleDescription) :
    isCriteria (criteriaElement combinator rules) = true ∧
      isRuleSet (criteriaElement combinator rules) = false :=
  ⟨rfl, rfl⟩

/-- The element of a rule set is taken for one. -/
theorem element_kind (set : RuleSetDescription) :
    isCriteria set.element = false ∧ isRuleSet set.element = true := by
  have htag : ∀ kind : NodeKind, (kind.tag == Outline.criteriaTag) = false ∧
      (NodeKind.all.any fun other => kind.tag == other.tag) = true := by
    intro kind
    cases kind <;> decide
  obtain ⟨head, children⟩ := set
  rw [element]
  exact htag head.kind

/-- The elements of the message and the name of a failure are taken for neither. -/
theorem failureElements_kind {head : Head} {child : Element} (h : child ∈ head.failureElements) :
    isCriteria child = false ∧ isRuleSet child = false := by
  have hname : child.name = Outline.failureMessageTag ∨ child.name = Outline.customIdTag := by
    unfold Head.failureElements at h
    split at h
    · rcases List.mem_append.mp h with hm | hm
      · obtain ⟨text, -, rfl⟩ := Option.map_eq_some_iff.mp (Option.mem_toList.mp hm)
        exact .inl rfl
      · obtain ⟨text, -, rfl⟩ := Option.map_eq_some_iff.mp (Option.mem_toList.mp hm)
        exact .inr rfl
    · exact absurd h List.not_mem_nil
  unfold isCriteria isRuleSet
  rcases hname with hname | hname <;> rw [hname] <;> decide

namespace Interleaved

variable {combinator : Combinator} {rules : List RuleDescription}
  {children : List RuleSetDescription} {elements : List Element}

/-- The groups hold the rules in order, each once. -/
theorem criteria (h : Interleaved combinator rules children elements) :
    (elements.filter isCriteria).flatMap Element.children =
      rules.map RuleDescription.element := by
  induction h with
  | done => rfl
  | rules front more ih =>
    rw [List.filter_cons_of_pos (criteriaElement_kind combinator front).1, List.flatMap_cons, ih,
      List.map_append]
    rfl
  | child child more ih =>
    rw [List.filter_cons_of_neg (by rw [child.element_kind.1]; exact Bool.false_ne_true), ih]

/-- The children are there in order, each once. -/
theorem ruleSets (h : Interleaved combinator rules children elements) :
    elements.filter isRuleSet = children.map RuleSetDescription.element := by
  induction h with
  | done => rfl
  | rules front more ih =>
    rw [List.filter_cons_of_neg (by rw [(criteriaElement_kind combinator front).2]; decide), ih]
  | child child more ih =>
    rw [List.filter_cons_of_pos child.element_kind.2, ih, List.map_cons]

/-- All groups say how the conditions are joined. -/
theorem joined (h : Interleaved combinator rules children elements) :
    ∀ element ∈ elements, isCriteria element = true →
      element.attributes = [("op", combinator.text)] := by
  induction h with
  | done => exact fun _ he => absurd he List.not_mem_nil
  | rules front more ih => exact List.forall_mem_cons.mpr ⟨fun _ => rfl, ih⟩
  | child child more ih =>
    refine List.forall_mem_cons.mpr ⟨fun hc => ?_, ih⟩
    rw [child.element_kind.1] at hc
    exact absurd hc Bool.false_ne_true

/-- Groups and children are all that there is. -/
theorem others (h : Interleaved combinator rules children elements) :
    elements.filter (fun element => !isCriteria element && !isRuleSet element) = [] := by
  refine List.filter_eq_nil_iff.mpr fun element he => ?_
  induction h with
  | done => exact absurd he List.not_mem_nil
  | rules front more ih =>
    rcases List.mem_cons.mp he with rfl | he
    · rw [(criteriaElement_kind combinator front).1]
      exact Bool.false_ne_true
    · exact ih he
  | child child more ih =>
    rcases List.mem_cons.mp he with rfl | he
    · rw [child.element_kind.2]
      simp
    · exact ih he

/-- Where there are rules, there are groups. -/
theorem exists_criteria (h : Interleaved combinator rules children elements) (hr : rules ≠ []) :
    ∃ element ∈ elements, isCriteria element = true := by
  by_contra hno
  have hnone : elements.filter isCriteria = [] := List.filter_eq_nil_iff.mpr fun element he hc =>
    hno ⟨element, he, hc⟩
  have hrules := h.criteria
  rw [hnone, List.flatMap_nil] at hrules
  exact hr (List.map_eq_nil_iff.mp hrules.symm)

end Interleaved

/-- Where one condition is enough, that is written, with rules or without. -/
theorem exists_criteria_or (children : List RuleSetDescription) (pending : List RuleDescription) :
    ∃ element ∈ bodyElements .or pending false children, isCriteria element = true := by
  induction children generalizing pending with
  | nil =>
    have hw : (!pending.isEmpty || (!false && Combinator.or != .and)) = true := by
      rw [Bool.or_eq_true]
      exact .inr rfl
    rw [bodyElements, if_pos hw]
    exact ⟨_, List.mem_singleton_self _, (criteriaElement_kind _ _).1⟩
  | cons child more ih =>
    rw [bodyElements]
    generalize splitRules child.firstRuleId pending = parts
    obtain ⟨front, rest⟩ := parts
    cases front with
    | nil =>
      obtain ⟨element, he, hc⟩ := ih rest
      exact ⟨element, List.mem_cons_of_mem _ he, hc⟩
    | cons rule others =>
      exact ⟨_, List.mem_append_left _ (List.mem_singleton_self _), (criteriaElement_kind _ _).1⟩

/-- The element of a rule set shows what the rule set holds itself. -/
theorem shown_element (head : Head) (children : List RuleSetDescription) :
    head.Shown (element ⟨head, children⟩) := by
  have hbody := interleaved_bodyElements head.combinator children head.sortedRules false
  have hnames := fun child (h : child ∈ head.failureElements) => failureElements_kind h
  have hcriteria : head.failureElements.filter isCriteria = [] :=
    List.filter_eq_nil_iff.mpr fun child hc => by
      rw [(hnames child hc).1]
      exact Bool.false_ne_true
  rw [element]
  constructor
  case name => rfl
  case attributes => rfl
  case rules =>
    refine ⟨head.sortedRules, head.inOrder_sortedRules, ?_⟩
    rw [List.filter_append, hcriteria, List.nil_append]
    exact hbody.criteria
  case joined =>
    intro child hc hk
    rcases List.mem_append.mp hc with hc | hc
    · rw [(hnames child hc).1] at hk
      exact absurd hk Bool.false_ne_true
    · exact hbody.joined child hc hk
  case joins =>
    intro hwhy
    obtain ⟨child, hc, hk⟩ : ∃ child ∈ bodyElements head.combinator head.sortedRules false children,
        isCriteria child = true := by
      rcases hwhy with hrules | hor
      · refine hbody.exists_criteria fun hnone => hrules ?_
        exact List.nil_perm.mp (hnone ▸ head.inOrder_sortedRules.perm)
      · rw [hor]
        exact exists_criteria_or children head.sortedRules
    exact ⟨child, List.mem_append_right _ hc, hk⟩
  case others =>
    rw [List.filter_append, hbody.others, List.append_nil]
    refine List.filter_eq_self.mpr fun child hc => ?_
    rw [(hnames child hc).1, (hnames child hc).2]
    rfl

mutual
/-- The element of a rule set is that of the rule set on every level. -/
theorem shows_element : (set : RuleSetDescription) → set.Shows set.element
  | ⟨head, children⟩ => by
    have hnone : head.failureElements.filter isRuleSet = [] :=
      List.filter_eq_nil_iff.mpr fun child hc => by
        rw [(failureElements_kind hc).2]
        exact Bool.false_ne_true
    have hbelow : (element ⟨head, children⟩).children.filter isRuleSet =
        children.map RuleSetDescription.element := by
      rw [element, List.filter_append, hnone, List.nil_append]
      exact (interleaved_bodyElements head.combinator children head.sortedRules false).ruleSets
    rw [Shows, hbelow]
    exact ⟨shown_element head children, showsAll_element children⟩

/-- The elements of rule sets are those of the rule sets on every level. -/
theorem showsAll_element : (sets : List RuleSetDescription) →
    ShowsAll sets (sets.map RuleSetDescription.element)
  | [] => by rw [ShowsAll, List.map_nil]
  | set :: more => by
    rw [ShowsAll]
    exact ⟨_, _, rfl, shows_element set, showsAll_element more⟩
end

/-- The parts of every rule set, whatever the numbers in it are, are one element: each start tag has
its end tag. On every level, the element of a rule set has the rules of the rule set in its
conditions, each once and in the order of their numbers, and one element for each child, in order;
the conditions say how they are joined. -/
theorem shows_events (set : RuleSetDescription) :
    ∃ element, Event.build? set.events = some { name := "#document", children := [element] } ∧
      set.Shows element :=
  ⟨set.element, (builds_events set).build?_eq, shows_element set⟩

end RuleSetDescription

end Rulebook
