import Mathlib
import Rulebook.Proofs.Compiler.WellFormed

/-!
# The layout of documents

A document may be laid out in other ways without saying anything else. Elements may stand in a
wrapper, conditions may be cut into several elements or stand alone, elements that say nothing may
be left out, and the case of tags and attribute names is free. `Relaid` is one such change at one
place, and documents that are reached by any number of changes are compiled alike: to the same tree,
or they are refused for the same reason.
-/

namespace Rulebook

open Markup (Element)

namespace Markup.Element

mutual
/-- The element with its tags and attribute names in small letters. -/
def folded : Element → Element
  | ⟨name, attributes, text, children⟩ =>
    ⟨Text.smalls name, attributes.map fun entry => (Text.smalls entry.1, entry.2), text,
      foldedAll children⟩

/-- The elements with their tags and attribute names in small letters. -/
def foldedAll : List Element → List Element
  | [] => []
  | element :: more => element.folded :: foldedAll more
end

mutual
/-- Whether two elements are the same. -/
def decideEq : (first second : Element) → Decidable (first = second)
  | ⟨name, attributes, text, children⟩, ⟨name', attributes', text', children'⟩ =>
    have := decideEqAll children children'
    decidable_of_iff
      (name = name' ∧ attributes = attributes' ∧ text = text' ∧ children = children')
      (Iff.of_eq (Element.mk.injEq ..).symm)

/-- Whether two lists of elements are the same. -/
def decideEqAll : (first second : List Element) → Decidable (first = second)
  | [], [] => isTrue rfl
  | [], _ :: _ => isFalse (List.cons_ne_nil _ _).symm
  | _ :: _, [] => isFalse (List.cons_ne_nil _ _)
  | element :: more, element' :: more' =>
    have := decideEq element element'
    have := decideEqAll more more'
    decidable_of_iff (element = element' ∧ more = more') (Iff.of_eq (List.cons.injEq ..).symm)
end

instance : DecidableEq Element := decideEq

/-- Small letters are like the letters that they were made from. -/
theorem alike_smalls (text other : String) :
    Text.alike (Text.smalls text) other = Text.alike text other := by
  have hlower : Text.lower (Text.lower text.toList) = Text.lower text.toList := by
    simp only [Text.lower, List.map_map]
    exact List.map_congr_left fun c _ => Char.toLower_toLower_eq_toLower c
  rw [Text.alike, Text.alike, Text.smalls, String.toList_ofList, hlower]

theorem hasTag_folded (element : Element) (tag : String) :
    element.folded.hasTag tag = element.hasTag tag := by
  obtain ⟨name, attributes, text, children⟩ := element
  exact alike_smalls name tag

theorem attribute?_folded (element : Element) (key : String) :
    element.folded.attribute? key = element.attribute? key := by
  obtain ⟨name, attributes, text, children⟩ := element
  simp only [folded, attribute?, List.find?_map, Option.map_map, Function.comp_def, alike_smalls]

theorem text_folded (element : Element) : element.folded.text = element.text := by
  obtain ⟨name, attributes, text, children⟩ := element
  rfl

theorem children_folded (element : Element) :
    element.folded.children = foldedAll element.children := by
  obtain ⟨name, attributes, text, children⟩ := element
  rfl

theorem foldedAll_eq_map (elements : List Element) : foldedAll elements = elements.map folded := by
  induction elements with
  | nil => rfl
  | cons element more ih => rw [foldedAll, ih, List.map_cons]

end Markup.Element

namespace Outline

open Markup.Element (folded foldedAll hasTag_folded attribute?_folded)

/-- What an element says, by its tag. -/
theorem ofElement_eq (element : Element) : ofElement element =
    if element.hasTag NodeKind.flow.tag then
      [.node .flow ((element.attribute? "description").getD "") none (ofElements element.children)]
    else if element.hasTag NodeKind.validate.tag then
      [.node .validate ((element.attribute? "description").getD "") (severity? element)
        (ofElements element.children)]
    else if element.hasTag criteriaTag then criteria element
    else if element.hasTag ruleTag then [rule element]
    else if element.hasTag failureMessageTag then [.failureMessage element.resolvedText]
    else if element.hasTag customIdTag then [.customId element.resolvedText]
    else ofElements element.children := by
  obtain ⟨name, attributes, text, children⟩ := element
  rw [ofElement]

theorem rule_folded (element : Element) : rule element.folded = rule element := by
  rw [rule, rule, attribute?_folded, Element.rawText, Element.rawText, Element.text_folded]

theorem resolvedText_folded (element : Element) :
    element.folded.resolvedText = element.resolvedText := by
  rw [Element.resolvedText, Element.resolvedText, Element.rawText, Element.rawText,
    Element.text_folded]

/-- Conditions say the same in any case. -/
theorem criteria_folded (element : Element) : criteria element.folded = criteria element := by
  have hrules : (foldedAll element.children).filter (fun child => child.hasTag ruleTag) =
      (element.children.filter fun child => child.hasTag ruleTag).map folded := by
    rw [Element.foldedAll_eq_map, List.filter_map]
    simp only [Function.comp_def, hasTag_folded]
  rw [criteria, criteria, attribute?_folded, Element.children_folded, hrules, List.map_map]
  simp only [Function.comp_def, rule_folded]

mutual
/-- An element says the same in any case. -/
theorem ofElement_folded : (element : Element) → ofElement element.folded = ofElement element
  | ⟨name, attributes, text, children⟩ => by
    rw [ofElement_eq, ofElement_eq]
    simp only [hasTag_folded, attribute?_folded, severity?, criteria_folded, rule_folded,
      resolvedText_folded, Element.children_folded, ofElements_folded children]

/-- Elements say the same in any case. -/
theorem ofElements_folded : (elements : List Element) →
    ofElements (foldedAll elements) = ofElements elements
  | [] => rfl
  | element :: more => by
    rw [foldedAll, ofElements, ofElements, ofElement_folded element, ofElements_folded more]
end

/-- An element with one tag has no other tag. -/
theorem hasTag_eq_false {element : Element} {tag other : String} (h : element.hasTag tag)
    (hne : Text.alike tag other = false) : element.hasTag other = false := by
  have htag : Text.lower element.name.toList = Text.lower tag.toList := eq_of_beq h
  rw [Element.hasTag, Text.alike, htag]
  exact hne

theorem ofElement_criteria {element : Element} (h : element.hasTag criteriaTag) :
    ofElement element = criteria element := by
  rw [ofElement_eq, if_neg (by rw [hasTag_eq_false h (by decide)]; decide),
    if_neg (by rw [hasTag_eq_false h (by decide)]; decide), if_pos h]

/-- An element with the tag of a rule says the rule. -/
theorem ofElement_rule {element : Element} (h : element.hasTag ruleTag) :
    ofElement element = [rule element] := by
  rw [ofElement_eq, if_neg (by rw [hasTag_eq_false h (by decide)]; decide),
    if_neg (by rw [hasTag_eq_false h (by decide)]; decide),
    if_neg (by rw [hasTag_eq_false h (by decide)]; decide), if_pos h]

/-- The tags of the elements that say something. -/
def knownTags : List String :=
  [NodeKind.flow.tag, NodeKind.validate.tag, criteriaTag, ruleTag, failureMessageTag, customIdTag]

/-- The element has none of the tags that say something. -/
def IsWrapper (element : Element) : Prop := ∀ tag ∈ knownTags, element.hasTag tag = false

instance (element : Element) : Decidable (IsWrapper element) :=
  inferInstanceAs (Decidable (∀ tag ∈ knownTags, element.hasTag tag = false))

/-- A wrapper says what the elements in it say. -/
theorem ofElement_wrapper {element : Element} (h : IsWrapper element) :
    ofElement element = ofElements element.children := by
  simp only [IsWrapper, knownTags, List.forall_mem_cons, List.not_mem_nil, false_implies,
    implies_true, and_true] at h
  obtain ⟨hflow, hvalidate, hcriteria, hrule, hmessage, hid⟩ := h
  rw [ofElement_eq]
  simp only [hflow, hvalidate, hcriteria, hrule, hmessage, hid, Bool.false_eq_true, if_false]

/-- The elements in it stand at the level of a rule set when the element does. -/
def IsLevel (element : Element) : Prop :=
  element.hasTag NodeKind.flow.tag ∨ element.hasTag NodeKind.validate.tag ∨ IsWrapper element

instance (element : Element) : Decidable (IsLevel element) :=
  inferInstanceAs (Decidable (_ ∨ _ ∨ _))

/-- The elements in it that are rules. -/
def conditions (element : Element) : List Element :=
  element.children.filter fun child => child.hasTag ruleTag

/-- Rules that stand alone say themselves. -/
theorem ofElements_rules {elements : List Element}
    (h : ∀ element ∈ elements, element.hasTag ruleTag) :
    ofElements elements = elements.map rule := by
  induction elements with
  | nil => rfl
  | cons element more ih =>
    obtain ⟨helement, hmore⟩ := List.forall_mem_cons.mp h
    rw [ofElements, ofElement_rule helement, ih hmore, List.map_cons, List.singleton_append]

/-- Criteria elements one after the other say their conditions one after the other. -/
theorem ofElements_criteria {elements : List Element}
    (h : ∀ element ∈ elements, element.hasTag criteriaTag) :
    ofElements elements = elements.flatMap criteria := by
  induction elements with
  | nil => rfl
  | cons element more ih =>
    obtain ⟨helement, hmore⟩ := List.forall_mem_cons.mp h
    rw [ofElements, ofElement_criteria helement, ih hmore, List.flatMap_cons]

end Outline

namespace OutlineItem

open RuleSet (addItem addItems addItems_append)

/-- Two lists of items make the same of every rule set, or both are refused for one reason. -/
def SaysSame (first second : List OutlineItem) : Prop :=
  ∀ (reader : RuleReader) (set : RuleSet) (numbering : Numbering),
    addItems reader set numbering first = addItems reader set numbering second

namespace SaysSame

variable {first second third : List OutlineItem}

theorem refl (items : List OutlineItem) : SaysSame items items := fun _ _ _ => rfl

theorem trans (h : SaysSame first second) (h' : SaysSame second third) : SaysSame first third :=
  fun reader set numbering => (h reader set numbering).trans (h' reader set numbering)

/-- Lists that say the same do so one after the other. -/
theorem append {first' second' : List OutlineItem} (h : SaysSame first second)
    (h' : SaysSame first' second') : SaysSame (first ++ first') (second ++ second') := by
  intro reader set numbering
  rw [addItems_append, addItems_append, h]
  exact bind_congr fun next => h' reader next.1 next.2

/-- Rule sets below that say the same are the same. -/
theorem node (h : SaysSame first second) (kind : NodeKind) (description : String)
    (severity : Option Severity) :
    SaysSame [.node kind description severity first] [.node kind description severity second] := by
  intro reader set numbering
  simp only [addItems, addItem, h reader]

end SaysSame

/-- Rules do not change how conditions are joined. -/
theorem combinator_addItems {reader : RuleReader} {elements : List Element} {set last : RuleSet}
    {numbering after : Numbering}
    (h : addItems reader set numbering (elements.map Outline.rule) = .ok (last, after)) :
    last.head.combinator = set.head.combinator := by
  induction elements generalizing set numbering with
  | nil =>
    rw [List.map_nil, RuleSet.addItems_nil] at h
    cases h
    rfl
  | cons element more ih =>
    obtain ⟨next, between, hitem, hmore⟩ := RuleSet.addItems_cons h
    obtain ⟨-, rule, -, rfl, -⟩ := RuleSet.addItem_rule hitem
    rw [ih hmore, RuleSet.Head.addRule]
    split <;> rfl

/-- Joining the conditions in a way in which they are joined changes nothing. -/
theorem addItems_join (reader : RuleReader) (set : RuleSet) (numbering : Numbering)
    (items : List OutlineItem) :
    addItems reader set numbering (.join set.head.combinator :: items) =
      addItems reader set numbering items := by
  obtain ⟨head, children⟩ := set
  rw [addItems, addItem, pure_bind]

/-- Conditions need to be joined only once. -/
theorem saysSame_join (combinator : Combinator) (elements : List Element)
    (items : List OutlineItem) :
    SaysSame (.join combinator :: elements.map Outline.rule ++ .join combinator :: items)
      (.join combinator :: elements.map Outline.rule ++ items) := by
  intro reader set numbering
  rw [addItems_append, addItems_append]
  cases hadd : addItems reader set numbering (.join combinator :: elements.map Outline.rule) with
  | error refusal => rfl
  | ok result =>
    obtain ⟨last, after⟩ := result
    obtain ⟨next, between, hjoin, hrules⟩ := RuleSet.addItems_cons hadd
    rw [addItem] at hjoin
    cases hjoin
    have hlast : last.head.combinator = combinator := combinator_addItems hrules
    subst hlast
    exact addItems_join reader last after items

end OutlineItem

namespace Outline

open OutlineItem (SaysSame saysSame_join)

/-- Criteria elements that are joined in one way say what one of them says that holds all of their
conditions. -/
theorem saysSame_cut {whole : Element} {pieces : List Element} (hne : pieces ≠ [])
    (hop : ∀ piece ∈ pieces, piece.attribute? "op" = whole.attribute? "op")
    (hchildren : pieces.flatMap Element.children = whole.children) :
    SaysSame (criteria whole) (pieces.flatMap criteria) := by
  have hrules : pieces.flatMap conditions = conditions whole := by
    rw [conditions, ← hchildren, List.filter_flatMap]
    rfl
  have hpieces : ∀ piece ∈ pieces, criteria piece =
      (((whole.attribute? "op").bind Combinator.ofText?).map OutlineItem.join).toList ++
        (conditions piece).map rule := by
    intro piece hpiece
    rw [criteria, hop piece hpiece, conditions]
  have hwhole : criteria whole =
      (((whole.attribute? "op").bind Combinator.ofText?).map OutlineItem.join).toList ++
        (pieces.flatMap conditions).map rule := by
    rw [hrules]
    rfl
  rw [hwhole]
  clear hwhole hrules hchildren hop
  generalize (whole.attribute? "op").bind Combinator.ofText? = joined at hpieces ⊢
  induction pieces with
  | nil => exact absurd rfl hne
  | cons piece more ih =>
    obtain ⟨hpiece, hmore⟩ := List.forall_mem_cons.mp hpieces
    rw [List.flatMap_cons, List.flatMap_cons, List.map_append, hpiece]
    rcases eq_or_ne more [] with rfl | hne'
    · simpa using SaysSame.refl _
    · have hrest := ih hne' hmore
      cases joined with
      | none => exact (SaysSame.refl ((conditions piece).map rule)).append hrest
      | some combinator =>
        refine fun reader set numbering => ?_
        have honce := saysSame_join combinator (conditions piece)
          ((more.flatMap conditions).map rule) reader set numbering
        have hlater := (SaysSame.refl (.join combinator :: (conditions piece).map rule)).append
          hrest reader set numbering
        exact honce.symm.trans hlater

end Outline

open Outline (IsWrapper IsLevel conditions criteriaTag ofElements)

/-- One list of elements at the level of a rule set becomes another one by a change of the layout
at one place. -/
inductive Relaid : List Element → List Element → Prop where
  /-- Elements are put into a wrapper. -/
  | wrap {wrapper : Element} (hw : IsWrapper wrapper) (hne : wrapper.children ≠ []) :
    Relaid wrapper.children [wrapper]
  /-- Elements are taken out of a wrapper. -/
  | unwrap {wrapper : Element} (hw : IsWrapper wrapper) (hne : wrapper.children ≠ []) :
    Relaid [wrapper] wrapper.children
  /-- Conditions are cut into several elements that join them in the same way. -/
  | cut {whole : Element} {pieces : List Element} (hw : whole.hasTag criteriaTag)
    (hne : pieces ≠ []) (htag : ∀ piece ∈ pieces, piece.hasTag criteriaTag)
    (hop : ∀ piece ∈ pieces, piece.attribute? "op" = whole.attribute? "op")
    (hchildren : pieces.flatMap Element.children = whole.children) :
    Relaid [whole] pieces
  /-- Conditions that are not joined in some way stand alone. -/
  | release {whole : Element} (hw : whole.hasTag criteriaTag)
    (hop : whole.attribute? "op" = none) (hne : conditions whole ≠ []) :
    Relaid [whole] (conditions whole)
  /-- What stands among conditions and is none of them changes. -/
  | prune {whole kept : Element} (hw : whole.hasTag criteriaTag) (hk : kept.hasTag criteriaTag)
    (hop : kept.attribute? "op" = whole.attribute? "op")
    (hrules : conditions kept = conditions whole) :
    Relaid [whole] [kept]
  /-- Tags and names of attributes are written in other cases. -/
  | recase {first second : List Element}
    (h : Element.foldedAll first = Element.foldedAll second) : Relaid first second
  /-- Something changes beside other elements. -/
  | beside (before after : List Element) {first second : List Element}
    (h : Relaid first second) : Relaid (before ++ first ++ after) (before ++ second ++ after)
  /-- Something changes in an element, whose own text says nothing. -/
  | inside {name : String} {attributes : List (String × String)} {children others : List Element}
    (text other : String) (hl : IsLevel ⟨name, attributes, text, children⟩)
    (h : Relaid children others) :
    Relaid [⟨name, attributes, text, children⟩] [⟨name, attributes, other, others⟩]

namespace Relaid

open Outline OutlineItem

variable {first second : List Element}

/-- Elements do not vanish and do not come out of nothing. -/
theorem eq_nil_iff (h : Relaid first second) : first = [] ↔ second = [] := by
  induction h with
  | wrap _ hne => exact ⟨fun he => absurd he hne, fun he => absurd he (List.cons_ne_nil _ _)⟩
  | unwrap _ hne => exact ⟨fun he => absurd he (List.cons_ne_nil _ _), fun he => absurd he hne⟩
  | cut _ hne => exact ⟨fun he => absurd he (List.cons_ne_nil _ _), fun he => absurd he hne⟩
  | release _ _ hne => exact ⟨fun he => absurd he (List.cons_ne_nil _ _), fun he => absurd he hne⟩
  | prune => simp only [List.cons_ne_nil]
  | recase h =>
    rw [Element.foldedAll_eq_map, Element.foldedAll_eq_map] at h
    rw [← List.map_eq_nil_iff, h, List.map_eq_nil_iff]
  | beside before after _ ih => simp only [List.append_eq_nil_iff, ih]
  | inside => simp only [List.cons_ne_nil]

/-- One change of the layout leaves what a document says. -/
theorem saysSame (h : Relaid first second) : SaysSame (ofElements first) (ofElements second) := by
  have single (element : Element) : ofElements [element] = ofElement element :=
    List.append_nil _
  induction h with
  | wrap hw =>
    rw [single, ofElement_wrapper hw]
    exact .refl _
  | unwrap hw =>
    rw [single, ofElement_wrapper hw]
    exact .refl _
  | cut hw hne htag hop hchildren =>
    rw [single, ofElement_criteria hw, ofElements_criteria htag]
    exact saysSame_cut hne hop hchildren
  | @release whole hw hop =>
    have hrules : ∀ element ∈ conditions whole, element.hasTag ruleTag := fun _ he =>
      (List.mem_filter.mp he).2
    rw [single, ofElement_criteria hw, ofElements_rules hrules, criteria, hop]
    exact .refl _
  | prune hw hk hop hrules =>
    rw [single, single, ofElement_criteria hw, ofElement_criteria hk, criteria, criteria, hop]
    rw [conditions, conditions] at hrules
    rw [hrules]
    exact .refl _
  | @recase first second h =>
    rw [← ofElements_folded first, h, ofElements_folded second]
    exact .refl _
  | beside before after _ ih =>
    simp only [ofElements_append]
    exact ((SaysSame.refl _).append ih).append (.refl _)
  | @inside name attributes children others text other hl _ ih =>
    have htag (tag : String) : Element.hasTag ⟨name, attributes, other, others⟩ tag =
        Element.hasTag ⟨name, attributes, text, children⟩ tag := rfl
    rw [single, single]
    rcases hl with hflow | hvalidate | hwrapper
    · rw [ofElement_eq, if_pos hflow, ofElement_eq, htag, if_pos hflow]
      exact ih.node _ _ _
    · have hno : Element.hasTag ⟨name, attributes, text, children⟩ NodeKind.flow.tag = false :=
        hasTag_eq_false hvalidate (by decide)
      rw [ofElement_eq, hno, if_neg Bool.false_ne_true, if_pos hvalidate, ofElement_eq, htag, hno,
        if_neg Bool.false_ne_true, htag, if_pos hvalidate]
      exact ih.node _ _ _
    · have hother : IsWrapper ⟨name, attributes, other, others⟩ := hwrapper
      rw [ofElement_wrapper hwrapper, ofElement_wrapper hother]
      exact ih

/-- Any number of changes of the layout leaves what a document says, and none makes a document
empty. -/
theorem saysSame_of_reaches (h : Relation.ReflTransGen Relaid first second) :
    SaysSame (ofElements first) (ofElements second) ∧ (first = [] ↔ second = []) := by
  induction h with
  | refl => exact ⟨.refl _, Iff.rfl⟩
  | tail _ hlast ih => exact ⟨ih.1.trans hlast.saysSame, ih.2.trans hlast.eq_nil_iff⟩

end Relaid

namespace Compiler

variable {compiler : Compiler}

/-- Documents that differ by their layout are compiled to the same tree, or both are refused for
the same reason. -/
theorem compile_relaid {markup other : String} {document changed : Element}
    (h : Markup.readDocument compiler.maxDepth markup = .ok document)
    (h' : Markup.readDocument compiler.maxDepth other = .ok changed)
    (hr : Relation.ReflTransGen Relaid document.children changed.children) :
    compiler.compile markup = compiler.compile other := by
  obtain ⟨hsame, hnil⟩ := Relaid.saysSame_of_reaches hr
  have hempty : document.children.isEmpty = changed.children.isEmpty := by
    rw [Bool.eq_iff_iff, List.isEmpty_iff, List.isEmpty_iff, hnil]
  have hroot : compiler.compileRoot markup = compiler.compileRoot other := by
    rw [compileRoot_of_readDocument h, compileRoot_of_readDocument h', hempty]
    simp only [RuleSet.ofOutline, hsame compiler.reader]
  rw [compile, compile, hroot]

/-- A branch with two conditions, and an element beside them that says nothing. -/
def joinedMarkup : String :=
  "<if><criteria op=\"or\"><eval>(N.Owner) POPULATED</eval><note/>" ++
    "<eval>(O.Owner) POPULATED</eval></criteria></if>"

/-- The same branch in a wrapper, with an element for each condition and other cases. -/
def scatteredMarkup : String :=
  "<box><IF><criteria op=\"or\"><eval>(N.Owner) POPULATED</eval></criteria>" ++
    "<Criteria OP=\"or\"><eval>(O.Owner) POPULATED</eval></Criteria></IF></box>"

/-- The first condition of the branch. -/
def firstCondition : Element := { name := "eval", text := "(N.Owner) POPULATED" }

/-- The second condition of the branch. -/
def secondCondition : Element := { name := "eval", text := "(O.Owner) POPULATED" }

/-- The element with a name for conditions that are joined by an attribute with a name. -/
def joinedElement (name key : String) (children : List Element) : Element :=
  { name, attributes := [(key, "or")], children }

/-- Four changes of the layout that leave the tree. -/
theorem compile_relaid_joined : ∃ document changed : Element,
    Markup.readDocument 4 joinedMarkup = .ok document ∧
      Markup.readDocument 4 scatteredMarkup = .ok changed ∧
      Relation.ReflTransGen Relaid document.children changed.children ∧
      (∃ tree next, (small 4).compile joinedMarkup = .ok (tree, next) ∧
        tree.root.allRules.length = 2) ∧
      (small 4).compile joinedMarkup = (small 4).compile scatteredMarkup := by
  let whole := joinedElement "criteria" "op" [firstCondition, { name := "note" }, secondCondition]
  let both := joinedElement "criteria" "op" [firstCondition, secondCondition]
  let one := joinedElement "criteria" "op" [firstCondition]
  let other := joinedElement "criteria" "op" [secondCondition]
  let other' := joinedElement "Criteria" "OP" [secondCondition]
  let box : Element := { name := "box", children := [⟨"IF", [], "", [one, other']⟩] }
  have h : Markup.readDocument 4 joinedMarkup = .ok
      ⟨"#document", [], "", [⟨"if", [], "", [whole]⟩]⟩ := by decide +kernel
  have h' : Markup.readDocument 4 scatteredMarkup = .ok
      ⟨"#document", [], "", [box]⟩ := by decide +kernel
  have htag : Text.alike "if" NodeKind.flow.tag = true := by decide
  have hlevel (children : List Element) : IsLevel ⟨"if", [], "", children⟩ := .inl htag
  have hprune : Relaid [whole] [both] := .prune (by decide) (by decide) (by decide) (by decide)
  have hcut : Relaid [both] [one, other] :=
    .cut (by decide) (by decide) (by decide) (by decide) (by decide)
  have hcase : Relaid [⟨"if", [], "", [one, other]⟩] [⟨"IF", [], "", [one, other']⟩] :=
    .recase (by decide)
  have hwrap : Relaid box.children [box] := .wrap (by decide) (by decide)
  have hr := (((Relation.ReflTransGen.single (.inside "" "" (hlevel _) hprune)).tail
    (.inside "" "" (hlevel _) hcut)).tail hcase).tail hwrap
  exact ⟨_, _, h, h', hr, exists_compile (fun tree => tree.root.allRules.length) 2
    (by decide +kernel), compile_relaid h h' hr⟩

end Compiler

end Rulebook
