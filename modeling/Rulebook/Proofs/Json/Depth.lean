import Rulebook.Proofs.Compiler.WellFormed
import Rulebook.Proofs.Json.Descriptions

/-!
# How deep the descriptions of compiled trees are

An element inside another one makes at most one more level of rule sets, and a level takes two more
arrays and objects in the text of the description. The limit for nested elements therefore bounds
how deep the text is; an element without anything in it may stand one deeper than the limit. Beside
what the reader keeps, this tells which limits are safe.
-/

namespace Rulebook

open Markup (Element OpenElement OpenElements PlacedToken)

namespace Markup

mutual
/-- The number of elements inside each other that hold something. -/
def Element.filled : Element → Nat
  | ⟨_, _, text, children⟩ =>
    if text = "" ∧ children.isEmpty then 0 else Element.filledAll children + 1

/-- The number of elements inside each other that hold something, in some element of a list. -/
def Element.filledAll : List Element → Nat
  | [] => 0
  | element :: more => max element.filled (Element.filledAll more)
end

/-- A list of elements is as deep as its deepest element. -/
theorem Element.filledAll_le_iff {elements : List Element} {depth : Nat} :
    filledAll elements ≤ depth ↔ ∀ element ∈ elements, element.filled ≤ depth := by
  induction elements with
  | nil => simp [filledAll]
  | cons element more ih => rw [filledAll, Nat.max_le, ih, List.forall_mem_cons]

/-- The order of elements makes them no deeper. -/
theorem Element.filledAll_reverse (elements : List Element) :
    filledAll elements.reverse = filledAll elements := by
  refine Nat.le_antisymm (filledAll_le_iff.mpr fun element he => ?_)
    (filledAll_le_iff.mpr fun element he => ?_)
  · exact filledAll_le_iff.mp (Nat.le_refl _) element (List.mem_reverse.mp he)
  · exact filledAll_le_iff.mp (Nat.le_refl _) element (List.mem_reverse.mpr he)

/-- An element is deeper than the elements in it by at most one. -/
theorem Element.filled_le (element : Element) :
    element.filled ≤ filledAll element.children + 1 := by
  obtain ⟨name, attributes, text, children⟩ := element
  rw [filled]
  split
  · exact Nat.zero_le _
  · exact Nat.le_refl _

/-- An element that holds something is one deeper than the elements in it. -/
theorem Element.filled_of_ne {element : Element}
    (h : element.text ≠ "" ∨ element.children ≠ []) :
    element.filled = filledAll element.children + 1 := by
  obtain ⟨name, attributes, text, children⟩ := element
  rw [filled, if_neg]
  rintro ⟨htext, hchildren⟩
  exact h.elim (fun hne => hne htext) fun hne => hne (List.isEmpty_iff.mp hchildren)

theorem OpenElement.filledAll_close (element : OpenElement) :
    Element.filledAll element.close.children = Element.filledAll element.children :=
  Element.filledAll_reverse _

/-- The elements in each open element are no deeper than the limit allows at this place. -/
def OpenElement.FitAll (maxDepth : Nat) : List OpenElement → Prop
  | [] => True
  | element :: rest =>
    Element.filledAll element.children + rest.length ≤ maxDepth ∧ FitAll maxDepth rest

/-- A token keeps the elements within the limit. -/
theorem OpenElements.fit_step {maxDepth : Nat} {elements next : OpenElements}
    {placed : PlacedToken} (h : step maxDepth elements placed = .ok next)
    (hf : OpenElement.FitAll maxDepth (elements.inner :: elements.outer)) :
    OpenElement.FitAll maxDepth (next.inner :: next.outer) := by
  obtain ⟨token, place⟩ := placed
  obtain ⟨hinner, houter⟩ := hf
  cases takes_of_step h with
  | text raw | characterData content | silent => exact ⟨hinner, houter⟩
  | start room read =>
    simp only [depth] at room
    refine ⟨?_, hinner, houter⟩
    simp only [Element.filledAll, List.length_cons]
    omega
  | empty read =>
    refine ⟨?_, houter⟩
    simpa [addChild, Element.filledAll, Element.filled] using hinner
  | stop inner parent more =>
    obtain ⟨hparent, hmore⟩ := houter
    have hchild := inner.close.filled_le
    rw [inner.filledAll_close] at hchild
    refine ⟨?_, hmore⟩
    simp only [addChild, Element.filledAll, List.length_cons] at hinner hparent ⊢
    omega

/-- The elements of a document that hold something are nested within the limit. -/
theorem filledAll_le_of_readDocument {maxDepth : Nat} {text : String} {document : Element}
    (h : readDocument maxDepth text = .ok document) :
    Element.filledAll document.children ≤ maxDepth := by
  obtain ⟨inner, hf, rfl⟩ := readDocument_cases h
  have hfit := OpenElements.holds_foldlM
    (fun _ state => OpenElement.FitAll maxDepth (state.inner :: state.outer))
    (fun hs hholds => OpenElements.fit_step hs hholds) hf ⟨Nat.zero_le _, trivial⟩
  rw [inner.filledAll_close]
  exact hfit.1

end Markup

namespace OutlineItem

mutual
/-- How deep the text is of a rule set that holds the item. A rule without a text is refused. -/
def height : OutlineItem → Nat
  | .rule _ text => if text = "" then 2 else 5
  | .node _ _ _ items => heightAll items + 2
  | .join _ | .failureMessage _ | .customId _ => 2

/-- How deep the text is of a rule set that holds the items. -/
def heightAll : List OutlineItem → Nat
  | [] => 2
  | item :: more => max item.height (heightAll more)
end

theorem two_le_heightAll (items : List OutlineItem) : 2 ≤ heightAll items := by
  induction items with
  | nil => exact Nat.le_refl _
  | cons item more ih => exact Nat.le_trans ih (Nat.le_max_right _ _)

/-- Items are as deep as the deepest of them. -/
theorem heightAll_le_iff {items : List OutlineItem} {depth : Nat} (hd : 2 ≤ depth) :
    heightAll items ≤ depth ↔ ∀ item ∈ items, item.height ≤ depth := by
  induction items with
  | nil => simpa [heightAll] using hd
  | cons item more ih => rw [heightAll, Nat.max_le, ih, List.forall_mem_cons]

/-- Items in two lists are no deeper than those in each of them. -/
theorem heightAll_append_le {left right : List OutlineItem} {depth : Nat}
    (hl : heightAll left ≤ depth) (hr : heightAll right ≤ depth) :
    heightAll (left ++ right) ≤ depth := by
  have hd : 2 ≤ depth := Nat.le_trans (two_le_heightAll left) hl
  rw [heightAll_le_iff hd] at hl hr ⊢
  exact fun item hi => (List.mem_append.mp hi).elim (hl item) (hr item)

end OutlineItem

namespace Outline

open OutlineItem (heightAll)

/-- A rule set with a rule is no deeper than five. -/
theorem height_rule_le_five (element : Element) : (rule element).height ≤ 5 := by
  rw [rule, OutlineItem.height]
  split <;> omega

/-- A rule with a text stands in an element that holds something. -/
theorem height_rule_le (element : Element) : (rule element).height ≤ 2 * element.filled + 4 := by
  by_cases htext : element.text = ""
  · have hraw : element.rawText = "" := by
      rw [Element.rawText, htext]
      rfl
    rw [rule, OutlineItem.height, if_pos hraw]
    omega
  · have hfive := height_rule_le_five element
    rw [Element.filled_of_ne (.inl htext)]
    omega

/-- Conditions stand in an element that holds something. -/
theorem heightAll_criteria_le (element : Element) :
    heightAll (criteria element) ≤ 2 * element.filled + 4 := by
  have hjoin (combinator : Option Combinator) :
      heightAll (combinator.map OutlineItem.join).toList ≤ 2 := by
    cases combinator <;> exact Nat.le_refl _
  refine OutlineItem.heightAll_append_le (Nat.le_trans (hjoin _) (by omega)) ?_
  rcases eq_or_ne element.children [] with hnone | hsome
  · rw [hnone, List.filter_nil, List.map_nil, heightAll]
    omega
  · rw [Element.filled_of_ne (.inr hsome), OutlineItem.heightAll_le_iff (by omega)]
    intro item hi
    obtain ⟨child, -, rfl⟩ := List.mem_map.mp hi
    have hfive := height_rule_le_five child
    omega

mutual
/-- What an element says is no deeper than the elements that hold something tell. An element without
children has nothing inside, and may hold nothing itself. -/
theorem height_ofElement_le : (element : Element) →
    heightAll (ofElement element) ≤ 2 * element.filled + 4
  | ⟨name, attributes, text, children⟩ => by
    have hcriteria := heightAll_criteria_le ⟨name, attributes, text, children⟩
    have hrule := height_rule_le ⟨name, attributes, text, children⟩
    have hinside : heightAll (ofElements children) + 2 ≤
        2 * Element.filled ⟨name, attributes, text, children⟩ + 4 := by
      rcases eq_or_ne children [] with rfl | hsome
      · rw [ofElements, heightAll]
        omega
      · have hchildren := height_ofElements_le children
        rw [Element.filled_of_ne (.inr hsome)]
        dsimp only
        omega
    rw [ofElement]
    split_ifs
    · simp only [heightAll, OutlineItem.height]
      omega
    · simp only [heightAll, OutlineItem.height]
      omega
    · exact hcriteria
    · simp only [heightAll]
      omega
    · simp only [heightAll, OutlineItem.height]
      omega
    · simp only [heightAll, OutlineItem.height]
      omega
    · omega

/-- What elements say is no deeper than the elements that hold something tell. -/
theorem height_ofElements_le : (elements : List Element) →
    heightAll (ofElements elements) ≤ 2 * Element.filledAll elements + 4
  | [] => by
    rw [ofElements, heightAll]
    omega
  | element :: more => by
    have hfirst := height_ofElement_le element
    have hmore := height_ofElements_le more
    rw [ofElements, Element.filledAll]
    exact OutlineItem.heightAll_append_le (by omega) (by omega)
end

end Outline

theorem OperandDescription.height_toJson (operand : OperandDescription) :
    operand.toJson.height = 1 := by
  cases operand <;> rfl

/-- A rule in the text of a description takes an object, the array of its operands and one of
these. -/
theorem RuleDescription.height_toJson_le (rule : RuleDescription) : rule.toJson.height ≤ 3 := by
  rw [height_toJson, Json.height, Nat.add_le_add_iff_right, Nat.add_le_add_iff_right,
    Json.heightAll_le_iff]
  intro json hjson
  obtain ⟨operand, -, rfl⟩ := List.mem_map.mp hjson
  exact Nat.le_of_eq operand.height_toJson

namespace RuleSet

/-- How deep the text of the description of a rule set is. -/
def height (set : RuleSet) : Nat := set.describe.toJson.height

/-- The texts of rule sets are those of each of them. -/
theorem toJsonAll_describeAll (sets : List RuleSet) :
    RuleSetDescription.toJsonAll (describeAll sets) = sets.map fun set => set.describe.toJson := by
  induction sets with
  | nil => rfl
  | cons set more ih => rw [describeAll, RuleSetDescription.toJsonAll, ih, List.map_cons]

/-- A rule set is as deep as its rules and the rule sets in it tell. -/
theorem height_le_iff {set : RuleSet} {depth : Nat} :
    set.height ≤ depth + 2 ↔ (∀ rule ∈ set.head.rules, rule.describe.toJson.height ≤ depth) ∧
      ∀ child ∈ set.children, child.height ≤ depth := by
  obtain ⟨head, children⟩ := set
  have harray (items : List Json) : (Json.array items).height ≤ depth + 1 ↔
      ∀ item ∈ items, item.height ≤ depth := by
    rw [Json.height, Nat.add_le_add_iff_right, Json.heightAll_le_iff]
  rw [height, RuleSetDescription.height_toJson, Nat.add_le_add_iff_right, Nat.max_le, Nat.max_le,
    harray, harray, harray, describe, toJsonAll_describeAll]
  simp only [Head.describe, List.map_map, List.forall_mem_map, Function.comp_def, Head.rules,
    List.forall_mem_append, and_assoc]
  rfl

theorem two_le_height (set : RuleSet) : 2 ≤ set.height := by
  rw [height, RuleSetDescription.height_toJson, Json.height]
  omega

/-- A rule set is two deeper than each rule set in it. -/
theorem height_child_le {set child : RuleSet} (h : child ∈ set.children) :
    child.height + 2 ≤ set.height := by
  obtain ⟨depth, hdepth⟩ := Nat.exists_eq_add_of_le' set.two_le_height
  have hchild := (height_le_iff.mp (Nat.le_of_eq hdepth)).2 child h
  omega

theorem height_new_le {head : Head} (h : head.rules = []) (depth : Nat) :
    height ⟨head, []⟩ ≤ depth + 2 := by
  rw [height_le_iff, h]
  exact ⟨fun _ hr => absurd hr List.not_mem_nil, fun _ hc => absurd hc List.not_mem_nil⟩

mutual
/-- Adding an item makes a rule set no deeper than the item tells. -/
theorem height_addItem_le {reader : RuleReader} : (item : OutlineItem) → {depth : Nat} →
    {set next : RuleSet} → {numbering after : Numbering} →
    addItem reader set numbering item = .ok (next, after) →
    set.height ≤ depth + 2 → item.height ≤ depth + 2 → next.height ≤ depth + 2
  | .rule label text, depth, ⟨head, children⟩, next, numbering, after, h, hs, hi => by
    obtain ⟨hne, rule, -, rfl, -⟩ := addItem_rule h
    rw [OutlineItem.height, if_neg hne] at hi
    obtain ⟨hrules, hchildren⟩ := height_le_iff.mp hs
    refine height_le_iff.mpr ⟨fun other ho => ?_, hchildren⟩
    rcases Head.mem_rules_addRule_iff.mp ho with ho | rfl
    · exact hrules other ho
    · exact Nat.le_trans (RuleDescription.height_toJson_le _) (by omega)
  | .join combinator, depth, ⟨head, children⟩, next, numbering, after, h, hs, hi => by
    rw [addItem] at h
    cases h
    exact height_le_iff.mpr (height_le_iff.mp hs)
  | .failureMessage text, depth, ⟨head, children⟩, next, numbering, after, h, hs, hi => by
    have hparts := height_le_iff.mp hs
    rw [addItem] at h
    split at h <;> cases h <;> exact height_le_iff.mpr hparts
  | .customId text, depth, ⟨head, children⟩, next, numbering, after, h, hs, hi => by
    have hparts := height_le_iff.mp hs
    rw [addItem] at h
    split at h <;> cases h <;> exact height_le_iff.mpr hparts
  | .node kind description severity items, depth, ⟨head, children⟩, next, numbering, after, h, hs,
    hi => by
    obtain ⟨child, hchild, rfl⟩ := addItem_node h
    rw [OutlineItem.height, Nat.add_le_add_iff_right] at hi
    obtain ⟨below, rfl⟩ := Nat.exists_eq_add_of_le'
      (Nat.le_trans (OutlineItem.two_le_heightAll items) hi)
    have hbelow := height_addItems_le items hchild (height_new_le rfl below) hi
    obtain ⟨hrules, hchildren⟩ := height_le_iff.mp hs
    refine height_le_iff.mpr ⟨hrules, fun other ho => ?_⟩
    rcases List.mem_append.mp ho with ho | ho
    · exact hchildren other ho
    · rw [List.mem_singleton.mp ho]
      exact hbelow

/-- Adding items makes a rule set no deeper than the items tell. -/
theorem height_addItems_le {reader : RuleReader} : (items : List OutlineItem) → {depth : Nat} →
    {set next : RuleSet} → {numbering after : Numbering} →
    addItems reader set numbering items = .ok (next, after) →
    set.height ≤ depth + 2 → OutlineItem.heightAll items ≤ depth + 2 → next.height ≤ depth + 2
  | [], depth, set, next, numbering, after, h, hs, hi => by
    rw [addItems_nil] at h
    cases h
    exact hs
  | item :: more, depth, set, next, numbering, after, h, hs, hi => by
    obtain ⟨between, middle, hitem, hmore⟩ := addItems_cons h
    rw [OutlineItem.heightAll, Nat.max_le] at hi
    exact height_addItems_le more hmore (height_addItem_le item hitem hs hi.1) hi.2
end

end RuleSet

/-- The text of the description of a tree takes one object more than that of its root. -/
theorem RuleTree.height_describe (tree : RuleTree) :
    tree.describe.toJson.height = tree.root.height + 1 := by
  have hoperators : (Json.array (tree.describe.customOperators.map Json.ofString)).height ≤
      tree.describe.root.toJson.height := by
    rw [Json.height, RuleSetDescription.height_toJson]
    refine Nat.add_le_add_right (Nat.le_trans ?_ (Nat.zero_le _)) 1
    rw [Json.heightAll_le_iff]
    intro json hjson
    obtain ⟨name, -, rfl⟩ := List.mem_map.mp hjson
    exact Nat.le_refl 0
  rw [TreeDescription.height_toJson, Nat.max_eq_right hoperators]
  rfl

namespace Compiler

variable {compiler next : Compiler} {markup : String} {tree : RuleTree}

/-- The limit for nested elements bounds how deep the texts of descriptions are. -/
theorem height_le_of_compile (h : compiler.compile markup = .ok (tree, next)) :
    tree.describe.toJson.height ≤ 2 * compiler.maxDepth + 5 := by
  obtain ⟨hroot, -, -⟩ := compile_cases h
  obtain ⟨document, after, hread, hadd⟩ := compileRoot_cases hroot
  have hfilled := Markup.filledAll_le_of_readDocument hread
  have hitems := Outline.height_ofElements_le document.children
  have hbound := RuleSet.height_addItems_le _ hadd
    (RuleSet.height_new_le rfl (2 * compiler.maxDepth + 2)) (by omega)
  rw [RuleTree.height_describe]
  omega

end Compiler

end Rulebook
