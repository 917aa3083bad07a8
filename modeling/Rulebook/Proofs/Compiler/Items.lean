import Rulebook.Outline
import Rulebook.Proofs.Markup.Document

/-!
# What outlines of documents have

An outline says no more things than its document has elements. The texts of its rules have no blanks
around them and begin no tags, no rule set in it is a root, and only checks have a severity. What is
compiled from a document keeps these facts.
-/

namespace Rulebook

open Markup (Element)

namespace OutlineItem

mutual
/-- The number of things that an item says, itself included. -/
def size : OutlineItem → Nat
  | .node _ _ _ items => sizeAll items + 1
  | .rule _ _ | .join _ | .failureMessage _ | .customId _ => 1

/-- The number of things that a list of items says. -/
def sizeAll : List OutlineItem → Nat
  | [] => 0
  | item :: more => item.size + sizeAll more
end

/-- A text of a rule as documents have it: without blanks around it, and beginning no tag. -/
def ProperText (text : String) : Prop := Text.trimmed text = text ∧ '<' ∉ text.toList

mutual
/-- The item is one that a document can say. -/
def Proper : OutlineItem → Prop
  | .node kind _ severity items =>
    kind ≠ .root ∧ (severity ≠ none → kind = .validate) ∧ ProperAll items
  | .rule _ text => ProperText text
  | .join _ | .failureMessage _ | .customId _ => True

/-- The items are some that a document can say. -/
def ProperAll : List OutlineItem → Prop
  | [] => True
  | item :: more => item.Proper ∧ ProperAll more
end

/-- Two lists say what both say. -/
theorem sizeAll_append (left right : List OutlineItem) :
    sizeAll (left ++ right) = sizeAll left + sizeAll right := by
  induction left with
  | nil => simp only [List.nil_append, sizeAll, Nat.zero_add]
  | cons item more ih => simp only [List.cons_append, sizeAll, ih, Nat.add_assoc]

/-- A document can say two lists one after the other when it can say both. -/
theorem properAll_append {left right : List OutlineItem} (hl : ProperAll left)
    (hr : ProperAll right) : ProperAll (left ++ right) := by
  induction left with
  | nil => exact hr
  | cons item more ih => exact ⟨hl.1, ih hl.2⟩

end OutlineItem

namespace Outline

open OutlineItem (sizeAll ProperText ProperAll)

/-- The text of a plain element is one that a rule may have. -/
theorem properText_rawText {element : Element} (h : element.Plain) :
    ProperText element.rawText := by
  obtain ⟨name, attributes, text, children⟩ := element
  refine ⟨Text.trimmed_trimmed text, fun hm => h.1 ?_⟩
  rw [Element.rawText, Text.trimmed, String.toList_ofList] at hm
  exact Text.mem_of_mem_trim hm

/-- Conditions say no more things than there are elements. -/
theorem sizeAll_criteria (element : Element) : sizeAll (criteria element) ≤ element.size := by
  obtain ⟨name, attributes, text, children⟩ := element
  have hjoin (combinator : Option Combinator) :
      sizeAll (combinator.map OutlineItem.join).toList ≤ 1 := by
    cases combinator with
    | none => exact Nat.zero_le 1
    | some combinator => exact le_rfl
  have hrules (list : List Element) :
      sizeAll ((list.filter fun child => child.hasTag ruleTag).map rule) ≤
        Element.sizeAll list := by
    induction list with
    | nil => exact le_rfl
    | cons child more ih =>
      have hchild : 1 ≤ child.size := by
        obtain ⟨_, _, _, inside⟩ := child
        rw [Element.size]
        omega
      rw [List.filter_cons, Element.sizeAll]
      split
      · rw [List.map_cons, OutlineItem.sizeAll, rule, OutlineItem.size]
        omega
      · omega
  rw [criteria, OutlineItem.sizeAll_append, Element.size]
  have hj := hjoin ((Element.attribute? ⟨name, attributes, text, children⟩ "op").bind
    Combinator.ofText?)
  have hr := hrules children
  simp only
  omega

/-- Conditions in a plain element are proper. -/
theorem properAll_criteria {element : Element} (h : element.Plain) :
    ProperAll (criteria element) := by
  obtain ⟨name, attributes, text, children⟩ := element
  refine OutlineItem.properAll_append ?_ ?_
  · generalize (Element.attribute? _ "op").bind Combinator.ofText? = combinator
    cases combinator <;> simp [ProperAll, OutlineItem.Proper]
  · have hchildren := Element.plainAll_iff.mp h.2
    clear h
    induction children with
    | nil => trivial
    | cons child more ih =>
      obtain ⟨hchild, hmore⟩ := List.forall_mem_cons.mp hchildren
      rw [List.filter_cons]
      split
      · exact ⟨properText_rawText hchild, ih hmore⟩
      · exact ih hmore

mutual
/-- An element says no more things than there are elements in it. -/
theorem size_ofElement : (element : Element) → sizeAll (ofElement element) ≤ element.size
  | ⟨name, attributes, text, children⟩ => by
    have hchildren := size_ofElements children
    have hcriteria := sizeAll_criteria ⟨name, attributes, text, children⟩
    rw [ofElement, Element.size]
    rw [Element.size] at hcriteria
    split_ifs
    · simp only [OutlineItem.sizeAll, OutlineItem.size]
      omega
    · simp only [OutlineItem.sizeAll, OutlineItem.size]
      omega
    · exact hcriteria
    · simp only [OutlineItem.sizeAll, OutlineItem.size, rule]
      omega
    · simp only [OutlineItem.sizeAll, OutlineItem.size]
      omega
    · simp only [OutlineItem.sizeAll, OutlineItem.size]
      omega
    · omega

/-- Elements say no more things than there are elements in them. -/
theorem size_ofElements : (elements : List Element) →
    sizeAll (ofElements elements) ≤ Element.sizeAll elements
  | [] => le_rfl
  | element :: more => by
    have hfirst := size_ofElement element
    have hmore := size_ofElements more
    rw [ofElements, OutlineItem.sizeAll_append, Element.sizeAll]
    omega
end

mutual
/-- What a plain element says is proper. -/
theorem proper_ofElement : (element : Element) → element.Plain → ProperAll (ofElement element)
  | ⟨name, attributes, text, children⟩, h => by
    have hchildren := proper_ofElements children h.2
    rw [ofElement]
    split_ifs
    · exact ⟨⟨by decide, fun hs => absurd rfl hs, hchildren⟩, trivial⟩
    · exact ⟨⟨by decide, fun _ => rfl, hchildren⟩, trivial⟩
    · exact properAll_criteria h
    · exact ⟨properText_rawText h, trivial⟩
    · exact ⟨trivial, trivial⟩
    · exact ⟨trivial, trivial⟩
    · exact hchildren

/-- What plain elements say is proper. -/
theorem proper_ofElements : (elements : List Element) → Element.PlainAll elements →
    ProperAll (ofElements elements)
  | [], _ => trivial
  | element :: more, h =>
    OutlineItem.properAll_append (proper_ofElement element h.1) (proper_ofElements more h.2)
end

end Outline

end Rulebook
