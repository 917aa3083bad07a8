import Rulebook.Markup.Element
import Rulebook.Operator.Vocabulary

/-!
# Outlines of documents

An outline is what a document says about its rules, in the order of the document and without the
layout: which rule sets there are, how their conditions are joined, and which texts are rules.
Elements with tags of other names only hold other elements, and conditions may stand in an element
of their own or alone.
-/

namespace Rulebook

open Markup (Element)

/-- One thing that a document says at the level of a rule set. -/
inductive OutlineItem where
  /-- A rule with its name and its text. -/
  | rule (label : Option String) (text : String)
  /-- The conditions are joined in some way. -/
  | join (combinator : Combinator)
  /-- The message of a failure. -/
  | failureMessage (text : String)
  /-- The name of a failure that other systems know. -/
  | customId (text : String)
  /-- A rule set below. -/
  | node (kind : NodeKind) (description : String) (severity : Option Severity)
    (items : List OutlineItem)

namespace Outline

/-- The tag of a text that is a rule. -/
def ruleTag : String := "eval"

/-- The tag of an element that holds conditions. -/
def criteriaTag : String := "criteria"

/-- The tag of the message of a failure. -/
def failureMessageTag : String := "failure_message"

/-- The tag of the name of a failure that other systems know. -/
def customIdTag : String := "customId"

/-- The rule that an element is. -/
def rule (element : Element) : OutlineItem := .rule (element.attribute? "id") element.rawText

/-- The severity that an element asks for. -/
def severity? (element : Element) : Option Severity :=
  (element.attribute? "err").bind Severity.ofText?

/-- What an element with conditions says; elements in it that are no rules say nothing. -/
def criteria (element : Element) : List OutlineItem :=
  (((element.attribute? "op").bind Combinator.ofText?).map OutlineItem.join).toList ++
    (element.children.filter fun child => child.hasTag ruleTag).map rule

mutual
/-- What an element says. -/
def ofElement : Element → List OutlineItem
  | ⟨name, attributes, text, children⟩ =>
    let element : Element := ⟨name, attributes, text, children⟩
    if element.hasTag NodeKind.flow.tag then
      [.node .flow ((element.attribute? "description").getD "") none (ofElements children)]
    else if element.hasTag NodeKind.validate.tag then
      [.node .validate ((element.attribute? "description").getD "") (severity? element)
        (ofElements children)]
    else if element.hasTag criteriaTag then criteria element
    else if element.hasTag ruleTag then [rule element]
    else if element.hasTag failureMessageTag then [.failureMessage element.resolvedText]
    else if element.hasTag customIdTag then [.customId element.resolvedText]
    else ofElements children

/-- What a list of elements says. -/
def ofElements : List Element → List OutlineItem
  | [] => []
  | element :: more => ofElement element ++ ofElements more
end

/-- What the elements of two lists say is what the lists say one after the other. -/
theorem ofElements_append (left right : List Element) :
    ofElements (left ++ right) = ofElements left ++ ofElements right := by
  induction left with
  | nil => rfl
  | cons element more ih => simp [ofElements, ih]

end Outline

end Rulebook
