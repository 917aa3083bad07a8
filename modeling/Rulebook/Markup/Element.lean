import Rulebook.Markup.Attributes
import Rulebook.Text.Blank

/-!
# Elements of markup

The tokens of a document make a tree of elements under a nameless document. Character data is kept
in the form of text, with references for the characters that begin tags and references, so the text
of an element is always text as it could be written. Elements that have a start tag may not be
nested deeper than a limit.
-/

namespace Rulebook.Markup

/-- An element of a document. -/
structure Element where
  /-- The name in the tag. -/
  name : String
  /-- The attributes with their values resolved. -/
  attributes : List (String × String) := []
  /-- The text between the tags without that of the elements inside, as it is written. -/
  text : String := ""
  /-- The elements inside, in order. -/
  children : List Element := []
  deriving Repr

namespace Element

/-- The element has a tag, without regard to case. -/
def hasTag (element : Element) (tag : String) : Bool := Text.alike element.name tag

/-- The value of an attribute, whose key is compared without regard to case. -/
def attribute? (element : Element) (key : String) : Option String :=
  (element.attributes.find? fun entry => Text.alike entry.1 key).map Prod.snd

/-- The text without the blanks around it, as it is written. -/
def rawText (element : Element) : String := Text.trimmed element.text

/-- The text without the blanks around it and with its references resolved; a text with a reference
that stands for nothing stays as it is written. -/
def resolvedText (element : Element) : String :=
  match Text.unescape element.rawText.toList with
  | .ok text => String.ofList text
  | .error _ => element.rawText

end Element

/-- An element whose end tag has not come yet. -/
structure OpenElement where
  /-- The name in the start tag. -/
  name : List Char
  /-- The attributes. -/
  attributes : List (String × String) := []
  /-- The text so far. -/
  text : List Char := []
  /-- The elements inside so far, the last one first. -/
  children : List Element := []

/-- The element that an open element becomes. -/
def OpenElement.close (element : OpenElement) : Element where
  name := String.ofList element.name
  attributes := element.attributes
  text := String.ofList element.text
  children := element.children.reverse

/-- The elements that are open, from the innermost to the document. -/
structure OpenElements where
  /-- The innermost open element, or the document. -/
  inner : OpenElement
  /-- The elements around it. -/
  outer : List OpenElement := []

namespace OpenElements

/-- The document before its first token. -/
def document : OpenElements := { inner := { name := "#document".toList } }

/-- The number of open elements. -/
def depth (elements : OpenElements) : Nat := elements.outer.length

/-- Adds text to the innermost element. -/
def addText (elements : OpenElements) (text : List Char) : OpenElements :=
  { elements with inner := { elements.inner with text := elements.inner.text ++ text } }

/-- Adds an element to the innermost element. -/
def addChild (elements : OpenElements) (child : Element) : OpenElements :=
  { elements with inner := { elements.inner with children := child :: elements.inner.children } }

/-- Takes one token. -/
def step (maxDepth : Nat) (elements : OpenElements) (token : PlacedToken) :
    Except Refusal OpenElements :=
  match token.token with
  | .text raw => .ok (elements.addText raw)
  | .characterData content => .ok (elements.addText (Text.escapeMarkup content))
  | .silent => .ok elements
  | .start content =>
    if maxDepth < elements.depth + 1 then .error (.tooDeep maxDepth)
    else
      match attributesOf content with
      | .error fault => .error (.markup fault)
      | .ok attributes =>
        .ok ⟨{ name := tagName content, attributes }, elements.inner :: elements.outer⟩
  | .empty content =>
    match attributesOf content with
    | .error fault => .error (.markup fault)
    | .ok attributes =>
      .ok (elements.addChild { name := String.ofList (tagName content), attributes })
  | .stop name =>
    match elements.outer with
    | [] => .error (.markup (.broken token.place (.strayEnd (String.ofList name))))
    | parent :: more =>
      if name = elements.inner.name then
        .ok (OpenElements.addChild ⟨parent, more⟩ elements.inner.close)
      else
        .error (.markup (.broken token.place
          (.wrongEnd (String.ofList elements.inner.name) (String.ofList name))))
  | .broken fault => .error (.markup (.broken token.place fault))

/-- The document, if no element is open. -/
def finish (elements : OpenElements) : Except Refusal Element :=
  match elements.outer with
  | [] => .ok elements.inner.close
  | _ :: _ => .error (.markup (.openElement (String.ofList elements.inner.name)))

end OpenElements

/-- Reads a document: an element with the name of no tag that holds the elements of the document.
No element with a start tag may be nested deeper than the limit. -/
def readDocument (maxDepth : Nat) (text : String) : Except Refusal Element := do
  ((tokens text.toList).foldlM (OpenElements.step maxDepth) OpenElements.document) >>=
    OpenElements.finish

end Rulebook.Markup
