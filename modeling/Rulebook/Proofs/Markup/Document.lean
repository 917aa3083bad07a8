import Rulebook.Markup.Element
import Rulebook.Proofs.Text.Words

/-!
# What every document has

The elements of a document are as many as the tags in it that begin one, and no text in it begins a
tag: character data is kept in its written form. Both are carried token by token, through the
elements that are still open.
-/

namespace Rulebook.Markup

/-- The token makes an element. -/
def Token.isElement : Token → Bool
  | .start _ | .empty _ => true
  | _ => false

/-- The number of elements that a text has when it is read as a document. -/
def elementCount (text : String) : Nat :=
  (tokens text.toList).countP fun placed => placed.token.isElement

mutual
/-- The number of elements in an element, itself included. -/
def Element.size : Element → Nat
  | ⟨_, _, _, children⟩ => Element.sizeAll children + 1

/-- The number of elements in a list of elements. -/
def Element.sizeAll : List Element → Nat
  | [] => 0
  | element :: more => element.size + Element.sizeAll more
end

/-- Elements of two lists count together. -/
theorem Element.sizeAll_append (left right : List Element) :
    sizeAll (left ++ right) = sizeAll left + sizeAll right := by
  induction left with
  | nil => simp only [List.nil_append, sizeAll, Nat.zero_add]
  | cons element more ih => simp only [List.cons_append, sizeAll, ih, Nat.add_assoc]

/-- The order of elements does not matter for their number. -/
theorem Element.sizeAll_reverse (elements : List Element) :
    sizeAll elements.reverse = sizeAll elements := by
  induction elements with
  | nil => rfl
  | cons element more ih =>
    rw [List.reverse_cons, sizeAll_append, ih, sizeAll, sizeAll, sizeAll]
    omega

mutual
/-- No text in an element begins a tag. -/
def Element.Plain : Element → Prop
  | ⟨_, _, text, children⟩ => '<' ∉ text.toList ∧ Element.PlainAll children

/-- No text in a list of elements begins a tag. -/
def Element.PlainAll : List Element → Prop
  | [] => True
  | element :: more => element.Plain ∧ Element.PlainAll more
end

/-- A list of elements is plain when each of them is. -/
theorem Element.plainAll_iff {elements : List Element} :
    PlainAll elements ↔ ∀ element ∈ elements, element.Plain := by
  induction elements with
  | nil => simp only [PlainAll, List.not_mem_nil, false_implies, implies_true]
  | cons element more ih => simp only [PlainAll, ih, List.forall_mem_cons]

/-- The text of a token begins no tag. -/
def Token.Plain : Token → Prop
  | .text raw => '<' ∉ raw
  | _ => True

/-- The token is neither text nor a tag. -/
def Token.isQuiet : Token → Bool
  | .characterData _ | .silent | .broken _ => true
  | _ => false

theorem Token.plain_of_isQuiet {token : Token} (h : token.isQuiet = true) : token.Plain := by
  cases token with
  | text => cases h
  | characterData | silent | start | empty | stop | broken => trivial

/-- A text that begins with neither mark. -/
theorem ne_marks_of_head? {text : List Char} (hmark : ∀ rest, text ≠ '!' :: rest)
    (hquestion : ∀ rest, text ≠ '?' :: rest) : ∀ c ∈ text.head?, c ≠ '!' ∧ c ≠ '?' := by
  intro c hc
  obtain ⟨rest, rfl⟩ := List.head?_eq_some_iff.mp hc
  exact ⟨fun he => hmark rest (he ▸ rfl), fun he => hquestion rest (he ▸ rfl)⟩

/-- A construct makes tokens that are neither text nor tags, or it is a tag and begins with no
mark. -/
theorem construct?_cases {text : List Char} {construct : Construct}
    (h : construct? text = some construct) :
    (∀ body, (construct.token body).isQuiet = true) ∨
      construct = ⟨splitTag none [] text, .openTag, tagToken⟩ ∧
        ∀ c ∈ text.head?, c ≠ '!' ∧ c ≠ '?' := by
  have hcomment : ∀ body, (commentToken body).isQuiet = true := fun body => by
    unfold commentToken; split <;> rfl
  have hdata : ∀ body, (characterDataToken body).isQuiet = true := fun body => by
    unfold characterDataToken; split <;> rfl
  have htype : ∀ body, (documentTypeToken body).isQuiet = true := fun body => by
    unfold documentTypeToken
    split
    · split <;> rfl
    · rfl
  have hinstruction : ∀ body, (instructionToken body).isQuiet = true := fun body => by
    unfold instructionToken; split <;> rfl
  unfold construct? at h
  split at h
  · cases h; exact .inl hcomment
  · cases h; exact .inl hdata
  · cases h; exact .inl htype
  · cases h; exact .inl htype
  · cases h
  · cases h; exact .inl hinstruction
  · next hmark hquestion =>
    cases h
    exact .inr ⟨rfl, ne_marks_of_head? hmark hquestion⟩

/-- What a construct makes is no text. -/
theorem plain_of_construct? {text : List Char} {construct : Construct}
    (h : construct? text = some construct) (body : List Char) : (construct.token body).Plain := by
  rcases construct?_cases h with hquiet | ⟨rfl, -⟩
  · exact Token.plain_of_isQuiet (hquiet body)
  · dsimp only
    unfold tagToken
    split
    · trivial
    · split <;> trivial

/-- No text among the tokens of a document begins a tag. -/
theorem plain_of_mem_scan (place : Nat) (text : List Char) :
    ∀ placed ∈ scan place text, placed.token.Plain := by
  fun_induction scan place text with
  | case1 place => simp only [List.not_mem_nil, false_implies, implies_true]
  | case2 => simp only [List.mem_singleton, forall_eq, Token.Plain]
  | case3 => simp only [List.mem_singleton, forall_eq, Token.Plain]
  | case4 place rest construct found body more ends after ih =>
    exact List.forall_mem_cons.mpr ⟨plain_of_construct? found body, ih⟩
  | case5 place c rest hc raw after ih =>
    refine List.forall_mem_cons.mpr ⟨?_, ih⟩
    intro hm
    rcases List.mem_cons.mp hm with rfl | hm
    · exact hc rfl
    · have := List.mem_takeWhile_imp hm
      simp at this

/-- The number of elements in the elements that are open, and the open ones themselves. -/
def OpenElement.sizeAll : List OpenElement → Nat
  | [] => 0
  | element :: rest => Element.sizeAll element.children + 1 + sizeAll rest

namespace OpenElements

/-- The number of elements so far, those that are open included. -/
def size (elements : OpenElements) : Nat :=
  Element.sizeAll elements.inner.children + OpenElement.sizeAll elements.outer

/-- No text so far begins a tag. -/
def Plain (elements : OpenElements) : Prop :=
  ∀ element ∈ elements.inner :: elements.outer,
    '<' ∉ element.text ∧ Element.PlainAll element.children

/-- What a token that is taken does to the open elements. -/
inductive Takes (maxDepth : Nat) : OpenElements → Token → OpenElements → Prop where
  /-- Text is added to the inner element. -/
  | text {elements : OpenElements} (raw : List Char) :
      Takes maxDepth elements (.text raw) (elements.addText raw)
  /-- Character data is added in its written form. -/
  | characterData {elements : OpenElements} (content : List Char) :
      Takes maxDepth elements (.characterData content)
        (elements.addText (Text.escapeMarkup content))
  /-- Comments and the like change nothing. -/
  | silent {elements : OpenElements} : Takes maxDepth elements .silent elements
  /-- A start tag within the limit opens an element. -/
  | start {elements : OpenElements} {content : List Char} {attributes : List (String × String)}
      (room : elements.depth < maxDepth) (read : attributesOf content = .ok attributes) :
      Takes maxDepth elements (.start content)
        ⟨{ name := tagName content, attributes }, elements.inner :: elements.outer⟩
  /-- The tag of an element without content adds that element. -/
  | empty {elements : OpenElements} {content : List Char} {attributes : List (String × String)}
      (read : attributesOf content = .ok attributes) :
      Takes maxDepth elements (.empty content)
        (elements.addChild { name := String.ofList (tagName content), attributes })
  /-- An end tag closes the inner element. -/
  | stop (inner parent : OpenElement) (more : List OpenElement) :
      Takes maxDepth ⟨inner, parent :: more⟩ (.stop inner.name)
        (addChild ⟨parent, more⟩ inner.close)

variable {maxDepth : Nat} {elements next : OpenElements} {placed : PlacedToken}

/-- A token that is taken does what it is taken for. -/
theorem takes_of_step (h : step maxDepth elements placed = .ok next) :
    Takes maxDepth elements placed.token next := by
  obtain ⟨token, place⟩ := placed
  cases token with
  | text raw => cases h; exact .text raw
  | characterData content => cases h; exact .characterData content
  | silent => cases h; exact .silent
  | start content =>
    simp only [step] at h
    split at h
    · cases h
    · next hroom =>
      split at h
      · cases h
      · next attributes hread =>
        cases h
        exact .start (Nat.not_lt.mp hroom) hread
  | empty content =>
    simp only [step] at h
    split at h
    · cases h
    · next attributes hread =>
      cases h
      exact .empty hread
  | stop name =>
    obtain ⟨inner, outer⟩ := elements
    cases outer with
    | nil => cases h
    | cons parent more =>
      simp only [step] at h
      split at h
      · next hname =>
        cases h
        subst hname
        exact .stop inner parent more
      · cases h
  | broken fault => cases h

/-- A token that makes an element adds one to the number of elements. -/
theorem size_step (h : step maxDepth elements placed = .ok next) :
    next.size = elements.size + if placed.token.isElement then 1 else 0 := by
  obtain ⟨token, place⟩ := placed
  cases takes_of_step h with
  | text raw | characterData content | silent => rfl
  | start room read =>
    simp only [size, OpenElement.sizeAll, Element.sizeAll, Token.isElement, if_true]
    omega
  | empty read =>
    simp only [size, addChild, Element.sizeAll, Element.size, Token.isElement, if_true]
    omega
  | stop inner parent more =>
    simp only [size, addChild, OpenElement.sizeAll, OpenElement.close, Element.sizeAll,
      Element.size, Element.sizeAll_reverse, Token.isElement, Bool.false_eq_true, if_false]
    omega

/-- Text that begins no tag may be added. -/
theorem Plain.addText (h : elements.Plain) {raw : List Char} (hr : '<' ∉ raw) :
    (elements.addText raw).Plain := by
  obtain ⟨⟨htext, hchildren⟩, houter⟩ := List.forall_mem_cons.mp h
  exact List.forall_mem_cons.mpr
    ⟨⟨fun hm => (List.mem_append.mp hm).elim htext hr, hchildren⟩, houter⟩

theorem Plain.addChild (h : elements.Plain) {child : Element} (hc : child.Plain) :
    (elements.addChild child).Plain := by
  obtain ⟨⟨htext, hchildren⟩, houter⟩ := List.forall_mem_cons.mp h
  exact List.forall_mem_cons.mpr ⟨⟨htext, hc, hchildren⟩, houter⟩

/-- A token whose text begins no tag leaves it so that no text begins a tag. -/
theorem plain_step (h : step maxDepth elements placed = .ok next) (ht : placed.token.Plain)
    (hp : elements.Plain) : next.Plain := by
  obtain ⟨token, place⟩ := placed
  cases takes_of_step h with
  | text raw => exact hp.addText ht
  | characterData content => exact hp.addText (Text.lt_not_mem_escapeMarkup content)
  | silent => exact hp
  | start room read => exact List.forall_mem_cons.mpr ⟨⟨List.not_mem_nil, trivial⟩, hp⟩
  | empty read => exact hp.addChild ⟨List.not_mem_nil, trivial⟩
  | stop inner parent more =>
    obtain ⟨⟨htext, hchildren⟩, houter⟩ := List.forall_mem_cons.mp hp
    have hmore : Plain ⟨parent, more⟩ := houter
    refine hmore.addChild ⟨?_, ?_⟩
    · rw [String.toList_ofList]
      exact htext
    · rw [Element.plainAll_iff] at hchildren ⊢
      exact fun element he => hchildren element (List.mem_reverse.mp he)

/-- What a token and those behind it hand on to the tokens behind it is handed on to the end. -/
theorem holds_foldlM {maxDepth : Nat} (holds : List PlacedToken → OpenElements → Prop)
    (hstep : ∀ {one : PlacedToken} {more : List PlacedToken} {elements next : OpenElements},
      step maxDepth elements one = .ok next → holds (one :: more) elements → holds more next)
    {placed : List PlacedToken} {elements last : OpenElements}
    (h : placed.foldlM (step maxDepth) elements = .ok last) (hfirst : holds placed elements) :
    holds [] last := by
  induction placed generalizing elements with
  | nil => cases h; exact hfirst
  | cons one more ih =>
    rw [List.foldlM_cons] at h
    cases hs : step maxDepth elements one with
    | error refusal => rw [hs] at h; cases h
    | ok next =>
      rw [hs] at h
      exact ih h (hstep hs hfirst)

/-- Tokens one after the other add the elements that they make: the number so far and the number of
elements still to come add up to the same. -/
theorem size_foldlM {maxDepth : Nat} {placed : List PlacedToken} {elements last : OpenElements}
    (h : placed.foldlM (step maxDepth) elements = .ok last) :
    last.size = elements.size + placed.countP fun one => one.token.isElement := by
  refine holds_foldlM (fun tokens state => state.size +
    tokens.countP (fun one => one.token.isElement) =
      elements.size + placed.countP fun one => one.token.isElement) ?_ h rfl
  intro one more before next hs hsum
  rw [List.countP_cons] at hsum
  rw [size_step hs]
  omega

/-- Tokens one after the other whose texts begin no tag leave it so that no text begins a tag. -/
theorem plain_foldlM {maxDepth : Nat} {placed : List PlacedToken} {elements last : OpenElements}
    (h : placed.foldlM (step maxDepth) elements = .ok last)
    (ht : ∀ one ∈ placed, one.token.Plain) (hp : elements.Plain) : last.Plain := by
  refine (holds_foldlM (fun tokens state =>
    (∀ one ∈ tokens, one.token.Plain) ∧ state.Plain) ?_ h ⟨ht, hp⟩).2
  intro one more before next hs hplain
  obtain ⟨hone, hmore⟩ := List.forall_mem_cons.mp hplain.1
  exact ⟨hmore, plain_step hs hone hplain.2⟩

end OpenElements

/-- A document is read when its tokens are taken and leave no element open. -/
theorem readDocument_cases {maxDepth : Nat} {text : String} {document : Element}
    (h : readDocument maxDepth text = .ok document) :
    ∃ inner, (tokens text.toList).foldlM (OpenElements.step maxDepth) .document = .ok ⟨inner, []⟩ ∧
      document = inner.close := by
  rw [readDocument] at h
  cases hf : (tokens text.toList).foldlM (OpenElements.step maxDepth) .document with
  | error refusal => rw [hf] at h; cases h
  | ok last =>
    rw [hf] at h
    obtain ⟨inner, outer⟩ := last
    cases outer with
    | cons parent more => cases h
    | nil =>
      cases h
      exact ⟨inner, rfl, rfl⟩

/-- What is read as a document has as many elements as its text, and no text in it begins a tag. -/
theorem readDocument_spec {maxDepth : Nat} {text : String} {document : Element}
    (h : readDocument maxDepth text = .ok document) :
    Element.sizeAll document.children = elementCount text ∧
      Element.PlainAll document.children := by
  obtain ⟨inner, hf, rfl⟩ := readDocument_cases h
  have hsize := OpenElements.size_foldlM hf
  have htokens : ∀ one ∈ tokens text.toList, one.token.Plain := by
    unfold tokens
    split
    · simp only [List.not_mem_nil, false_implies, implies_true]
    · split <;> exact plain_of_mem_scan _ _
  have hstart : OpenElements.document.Plain := by
    intro element he
    rw [List.mem_singleton.mp he]
    exact ⟨List.not_mem_nil, trivial⟩
  have hplain := OpenElements.plain_foldlM hf htokens hstart
  constructor
  · have hlast : OpenElements.size ⟨inner, []⟩ = Element.sizeAll inner.children := rfl
    have hfirst : OpenElements.document.size = 0 := rfl
    rw [OpenElement.close, Element.sizeAll_reverse, ← hlast, hsize, hfirst, Nat.zero_add,
      elementCount]
  · obtain ⟨-, hchildren⟩ := hplain inner List.mem_cons_self
    rw [Element.plainAll_iff] at hchildren ⊢
    exact fun element he => hchildren element (List.mem_reverse.mp he)

/-- A text without tags has no elements. -/
theorem countP_scan (place : Nat) (text : List Char) (h : '<' ∉ text) :
    (scan place text).countP (fun placed => placed.token.isElement) = 0 := by
  fun_induction scan place text with
  | case1 place => rfl
  | case2 => simp at h
  | case3 => simp at h
  | case4 => simp at h
  | case5 place c rest hc raw after ih =>
    have hrest : '<' ∉ rest.dropWhile (· != '<') := fun hm =>
      h (List.mem_cons_of_mem _ ((List.dropWhile_sublist _).mem hm))
    rw [List.countP_cons, ih hrest]
    rfl

/-- A blank text is read as a document without elements. -/
theorem children_eq_nil_of_blank {maxDepth : Nat} {text : String} {document : Element}
    (hblank : Text.trimmed text = "") (h : readDocument maxDepth text = .ok document) :
    document.children = [] := by
  have htags : '<' ∉ text.toList := fun hm => Text.trimmed_ne_of_mem (by decide) hm hblank
  have hcount : elementCount text = 0 := by
    unfold elementCount tokens
    split
    · rfl
    · next c rest htext =>
      rw [htext] at htags
      split
      · exact countP_scan 0 rest fun hm => htags (List.mem_cons_of_mem _ hm)
      · exact countP_scan 0 (c :: rest) htags
  have hsize := (readDocument_spec h).1
  rw [hcount] at hsize
  cases hchildren : document.children with
  | nil => rfl
  | cons element more =>
    obtain ⟨name, attributes, own, children⟩ := element
    rw [hchildren, Element.sizeAll, Element.size] at hsize
    omega

end Rulebook.Markup
