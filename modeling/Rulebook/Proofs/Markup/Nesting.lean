import Rulebook.Proofs.Markup.Document

/-!
# How deep documents are nested

The limit for nested elements is tested at start tags only. So an element that has a start tag lies
within the limit, and an element without content that has a tag of its own may lie one deeper: a
document is nested within the limit exactly if each of these tags stands in fewer open elements than
the limit. What the open elements reach so far and what the tokens to come still add are carried
token by token.
-/

namespace Rulebook.Markup

mutual
/-- The number of elements inside each other in an element, itself included. -/
def Element.height : Element → Nat
  | ⟨_, _, _, children⟩ => Element.heightAll children + 1

/-- The depth at which the deepest of some elements lies, if they lie at depth one. -/
def Element.heightAll : List Element → Nat
  | [] => 0
  | element :: more => max element.height (Element.heightAll more)
end

/-- Elements of two lists lie as deep as the deeper ones. -/
theorem Element.heightAll_append (left right : List Element) :
    heightAll (left ++ right) = max (heightAll left) (heightAll right) := by
  induction left with
  | nil => rw [List.nil_append, heightAll, Nat.zero_max]
  | cons element more ih => rw [List.cons_append, heightAll, heightAll, ih, Nat.max_assoc]

/-- The order of elements does not matter for their depth. -/
theorem Element.heightAll_reverse (elements : List Element) :
    heightAll elements.reverse = heightAll elements := by
  induction elements with
  | nil => rfl
  | cons element more ih =>
    rw [List.reverse_cons, heightAll_append, ih, heightAll, heightAll, heightAll, Nat.max_zero,
      Nat.max_comm]

theorem OpenElement.height_close (element : OpenElement) :
    element.close.height = Element.heightAll element.children + 1 := by
  rw [close, Element.height, Element.heightAll_reverse]

/-- The token is the tag of an element without content. -/
def Token.isEmptyTag : Token → Bool
  | .empty _ => true
  | _ => false

/-- The number of elements that are open behind a token, from the number of those before it. -/
def Token.depthBehind (depth : Nat) : Token → Nat
  | .start _ => depth + 1
  | .stop _ => depth - 1
  | _ => depth

/-- The number of elements that are open behind tokens. -/
def depthBehind (placed : List PlacedToken) : Nat :=
  placed.foldl (fun depth one => one.token.depthBehind depth) 0

/-- Each tag of an element without content stands in fewer open elements than the limit; `depth`
elements are open in front of the tokens. -/
def EmptyWithin (limit depth : Nat) : List PlacedToken → Prop
  | [] => True
  | one :: more =>
    (one.token.isEmptyTag = true → depth < limit) ∧
      EmptyWithin limit (one.token.depthBehind depth) more

/-- The depth that the elements in open elements reach. -/
def OpenElement.reachAll : List OpenElement → Nat
  | [] => 0
  | element :: rest => max (Element.heightAll element.children + rest.length) (reachAll rest)

namespace OpenElements

variable {maxDepth : Nat} {elements next : OpenElements} {placed : PlacedToken}

/-- The depth that the elements so far reach. -/
def reach (elements : OpenElements) : Nat := OpenElement.reachAll (elements.inner :: elements.outer)

theorem depth_step (h : step maxDepth elements placed = .ok next) :
    next.depth = placed.token.depthBehind elements.depth := by
  obtain ⟨token, place⟩ := placed
  cases takes_of_step h <;> rfl

/-- A token that makes an element makes it one deeper than the open elements. -/
theorem reach_step (h : step maxDepth elements placed = .ok next) :
    next.reach =
      max elements.reach (if placed.token.isElement then elements.depth + 1 else 0) := by
  obtain ⟨token, place⟩ := placed
  cases takes_of_step h with
  | text raw | characterData content | silent => exact (Nat.max_zero _).symm
  | start room read =>
    simp only [reach, OpenElement.reachAll, Element.heightAll, depth, Token.isElement,
      List.length_cons, if_true]
    omega
  | empty read =>
    simp only [reach, addChild, OpenElement.reachAll, Element.heightAll, Element.height, depth,
      Token.isElement, if_true]
    omega
  | stop inner parent more =>
    simp only [reach, addChild, OpenElement.reachAll, Element.heightAll,
      OpenElement.height_close, Token.isElement, List.length_cons, Bool.false_eq_true, if_false]
    omega

/-- The open elements are no more than the limit. -/
theorem depth_le_step (h : step maxDepth elements placed = .ok next)
    (hd : elements.depth ≤ maxDepth) : next.depth ≤ maxDepth := by
  rw [depth_step h]
  obtain ⟨token, place⟩ := placed
  cases takes_of_step h with
  | start room read => exact room
  | stop inner parent more => exact Nat.le_trans (Nat.sub_le _ _) hd
  | text raw | characterData content | silent | empty read => exact hd

/-- A token that makes an element reaches beyond the limit only if it is the tag of an element
without content in as many open elements as the limit. -/
theorem reach_le_step_iff (h : step maxDepth elements placed = .ok next) :
    next.reach ≤ maxDepth ↔
      elements.reach ≤ maxDepth ∧ (placed.token.isEmptyTag = true → elements.depth < maxDepth) := by
  rw [reach_step h, Nat.max_le]
  refine and_congr_right fun _ => ?_
  obtain ⟨token, place⟩ := placed
  cases takes_of_step h with
  | start room read =>
    simp only [Token.isElement, Token.isEmptyTag, if_true, Bool.false_eq_true, false_implies,
      iff_true]
    exact room
  | empty read =>
    simp only [Token.isElement, Token.isEmptyTag, if_true, true_implies]
    exact Nat.succ_le_iff
  | text raw | characterData content | silent | stop inner parent more =>
    simp [Token.isElement, Token.isEmptyTag]

end OpenElements

/-- A document that is read is nested at most one deeper than the limit, and it is nested within the
limit exactly if each tag of an element without content stands in fewer elements than the limit. -/
theorem heightAll_of_readDocument {maxDepth : Nat} {text : String} {document : Element}
    (h : readDocument maxDepth text = .ok document) :
    Element.heightAll document.children ≤ maxDepth + 1 ∧
      (Element.heightAll document.children ≤ maxDepth ↔
        EmptyWithin maxDepth 0 (tokens text.toList)) := by
  obtain ⟨inner, hf, rfl⟩ := readDocument_cases h
  have hreach : Element.heightAll inner.close.children = OpenElements.reach ⟨inner, []⟩ := by
    simp [OpenElement.close, Element.heightAll_reverse, OpenElements.reach, OpenElement.reachAll]
  rw [hreach]
  constructor
  · have hbound := OpenElements.holds_foldlM
      (fun _ state => state.depth ≤ maxDepth ∧ state.reach ≤ maxDepth + 1)
      (fun {one more elements next} hs hholds => ?_) hf ⟨Nat.zero_le _, Nat.zero_le _⟩
    · exact hbound.2
    · refine ⟨OpenElements.depth_le_step hs hholds.1, ?_⟩
      rw [OpenElements.reach_step hs]
      split
      · omega
      · omega
  · -- what is reached so far and what is still to come stay within the limit or not together
    have hiff := OpenElements.holds_foldlM
      (fun rest state => (state.reach ≤ maxDepth ∧ EmptyWithin maxDepth state.depth rest) ↔
        EmptyWithin maxDepth 0 (tokens text.toList))
      (fun {one more elements next} hs hholds => ?_) hf ?_
    · rw [← hiff, EmptyWithin, and_true]
    · rw [← hholds, EmptyWithin, OpenElements.reach_le_step_iff hs, OpenElements.depth_step hs,
        and_assoc]
    · exact and_iff_right (Nat.zero_le _)

end Rulebook.Markup
