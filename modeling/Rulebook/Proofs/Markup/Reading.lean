import Rulebook.Markup.Element
import Rulebook.Proofs.Markup.Tags

/-!
# Written documents are read back

Reading goes on from a place in a text with the elements that are open there. Each part that is
written by `Event.render` has one effect on the open elements: tags open, close or add elements, and
texts are added to the innermost one. A start tag deeper than the limit stops the reader.
-/

namespace Rulebook.Markup

open Rulebook.Text (byteSize)

/-- Reads a text from a place on with elements open. -/
def OpenElements.readFrom (maxDepth : Nat) (elements : OpenElements) (place : Nat)
    (text : List Char) : Except Refusal OpenElements :=
  (scan place text).foldlM (OpenElements.step maxDepth) elements

namespace OpenElements

theorem readFrom_nil (maxDepth : Nat) (elements : OpenElements) (place : Nat) :
    readFrom maxDepth elements place [] = .ok elements := by
  rw [readFrom, scan]
  rfl

/-- What is read after one token. -/
theorem readFrom_of_scan {place after : Nat} {token : Token} {text rest : List Char}
    (h : scan place text = ⟨token, after⟩ :: scan after rest) (maxDepth : Nat)
    (elements : OpenElements) :
    readFrom maxDepth elements place text =
      (step maxDepth elements ⟨token, after⟩ >>= fun next =>
        readFrom maxDepth next after rest) := by
  rw [readFrom, h, List.foldlM_cons]
  rfl

end OpenElements

/-- Text up to a bracket or the end is one token. -/
theorem scan_text {raw rest : List Char} (hne : raw ≠ []) (hraw : '<' ∉ raw)
    (hrest : rest.head?.any (· != '<') = false) (place : Nat) :
    scan place (raw ++ rest) =
      ⟨.text raw, place + byteSize raw⟩ :: scan (place + byteSize raw) rest := by
  obtain ⟨c, more, rfl⟩ := List.exists_cons_of_ne_nil hne
  have hc : c ≠ '<' := fun he => hraw (he ▸ List.mem_cons_self)
  have hm : ∀ d ∈ more, (d != '<') = true := fun d hd => by
    have : d ≠ '<' := fun he => hraw (he ▸ List.mem_cons_of_mem _ hd)
    simpa using this
  obtain ⟨ht, hd⟩ := takeWhile_name hm rest hrest
  rw [List.cons_append, scan]
  simp only [hc, if_false]
  rw [ht, hd]

/-- A tag is one token; its content neither begins with a mark nor ends early. -/
theorem scan_tag (body : List Char) {rest : List Char} (hc : construct? (body ++ '>' :: rest) =
      some ⟨splitTag none [] (body ++ '>' :: rest), .openTag, tagToken⟩)
    (hs : splitTag none [] (body ++ '>' :: rest) = some (body, rest)) (place : Nat) :
    ∃ after,
      scan place ('<' :: (body ++ '>' :: rest)) = ⟨tagToken body, after⟩ :: scan after rest := by
  refine ⟨place + 1 + byteSize body + 1, ?_⟩
  rw [scan]
  simp only [if_true]
  split
  · next hnone =>
    rw [hc] at hnone
    cases hnone
  · next construct hsome =>
    rw [hc] at hsome
    cases hsome
    split
    · next hend =>
      rw [hs] at hend
      cases hend
    · next found more hend =>
      rw [hs] at hend
      cases hend
      rfl

/-- The content of a tag begins with a character of its name. -/
theorem exists_content_cons {name : String} (hn : IsName name)
    (attributes : List (String × String)) :
    ∃ first more, Event.contentChars name attributes = first :: more ∧ isNameChar first = true := by
  obtain ⟨first, more, hf⟩ := List.exists_cons_of_ne_nil hn.1
  exact ⟨first, more ++ attributes.flatMap Event.attributeChars,
    by rw [Event.contentChars, hf, List.cons_append], hn.2 first (by simp [hf])⟩

/-- The content of a tag begins no construct with a mark. -/
theorem construct?_content {name : String} (hn : IsName name) (attributes : List (String × String))
    (rest : List Char) :
    construct? (Event.contentChars name attributes ++ rest) =
      some ⟨splitTag none [] (Event.contentChars name attributes ++ rest), .openTag, tagToken⟩ := by
  obtain ⟨first, more, hf, hc⟩ := exists_content_cons hn attributes
  have h0 : first ≠ '!' := isNameChar_ne hc (by decide)
  have h1 : first ≠ '?' := isNameChar_ne hc (by decide)
  rw [hf, List.cons_append]
  unfold construct?
  split
  · next heq => exact absurd (List.cons.inj heq).1 h0
  · next heq => exact absurd (List.cons.inj heq).1 h0
  · next heq => exact absurd (List.cons.inj heq).1 h0
  · next heq => exact absurd (List.cons.inj heq).1 h0
  · next heq => exact absurd (List.cons.inj heq).1 h0
  · next heq => exact absurd (List.cons.inj heq).1 h1
  · rfl

/-- The content of a tag does not end with a slash. -/
theorem getLast?_content_ne {name : String} (hn : IsName name)
    (attributes : List (String × String)) :
    (Event.contentChars name attributes).getLast? ≠ some '/' := by
  rw [Event.contentChars]
  rcases List.eq_nil_or_concat attributes with rfl | ⟨front, last, rfl⟩
  · rw [List.flatMap_nil, List.append_nil, List.getLast?_eq_some_getLast hn.1]
    intro he
    have hm := hn.2 _ (List.getLast_mem hn.1)
    rw [Option.some.inj he] at hm
    exact absurd hm (by decide)
  · have hq : (Event.attributeChars last).getLast? = some '"' := by
      simp [Event.attributeChars, List.getLast?_append, List.getLast?_cons]
    have hne : Event.attributeChars last ≠ [] := List.cons_ne_nil _ _
    rw [List.concat_eq_append, List.flatMap_append, List.flatMap_singleton, ←List.append_assoc,
      List.getLast?_append_of_ne_nil _ hne, hq]
    decide

/-- The token of a written start tag. -/
theorem tagToken_start {name : String} (hn : IsName name) (attributes : List (String × String)) :
    tagToken (Event.contentChars name attributes) =
      .start (Event.contentChars name attributes) := by
  obtain ⟨first, more, hf, hc⟩ := exists_content_cons hn attributes
  have h0 : first ≠ '/' := isNameChar_ne hc (by decide)
  have hl := getLast?_content_ne hn attributes
  unfold tagToken
  split
  · next heq =>
    rw [hf] at heq
    exact absurd (List.cons.inj heq).1 h0
  · rw [if_neg hl]

/-- The token of a written tag of an empty element. -/
theorem tagToken_empty {name : String} (hn : IsName name) (attributes : List (String × String)) :
    tagToken (Event.contentChars name attributes ++ ['/']) =
      .empty (Event.contentChars name attributes) := by
  obtain ⟨first, more, hf, hc⟩ := exists_content_cons hn attributes
  have h0 : first ≠ '/' := isNameChar_ne hc (by decide)
  unfold tagToken
  split
  · next heq =>
    rw [hf] at heq
    exact absurd (List.cons.inj heq).1 h0
  · rw [if_pos (by simp), List.dropLast_concat]

/-- The token of a written end tag. -/
theorem tagToken_stop {name : String} (hn : IsName name) :
    tagToken ('/' :: name.toList) = .stop name.toList := by
  have hall : name.toList.all isSpace = false := by
    obtain ⟨first, more, hf⟩ := List.exists_cons_of_ne_nil hn.1
    have hs := isSpace_of_isNameChar (hn.2 first (by simp [hf]))
    simp [hf, hs]
  have hlast : name.toList.reverse.dropWhile isSpace = name.toList.reverse := by
    cases hr : name.toList.reverse with
    | nil => rfl
    | cons c more =>
      have hm : c ∈ name.toList := List.mem_reverse.mp (hr ▸ List.mem_cons_self)
      exact List.dropWhile_cons_of_neg (by rw [isSpace_of_isNameChar (hn.2 c hm)]; decide)
  rw [tagToken, endName, hall, hlast, List.reverse_reverse]
  rfl

namespace OpenElements

/-- A written start tag opens an element if the limit allows it. -/
theorem readFrom_start {name : String} (hn : IsName name) {attributes : List (String × String)}
    (ha : ∀ entry ∈ attributes, IsName entry.1)
    (hd : (attributes.map fun entry => entry.1.toList).Nodup) (maxDepth : Nat)
    (elements : OpenElements) (place : Nat) (rest : List Char) :
    ∃ after, readFrom maxDepth elements place ((Event.start name attributes).chars ++ rest) =
      if maxDepth < elements.depth + 1 then .error (.tooDeep maxDepth)
      else readFrom maxDepth ⟨{ name := name.toList, attributes }, elements.inner :: elements.outer⟩
        after rest := by
  have hc := construct?_content hn attributes ('>' :: rest)
  have hs := splitTag_content hn ha [] ('>' :: rest)
  rw [List.append_nil, splitTag_end, List.reverse_reverse] at hs
  obtain ⟨after, hscan⟩ := scan_tag _ hc hs place
  have hw : (Event.start name attributes).chars ++ rest =
      '<' :: (Event.contentChars name attributes ++ '>' :: rest) := by
    simp [Event.chars]
  refine ⟨after, ?_⟩
  rw [hw, readFrom_of_scan hscan, tagToken_start hn, step]
  dsimp only
  split
  · rfl
  · rw [attributesOf_content hn ha hd, tagName_content hn]
    rfl

/-- A written tag of an empty element adds the element. -/
theorem readFrom_empty {name : String} (hn : IsName name) {attributes : List (String × String)}
    (ha : ∀ entry ∈ attributes, IsName entry.1)
    (hd : (attributes.map fun entry => entry.1.toList).Nodup) (maxDepth : Nat)
    (elements : OpenElements) (place : Nat) (rest : List Char) :
    ∃ after, readFrom maxDepth elements place ((Event.empty name attributes).chars ++ rest) =
      readFrom maxDepth (elements.addChild { name, attributes }) after rest := by
  have hc := construct?_content hn attributes ('/' :: '>' :: rest)
  have hs := splitTag_content hn ha [] ('/' :: '>' :: rest)
  have hslash := splitTag_plain ['/'] (by simp)
    ((Event.contentChars name attributes).reverse ++ []) ('>' :: rest)
  rw [List.cons_append, List.nil_append] at hslash
  rw [hslash, splitTag_end] at hs
  have hw : (Event.empty name attributes).chars ++ rest =
      '<' :: ((Event.contentChars name attributes ++ ['/']) ++ '>' :: rest) := by
    simp [Event.chars]
  have hb : Event.contentChars name attributes ++ '/' :: '>' :: rest =
      (Event.contentChars name attributes ++ ['/']) ++ '>' :: rest := by simp
  rw [hb] at hc hs
  have hr : (['/'].reverse ++ ((Event.contentChars name attributes).reverse ++ [])).reverse =
      Event.contentChars name attributes ++ ['/'] := by simp
  rw [hr] at hs
  obtain ⟨after, hscan⟩ := scan_tag _ hc hs place
  refine ⟨after, ?_⟩
  rw [hw, readFrom_of_scan hscan, tagToken_empty hn, step]
  dsimp only
  rw [attributesOf_content hn ha hd, tagName_content hn, String.ofList_toList]
  rfl

/-- A written end tag closes the innermost element if it has its name. -/
theorem readFrom_stop {name : String} (hn : IsName name) (maxDepth : Nat) (inner : OpenElement)
    (hi : inner.name = name.toList) (parent : OpenElement) (outer : List OpenElement) (place : Nat)
    (rest : List Char) :
    ∃ after, readFrom maxDepth ⟨inner, parent :: outer⟩ place ((Event.stop name).chars ++ rest) =
      readFrom maxDepth (OpenElements.addChild ⟨parent, outer⟩ inner.close) after rest := by
  have hs := splitTag_plain ['/'] (by simp) [] (name.toList ++ '>' :: rest)
  rw [splitTag_name hn, splitTag_end] at hs
  have hw : (Event.stop name).chars ++ rest = '<' :: ('/' :: name.toList ++ '>' :: rest) := by
    simp [Event.chars]
  have hr : (name.toList.reverse ++ (['/'].reverse ++ [])).reverse = '/' :: name.toList := by simp
  rw [hr] at hs
  obtain ⟨after, hscan⟩ := scan_tag ('/' :: name.toList) rfl hs place
  refine ⟨after, ?_⟩
  rw [hw, readFrom_of_scan hscan, tagToken_stop hn, step]
  dsimp only
  rw [if_pos hi.symm]
  rfl

/-- Written text is added to the innermost element. -/
theorem readFrom_text {raw : List Char} (hraw : '<' ∉ raw) (rest : List Char)
    (hrest : rest.head?.any (· != '<') = false) (maxDepth : Nat) (elements : OpenElements)
    (place : Nat) :
    ∃ after, readFrom maxDepth elements place (raw ++ rest) =
      readFrom maxDepth (elements.addText raw) after rest := by
  cases raw with
  | nil => exact ⟨place, by simp [addText]⟩
  | cons c more =>
    have hscan := scan_text (List.cons_ne_nil c more) hraw hrest place
    exact ⟨_, readFrom_of_scan hscan maxDepth elements⟩

/-- A part that is a tag may begin a line; the line break is added to the innermost element. -/
theorem readFrom_line (event : Event) (he : event.chars.head? = some '<')
    (ht : event.isText = false) (maxDepth : Nat) (elements : OpenElements) (place depth : Nat)
    (breaks : Bool) (more : List Event) :
    ∃ line after, readFrom maxDepth elements place (Event.render depth breaks (event :: more)) =
      readFrom maxDepth (elements.addText line) after
        (event.chars ++ Event.render (event.depthBehind depth) true more) := by
  cases breaks with
  | false => exact ⟨[], place, by simp [Event.render, ht, addText]⟩
  | true =>
    have hw : Event.render depth true (event :: more) =
        ('\n' :: List.replicate (2 * event.lineDepth depth) ' ') ++
          (event.chars ++ Event.render (event.depthBehind depth) true more) := by
      simp [Event.render, ht]
    have hline : '<' ∉ '\n' :: List.replicate (2 * event.lineDepth depth) ' ' := by
      simp [List.mem_replicate]
    obtain ⟨after, h⟩ := readFrom_text hline (event.chars ++
      Event.render (event.depthBehind depth) true more) (by simp [List.head?_append, he])
      maxDepth elements place
    exact ⟨_, after, by rw [hw, h]⟩

end OpenElements

/-- A document that begins with a tag is read from its first character on. -/
theorem readDocument_eq_readFrom (maxDepth : Nat) {text : String} {rest : List Char}
    (h : text.toList = '<' :: rest) :
    readDocument maxDepth text =
      (OpenElements.readFrom maxDepth .document 0 text.toList >>= OpenElements.finish) := by
  have htokens : tokens text.toList = scan 0 text.toList := by
    rw [h, tokens, if_neg (by decide)]
  rw [readDocument, htokens]
  rfl

end Rulebook.Markup
