import Rulebook.Proofs.Markup.Spelling

/-!
# Spellings of the content of an element

The content of an element is written in pieces: each one is text with references or a section of
character data, and comments may stand between them. Sections are kept in the form of text and
comments are left out, so however a content is cut and written, the element gets the same text. What
follows the content is read alike then, but for its places, which count the bytes that are written.
-/

namespace Rulebook.Markup

open Text (byteSize byteSize_cons byteSize_append)

/-- Two results are the same, or they are the same fault of the document at the same distance behind
a place of the one and a place of the other. -/
inductive SameFrom {α : Type} (one other : Nat) : Except Refusal α → Except Refusal α → Prop where
  /-- The same result. -/
  | same (result : Except Refusal α) : SameFrom one other result result
  /-- The same fault at the same distance. -/
  | moved (distance : Nat) (fault : SyntaxFault) :
      SameFrom one other (.error (.markup (.broken (one + distance) fault)))
        (.error (.markup (.broken (other + distance) fault)))

section

variable {α : Type} {one other stop shift : Nat} {first second : Except Refusal α}

/-- A fault that is moved stands at the same distance behind both places. -/
theorem SameBehind.sameFrom (h : SameBehind stop shift first second) :
    SameFrom stop (stop + shift) first second := by
  cases h with
  | same => exact .same _
  | @moved place fault behind =>
    obtain ⟨distance, rfl⟩ := Nat.exists_eq_add_of_le behind
    rw [Nat.add_right_comm]
    exact .moved distance fault

/-- It does not matter which of the two results comes first. -/
theorem SameFrom.symm (h : SameFrom one other first second) :
    SameFrom other one second first := by
  cases h with
  | same => exact .same _
  | moved distance fault => exact .moved distance fault

/-- Where one gives a value, the other gives the same. -/
theorem SameFrom.ok_iff (h : SameFrom one other first second) (value : α) :
    first = .ok value ↔ second = .ok value := by
  cases h with
  | same => exact Iff.rfl
  | moved distance fault => exact iff_of_false nofun nofun

end

section

variable {test : List Char → Bool} {before part opening content closing : List Char}

/-- Characters are passed if no closing bracket among them is admitted. -/
theorem splitClose_append
    (h : ∀ front back, part = front ++ '>' :: back → test (front.reverse ++ before) = false)
    (rest : List Char) :
    splitClose test before (part ++ rest) = splitClose test (part.reverse ++ before) rest := by
  induction part generalizing before with
  | nil => rfl
  | cons c more ih =>
    have hc : ¬ (c = '>' ∧ test before = true) := by
      rintro ⟨rfl, htest⟩
      have hfirst : test before = false := h [] more rfl
      rw [hfirst] at htest
      cases htest
    have hmore : ∀ front back, more = front ++ '>' :: back →
        test (front.reverse ++ c :: before) = false := by
      rintro front back rfl
      simpa using h (c :: front) back rfl
    rw [List.cons_append, splitClose, if_neg hc, ih hmore, List.reverse_cons, List.append_assoc]
    rfl

/-- What stands between the opening and the closing mark of a construct is found, if no closing
bracket in it is admitted. -/
theorem splitClose_marks (ho : '>' ∉ opening) (hc : '>' ∉ closing)
    (h : ∀ front back, content = front ++ '>' :: back →
      test (front.reverse ++ opening.reverse) = false)
    (hend : test (closing.reverse ++ (content.reverse ++ opening.reverse)) = true)
    (rest : List Char) :
    splitClose test [] (opening ++ (content ++ (closing ++ '>' :: rest))) =
      some (opening ++ (content ++ closing), rest) := by
  have hfree : ∀ {text : List Char}, '>' ∉ text → ∀ before front back,
      text = front ++ '>' :: back → test (front.reverse ++ before) = false := by
    rintro text hno before front back rfl
    exact absurd (List.mem_append_right front List.mem_cons_self) hno
  rw [splitClose_append (hfree ho _), List.append_nil, splitClose_append h,
    splitClose_append (hfree hc _), splitClose, if_pos ⟨rfl, hend⟩]
  simp

end

/-- The opening mark of a section of character data, without its bracket. -/
def dataMark : List Char := ['!', '[', 'C', 'D', 'A', 'T', 'A', '[']

/-- What stands between the brackets of a section of character data. -/
def dataBody (content : List Char) : List Char := dataMark ++ (content ++ [']', ']'])

/-- The opening mark of a comment, without its bracket. -/
def commentMark : List Char := ['!', '-', '-']

/-- What stands between the brackets of a comment. -/
def commentBody (content : List Char) : List Char := commentMark ++ (content ++ ['-', '-'])

/-- Two marks that stand before a bracket, far enough from the opening mark, stand with it in the
text that the bracket is taken from. -/
theorem infix_of_marks {mark : Char} {front opening : List Char} (hlength : 2 ≤ front.length)
    (h : [mark, mark].isPrefixOf (front.reverse ++ opening) = true) (back : List Char) :
    [mark, mark, '>'] <:+: front ++ '>' :: back := by
  have hreverse : [mark, mark] <+: front.reverse := by
    refine List.prefix_of_prefix_length_le (List.isPrefixOf_iff_prefix.mp h)
      (List.prefix_append _ _) ?_
    rw [List.length_reverse]
    exact hlength
  have hsuffix : [mark, mark] <:+ front := List.reverse_prefix.mp hreverse
  obtain ⟨more, rfl⟩ := hsuffix
  exact ⟨more, back, by simp⟩

/-- A section ends at its own bracket, if its content holds no end of a section. -/
theorem ends_dataBody {content : List Char} (h : ¬ [']', ']', '>'] <:+: content)
    (rest : List Char) :
    Ends (dataBody content ++ '>' :: rest) (dataBody content) rest (.characterData content) := by
  have htest : ∀ front back, content = front ++ '>' :: back →
      [']', ']'].isPrefixOf (front.reverse ++ dataMark.reverse) = false := by
    rintro front back rfl
    rw [Bool.eq_false_iff]
    intro hprefix
    have hlength : 2 ≤ front.length := by
      rcases front with _ | ⟨c, _ | ⟨d, more⟩⟩
      · cases hprefix
      · simp [dataMark] at hprefix
      · simp
    exact h (infix_of_marks hlength hprefix back)
  have hsplit : ∀ other, splitClose (fun before => [']', ']'].isPrefixOf before) []
      (dataBody content ++ '>' :: other) = some (dataBody content, other) := by
    intro other
    rw [dataBody, List.append_assoc, List.append_assoc]
    exact splitClose_marks (by decide) (by decide) htest rfl other
  have htoken : characterDataToken (dataBody content) = .characterData content := by
    have hmark : "![CDATA[".toList.isPrefixOf (dataBody content) = true :=
      List.isPrefixOf_iff_prefix.mpr (List.prefix_append _ _)
    have hbody : ((dataBody content).drop 8).dropLast.dropLast = content := by
      have hdrop : (dataBody content).drop 8 = (content ++ [']']) ++ [']'] := by
        rw [List.append_assoc]
        rfl
      rw [hdrop, List.dropLast_concat, List.dropLast_concat]
    rw [characterDataToken, if_pos hmark, hbody]
  exact ⟨rfl, fun other => ⟨_, rfl, hsplit other, htoken⟩⟩

/-- A comment ends at its own bracket, if its content holds no end of a comment. -/
theorem ends_commentBody {content : List Char} (h : ¬ ['-', '-', '>'] <:+: content)
    (rest : List Char) :
    Ends (commentBody content ++ '>' :: rest) (commentBody content) rest .silent := by
  have htest : ∀ front back, content = front ++ '>' :: back →
      (decide (4 < (front.reverse ++ commentMark.reverse).length) &&
        ['-', '-'].isPrefixOf (front.reverse ++ commentMark.reverse)) = false := by
    rintro front back rfl
    rw [Bool.eq_false_iff, ne_eq, Bool.and_eq_true, decide_eq_true_eq]
    rintro ⟨hlong, hprefix⟩
    have hlength : 2 ≤ front.length := by
      have hmark : commentMark.length = 3 := rfl
      rw [List.length_append, List.length_reverse, List.length_reverse, hmark] at hlong
      omega
    exact h (infix_of_marks hlength hprefix back)
  have hsplit : ∀ other, splitClose
      (fun before => decide (4 < before.length) && ['-', '-'].isPrefixOf before) []
        (commentBody content ++ '>' :: other) = some (commentBody content, other) := by
    intro other
    rw [commentBody, List.append_assoc, List.append_assoc]
    refine splitClose_marks (by decide) (by decide) htest ?_ other
    simp [commentMark]
  have htoken : commentToken (commentBody content) = .silent :=
    if_pos (List.isPrefixOf_iff_prefix.mpr (List.prefix_append _ _))
  exact ⟨rfl, fun other => ⟨_, rfl, hsplit other, htoken⟩⟩

/-- A piece of a content, or what may stand between pieces. -/
inductive Piece where
  /-- A piece that is written as text. -/
  | text (content : List Char)
  /-- A piece that is written as a section of character data. -/
  | data (content : List Char)
  /-- A comment. -/
  | comment (body : List Char)

namespace Piece

/-- What a piece adds to the content. -/
def content : Piece → List Char
  | .text content => content
  | .data content => content
  | .comment _ => []

/-- The written form: in text the characters that begin tags and references and the end of tags are
references. -/
def chars : Piece → List Char
  | .text content => Text.escapeMarkup content
  | .data content => '<' :: (dataBody content ++ ['>'])
  | .comment body => '<' :: (commentBody body ++ ['>'])

/-- A section and a comment hold no end of their own. -/
def Closed : Piece → Prop
  | .text _ => True
  | .data content => ¬ [']', ']', '>'] <:+: content
  | .comment body => ¬ ['-', '-', '>'] <:+: body

end Piece

namespace OpenElements

variable {maxDepth : Nat}

theorem addText_nil (elements : OpenElements) : elements.addText [] = elements := by
  rw [addText, List.append_nil]

theorem addText_addText (elements : OpenElements) (first second : List Char) :
    (elements.addText first).addText second = elements.addText (first ++ second) := by
  simp only [addText, List.append_assoc]

/-- Text in front of a bracket is added, and what follows is taken from its end on. -/
theorem foldlM_text {raw : List Char} (hraw : '<' ∉ raw) (elements : OpenElements) (place : Nat)
    (rest : List Char) : (scan place (raw ++ '<' :: rest)).foldlM (step maxDepth) elements =
      (scan (place + byteSize raw) ('<' :: rest)).foldlM (step maxDepth)
        (elements.addText raw) := by
  by_cases hnil : raw = []
  · subst hnil
    rw [addText_nil]
    rfl
  · rw [scan_text hnil hraw rfl, List.foldlM_cons]
    rfl

/-- A construct that only adds text, with text in front of it. -/
theorem foldlM_construct {body added raw : List Char} {token : Token}
    (hends : ∀ rest, Ends (body ++ '>' :: rest) body rest token)
    (hstep : ∀ elements place, step maxDepth elements ⟨token, place⟩ = .ok (elements.addText added))
    (hraw : '<' ∉ raw) (elements : OpenElements) (place : Nat) (rest : List Char) :
    (scan place (raw ++ '<' :: (body ++ '>' :: rest))).foldlM (step maxDepth) elements =
      (scan (place + byteSize raw + 1 + byteSize body + 1) rest).foldlM (step maxDepth)
        (elements.addText (raw ++ added)) := by
  rw [foldlM_text hraw, scan_of_ends (hends rest), List.foldlM_cons, hstep, ← addText_addText]
  rfl

/-- Pieces in front of a bracket, with text in front of them, add this text and their content in the
form of text; what follows is taken from their end on. The text in front may have begun before the
pieces, since text next to text is one token. -/
theorem foldlM_pieces {pieces : List Piece} (hclosed : ∀ piece ∈ pieces, piece.Closed)
    {raw : List Char} (hraw : '<' ∉ raw) (elements : OpenElements) (place : Nat)
    (back : List Char) :
    (scan place (raw ++ (pieces.flatMap Piece.chars ++ '<' :: back))).foldlM (step maxDepth)
        elements =
      (scan (place + byteSize (raw ++ pieces.flatMap Piece.chars)) ('<' :: back)).foldlM
        (step maxDepth)
        (elements.addText (raw ++ Text.escapeMarkup (pieces.flatMap Piece.content))) := by
  induction pieces generalizing raw elements place with
  | nil =>
    have hnone : Text.escapeMarkup [] = [] := rfl
    simp only [List.flatMap_nil, List.nil_append, List.append_nil, hnone]
    exact foldlM_text hraw elements place back
  | cons piece more ih =>
    obtain ⟨hpiece, hmore⟩ := List.forall_mem_cons.mp hclosed
    have hescape : ∀ first second : List Char, Text.escapeMarkup (first ++ second) =
        Text.escapeMarkup first ++ Text.escapeMarkup second := fun _ _ => List.flatMap_append
    have hthrough : ∀ {body added : List Char} {token : Token},
        (∀ rest, Ends (body ++ '>' :: rest) body rest token) →
        (∀ elements place, step maxDepth elements ⟨token, place⟩ = .ok (elements.addText added)) →
          (scan place (raw ++ (('<' :: (body ++ ['>']) ++ more.flatMap Piece.chars) ++
              '<' :: back))).foldlM (step maxDepth) elements =
            (scan (place + byteSize (raw ++ ('<' :: (body ++ ['>']) ++ more.flatMap Piece.chars)))
                ('<' :: back)).foldlM (step maxDepth)
              (elements.addText
                (raw ++ (added ++ Text.escapeMarkup (more.flatMap Piece.content)))) := by
      intro body added token hends hstep
      have hconstruct := foldlM_construct hends hstep hraw elements place
        (more.flatMap Piece.chars ++ '<' :: back)
      have hlater := ih hmore List.not_mem_nil (elements.addText (raw ++ added))
        (place + byteSize raw + 1 + byteSize body + 1)
      have hplace : place + byteSize raw + 1 + byteSize body + 1 +
          byteSize (more.flatMap Piece.chars) =
            place + byteSize (raw ++ ('<' :: (body ++ '>' :: more.flatMap Piece.chars))) := by
        rw [byteSize_append, byteSize_construct]
        omega
      simp only [List.nil_append, addText_addText, List.append_assoc, hplace] at hlater
      simp only [List.cons_append, List.append_assoc, List.nil_append] at hconstruct ⊢
      exact hconstruct.trans hlater
    rw [List.flatMap_cons, List.flatMap_cons, hescape]
    cases piece with
    | text content =>
      have hboth : '<' ∉ raw ++ Text.escapeMarkup content := fun hm =>
        (List.mem_append.mp hm).elim hraw (Text.lt_not_mem_escapeMarkup content)
      have hlater := ih hmore hboth elements place
      simp only [List.append_assoc] at hlater
      simp only [Piece.chars, Piece.content, List.append_assoc]
      exact hlater
    | data content => exact hthrough (ends_dataBody hpiece) fun _ _ => rfl
    | comment body =>
      have hsilent : ∀ elements place,
          step maxDepth elements ⟨.silent, place⟩ = .ok (elements.addText []) := by
        intro elements place
        rw [addText_nil]
        rfl
      exact hthrough (ends_commentBody hpiece) hsilent

end OpenElements

/-- A way to write a content. -/
structure Spelling (content : List Char) where
  /-- The pieces, with the comments between them. -/
  pieces : List Piece
  /-- The pieces make up the content. -/
  whole : pieces.flatMap Piece.content = content
  /-- No comment ends early. -/
  comments : ∀ body, .comment body ∈ pieces → ¬ ['-', '-', '>'] <:+: body

namespace Spelling

variable {content : List Char} (spelling : Spelling content)

/-- The content as it is written. -/
def chars : List Char := spelling.pieces.flatMap Piece.chars

/-- No section ends early if the content holds no end of a section. -/
theorem closed (h : ¬ [']', ']', '>'] <:+: content) : ∀ piece ∈ spelling.pieces, piece.Closed := by
  intro piece hp
  have hpart : piece.content <:+: content := by
    rw [← spelling.whole, List.flatMap_def]
    exact List.infix_of_mem_flatten (List.mem_map_of_mem hp)
  cases piece with
  | text content => trivial
  | data content => exact fun hends => h (hends.trans hpart)
  | comment body => exact spelling.comments body hp

/-- A written content in front of a bracket adds the content in the form of text. -/
theorem foldlM_chars (h : ¬ [']', ']', '>'] <:+: content) {maxDepth : Nat}
    (elements : OpenElements) (place : Nat) (back : List Char) :
    (scan place (spelling.chars ++ '<' :: back)).foldlM (OpenElements.step maxDepth) elements =
      (scan (place + byteSize spelling.chars) ('<' :: back)).foldlM (OpenElements.step maxDepth)
        (elements.addText (Text.escapeMarkup content)) := by
  obtain ⟨pieces, rfl, comments⟩ := spelling
  have hclosed := closed ⟨pieces, rfl, comments⟩ h
  exact OpenElements.foldlM_pieces hclosed List.not_mem_nil elements place back

end Spelling

/-- An element with content at a place of a document. -/
structure Enclosure where
  /-- The document in front of the element. -/
  front : List Char
  /-- The content of its start tag: its name and its attributes. -/
  tag : List Char
  /-- The document behind the bracket and the slash of its end tag. -/
  back : List Char
  /-- The document in front of the element ends behind a construct or before a bracket. -/
  cut : Cut (unmarked front)
  /-- The content of the start tag stands in a tag. -/
  isTag : IsTag tag
  /-- This tag is a start tag. -/
  start : tagToken tag = .start tag

namespace Enclosure

variable (enclosure : Enclosure) {content : List Char}

/-- The document with the content as it is written. -/
def text (chars : List Char) : String :=
  String.ofList (enclosure.front ++ '<' :: (enclosure.tag ++
    '>' :: (chars ++ '<' :: '/' :: enclosure.back)))

/-- The place behind the start tag. -/
def inside : Nat := byteSize (unmarked enclosure.front) + 1 + byteSize enclosure.tag + 1

/-- The place behind the content. -/
def stop (spelling : Spelling content) : Nat := enclosure.inside + byteSize spelling.chars

/-- The tokens of the document. -/
theorem tokens_text (chars : List Char) : tokens (enclosure.text chars).toList =
    (tokens enclosure.front ++ [⟨.start enclosure.tag, enclosure.inside⟩]) ++
      scan enclosure.inside (chars ++ '<' :: '/' :: enclosure.back) := by
  have hstart := scan_of_ends (enclosure.isTag.ends []) (byteSize (unmarked enclosure.front))
    (chars ++ '<' :: '/' :: enclosure.back)
  rw [enclosure.start] at hstart
  rw [text, String.toList_ofList, tokens_append_open enclosure.cut, hstart, List.append_assoc]
  rfl

/-- The elements that are open behind the start tag. -/
def opened (maxDepth : Nat) : Except Refusal OpenElements :=
  List.foldlM (OpenElements.step maxDepth) .document
    (tokens enclosure.front ++ [⟨.start enclosure.tag, enclosure.inside⟩])

/-- A document is read as if its content were text, but for the places behind it. -/
theorem readDocument_text (maxDepth : Nat) (spelling : Spelling content)
    (h : ¬ [']', ']', '>'] <:+: content) :
    readDocument maxDepth (enclosure.text spelling.chars) =
      enclosure.opened maxDepth >>= fun elements =>
        (scan (enclosure.stop spelling) ('<' :: '/' :: enclosure.back)).foldlM
          (OpenElements.step maxDepth) (elements.addText (Text.escapeMarkup content)) >>=
            OpenElements.finish := by
  have hchars : ∀ elements : OpenElements,
      (scan enclosure.inside (spelling.chars ++ '<' :: '/' :: enclosure.back)).foldlM
          (OpenElements.step maxDepth) elements =
        (scan (enclosure.stop spelling) ('<' :: '/' :: enclosure.back)).foldlM
          (OpenElements.step maxDepth) (elements.addText (Text.escapeMarkup content)) :=
    fun elements => spelling.foldlM_chars h elements enclosure.inside ('/' :: enclosure.back)
  rw [readDocument, tokens_text, List.foldlM_append, bind_assoc]
  simp only [hchars]
  rfl

/-- Two spellings of a content are read alike but for places behind them; the first one is not
longer. -/
theorem same_readDocument (maxDepth : Nat) (h : ¬ [']', ']', '>'] <:+: content)
    {first second : Spelling content} (hle : enclosure.stop first ≤ enclosure.stop second) :
    SameBehind (enclosure.stop first) (enclosure.stop second - enclosure.stop first)
      (readDocument maxDepth (enclosure.text first.chars))
      (readDocument maxDepth (enclosure.text second.chars)) := by
  have hmoved : scan (enclosure.stop second) ('<' :: '/' :: enclosure.back) =
      (scan (enclosure.stop first) ('<' :: '/' :: enclosure.back)).map
        (PlacedToken.moved (enclosure.stop second - enclosure.stop first)) := by
    rw [← scan_add, Nat.add_sub_cancel' hle]
  have hplaces : ∀ one ∈ scan (enclosure.stop first) ('<' :: '/' :: enclosure.back),
      enclosure.stop first ≤ one.place := fun one hm => (place_lt_of_mem_scan _ _ one hm).le
  rw [enclosure.readDocument_text maxDepth first h, enclosure.readDocument_text maxDepth second h,
    hmoved]
  exact (SameBehind.same _).bind fun elements =>
    (OpenElements.same_foldlM hplaces _).bind fun last => .same _

/-- Every start tag of a document makes such an element, if an end tag begins behind its content. -/
theorem exists_of_tokens {text : String} {before after : List PlacedToken} {tag : List Char}
    {place : Nat} (h : tokens text.toList = before ++ ⟨.start tag, place⟩ :: after) :
    ∃ front rest, text.toList = front ++ '<' :: (tag ++ '>' :: rest) ∧ tokens front = before ∧
      ∀ chars back, rest = chars ++ '<' :: '/' :: back →
        ∃ enclosure : Enclosure, enclosure.front = front ∧ enclosure.tag = tag ∧
          enclosure.back = back ∧ enclosure.text chars = text := by
  obtain ⟨front, behind, htext, hcut, hfront, hscan⟩ := exists_front_of_tokens h rfl
  obtain ⟨body, rest, rfl, htag, htoken, -, -⟩ := exists_body hscan rfl
  obtain rfl := eq_of_tagToken htoken
  refine ⟨front, rest, htext, hfront, ?_⟩
  rintro chars back rfl
  refine ⟨⟨front, body, back, hcut, htag, htoken⟩, rfl, rfl, rfl, ?_⟩
  rw [Enclosure.text, ← htext, String.ofList_toList]

end Enclosure

end Rulebook.Markup
