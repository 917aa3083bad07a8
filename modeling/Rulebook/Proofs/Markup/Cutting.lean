import Rulebook.Proofs.Markup.Document
import Rulebook.Proofs.Markup.Reading

/-!
# Where documents can be cut

A construct is found by its own characters alone: nothing behind its closing bracket matters. So a
text that is scanned without a fault is scanned in front of a tag as it is alone, and the tag and
what follows it are scanned as they are at that place. The place only counts: what is scanned at
another one has the same tokens with their places moved.
-/

namespace Rulebook

namespace Text

/-- Counting the bytes of a text goes on from those before it. -/
theorem foldl_utf8Size (size : Nat) (text : List Char) :
    text.foldl (fun size c => size + c.utf8Size) size = size + byteSize text := by
  induction text generalizing size with
  | nil => rfl
  | cons c rest ih =>
    rw [byteSize, List.foldl_cons, List.foldl_cons, ih, ih (0 + c.utf8Size), Nat.zero_add,
      Nat.add_assoc]

theorem byteSize_cons (c : Char) (rest : List Char) :
    byteSize (c :: rest) = c.utf8Size + byteSize rest := by
  rw [byteSize, List.foldl_cons, foldl_utf8Size, Nat.zero_add]

theorem byteSize_append (front rest : List Char) :
    byteSize (front ++ rest) = byteSize front + byteSize rest := by
  rw [byteSize, List.foldl_append, foldl_utf8Size]
  rfl

end Text

namespace Markup

open Text (byteSize byteSize_cons byteSize_append)

/-- A way to split finds what stands before a closing bracket whatever follows it; `before` is what
was passed already, in reverse. -/
def Splits (split : List Char → Option (List Char × List Char))
    (before text body rest : List Char) : Prop :=
  ∃ part, text = part ++ '>' :: rest ∧ body = before.reverse ++ part ∧
    ∀ other, split (part ++ '>' :: other) = some (body, other)

section

variable {split later : List Char → Option (List Char × List Char)}
  {before text body rest : List Char} {c : Char}

theorem Splits.here (h : ∀ other, split ('>' :: other) = some (before.reverse, other)) :
    Splits split before ('>' :: rest) before.reverse rest :=
  ⟨[], rfl, (List.append_nil _).symm, h⟩

theorem Splits.cons (h : Splits later (c :: before) text body rest)
    (hs : ∀ tail, split (c :: tail) = later tail) : Splits split before (c :: text) body rest := by
  obtain ⟨part, rfl, rfl, hother⟩ := h
  exact ⟨c :: part, rfl, by simp, fun other => (hs _).trans (hother other)⟩

end

/-- A closing bracket that is admitted is found whatever follows it. -/
theorem splits_of_splitClose {test : List Char → Bool} {before text body rest : List Char}
    (h : splitClose test before text = some (body, rest)) :
    Splits (splitClose test before) before text body rest := by
  induction text generalizing before with
  | nil => cases h
  | cons c more ih =>
    rw [splitClose] at h
    split at h
    · next hend =>
      cases h
      obtain ⟨rfl, htest⟩ := hend
      exact .here fun other => by rw [splitClose, if_pos ⟨rfl, htest⟩]
    · next hgoes => exact (ih h).cons fun tail => by rw [splitClose, if_neg hgoes]

/-- The closing bracket of a tag is found whatever follows it. -/
theorem splits_of_splitTag {quote : Option Char} {before text body rest : List Char}
    (h : splitTag quote before text = some (body, rest)) :
    Splits (splitTag quote before) before text body rest := by
  induction text generalizing quote before with
  | nil => cases h
  | cons c more ih =>
    cases quote with
    | some q =>
      simp only [splitTag] at h
      exact (ih h).cons fun tail => by simp only [splitTag]
    | none =>
      simp only [splitTag] at h
      split at h
      · next hend =>
        cases h
        subst hend
        exact .here fun other => splitTag_end before other
      · next hgoes => exact (ih h).cons fun tail => by simp only [splitTag, if_neg hgoes]

/-- The closing bracket that belongs to no opening one is found whatever follows it. -/
theorem splits_of_splitNested {depth : Nat} {before text body rest : List Char}
    (h : splitNested depth before text = some (body, rest)) :
    Splits (splitNested depth before) before text body rest := by
  induction text generalizing depth before with
  | nil => cases h
  | cons c more ih =>
    rw [splitNested] at h
    split at h
    · next hopen => exact (ih h).cons fun tail => by rw [splitNested, if_pos hopen]
    · next hopen =>
      split at h
      · next hclose =>
        split at h
        · next hdepth =>
          cases h
          subst hclose hdepth
          exact .here fun other => rfl
        · next hdepth =>
          exact (ih h).cons fun tail => by
            rw [splitNested, if_neg hopen, if_pos hclose, if_neg hdepth]
      · next hclose =>
        exact (ih h).cons fun tail => by rw [splitNested, if_neg hopen, if_neg hclose]

/-- A text that begins with no mark begins a tag. -/
theorem construct?_tag {text : List Char} (h : ∀ c ∈ text.head?, c ≠ '!' ∧ c ≠ '?') :
    construct? text = some ⟨splitTag none [] text, .openTag, tagToken⟩ := by
  unfold construct?
  split
  · exact absurd rfl (h '!' rfl).1
  · exact absurd rfl (h '!' rfl).1
  · exact absurd rfl (h '!' rfl).1
  · exact absurd rfl (h '!' rfl).1
  · exact absurd rfl (h '!' rfl).1
  · exact absurd rfl (h '?' rfl).2
  · rfl

/-- The construct of a text ends at a bracket and makes a token, whatever follows the bracket. -/
def Ends (text body rest : List Char) (token : Token) : Prop :=
  text = body ++ '>' :: rest ∧ ∀ other, ∃ again, construct? (body ++ '>' :: other) = some again ∧
    again.split = some (body, other) ∧ again.token body = token

section

variable {split : List Char → Option (List Char × List Char)} {text body rest : List Char}
  {c d : Char} {unended : SyntaxFault} {token : List Char → Token}

/-- A character that is no bracket stands in front of the bracket that is found. -/
theorem Splits.exists_cons (h : Splits split [] (c :: text) body rest) (hc : c ≠ '>') :
    ∃ more, body = c :: more ∧ text = more ++ '>' :: rest := by
  obtain ⟨_, htext, rfl, -⟩ := h
  cases body with
  | nil => exact absurd (List.cons.inj htext).1 hc
  | cons first more =>
    obtain ⟨rfl, hmore⟩ := List.cons.inj htext
    exact ⟨more, rfl, hmore⟩

/-- A construct ends where it is split, if what is split begins such a construct. -/
theorem Splits.ends (h : Splits split [] text body rest)
    (hc : ∀ other, construct? (body ++ '>' :: other) =
      some ⟨split (body ++ '>' :: other), unended, token⟩) : Ends text body rest (token body) := by
  obtain ⟨_, htext, rfl, hother⟩ := h
  exact ⟨htext, fun other => ⟨_, hc other, hother other, rfl⟩⟩

/-- A construct that two characters begin ends where it is split. -/
theorem Splits.ends_of_two (h : Splits split [] (c :: d :: text) body rest) (hc : c ≠ '>')
    (hd : d ≠ '>') (hconstruct : ∀ tail, construct? (c :: d :: tail) =
      some ⟨split (c :: d :: tail), unended, token⟩) :
    Ends (c :: d :: text) body rest (token body) := by
  obtain ⟨more, rfl, hmore⟩ := h.exists_cons hc
  cases more with
  | nil => exact absurd (List.cons.inj hmore).1 hd
  | cons first last =>
    obtain ⟨rfl, -⟩ := List.cons.inj hmore
    exact h.ends fun other => hconstruct _

end

/-- A text between brackets is a tag: no mark begins it, and its closing bracket does not stand
between quotes. -/
def IsTag (body : List Char) : Prop :=
  (∀ c ∈ body.head?, c ≠ '!' ∧ c ≠ '?') ∧ splitTag none [] (body ++ ['>']) = some (body, [])

instance (body : List Char) : Decidable (IsTag body) :=
  decidable_of_iff ((body.head?.all fun c => c != '!' && c != '?') = true ∧
      splitTag none [] (body ++ ['>']) = some (body, [])) (by
    simp [IsTag, Option.all_eq_true])

/-- What stands before the closing bracket of a tag is a tag. -/
theorem isTag_of_splitTag {text body rest : List Char}
    (hs : splitTag none [] text = some (body, rest))
    (hh : ∀ c ∈ text.head?, c ≠ '!' ∧ c ≠ '?') : IsTag body := by
  obtain ⟨_, rfl, rfl, hother⟩ := splits_of_splitTag hs
  refine ⟨fun c hc => hh c ?_, hother []⟩
  obtain ⟨more, hmore⟩ := List.head?_eq_some_iff.mp hc
  rw [hmore]
  rfl

/-- A tag ends at its bracket, whatever follows it. -/
theorem IsTag.ends {body : List Char} (h : IsTag body) (rest : List Char) :
    Ends (body ++ '>' :: rest) body rest (tagToken body) := by
  obtain ⟨part, htext, -, hother⟩ := splits_of_splitTag h.2
  obtain rfl : body = part := List.append_cancel_right htext
  have hsplits : Splits (splitTag none []) [] (body ++ '>' :: rest) body rest :=
    ⟨body, rfl, rfl, hother⟩
  refine hsplits.ends fun other => construct?_tag fun c hc => ?_
  cases body with
  | nil =>
    cases hc
    decide
  | cons first more => exact h.1 c hc

/-- A construct that is split ends there. -/
theorem ends_of_construct? {text body rest : List Char} {construct : Construct}
    (h : construct? text = some construct) (hs : construct.split = some (body, rest)) :
    Ends text body rest (construct.token body) := by
  unfold construct? at h
  split at h
  · cases h
    exact (splits_of_splitClose hs).ends_of_two (by decide) (by decide) fun _ => rfl
  · cases h
    exact (splits_of_splitClose hs).ends_of_two (by decide) (by decide) fun _ => rfl
  · cases h
    exact (splits_of_splitNested hs).ends_of_two (by decide) (by decide) fun _ => rfl
  · cases h
    exact (splits_of_splitNested hs).ends_of_two (by decide) (by decide) fun _ => rfl
  · cases h
  · cases h
    have hsplits := splits_of_splitClose hs
    obtain ⟨more, rfl, -⟩ := hsplits.exists_cons (by decide)
    exact hsplits.ends fun _ => rfl
  · next hmark hquestion =>
    cases h
    have htag := isTag_of_splitTag hs (ne_marks_of_head? hmark hquestion)
    obtain ⟨_, rfl, rfl, -⟩ := splits_of_splitTag hs
    exact htag.ends rest

/-- What is scanned behind an opening bracket. -/
theorem scan_open (place : Nat) (rest : List Char) : scan place ('<' :: rest) =
    match construct? rest with
    | none => [⟨.broken .unknownMark, place + 1⟩]
    | some construct =>
      match construct.split with
      | none => [⟨.broken construct.unended, place + 1 + byteSize rest⟩]
      | some (body, more) =>
        ⟨construct.token body, place + 1 + byteSize body + 1⟩ ::
          scan (place + 1 + byteSize body + 1) more := by
  rw [scan]
  simp only [if_true]
  split
  · next hnone => simp only [hnone]
  · next construct hsome =>
    simp only [hsome]
    split
    · next hend => simp only [hend]
    · next body more hend => simp only [hend]

/-- What is scanned of a construct that ends. -/
theorem scan_of_ends {body rest : List Char} {token : Token}
    (h : Ends (body ++ '>' :: rest) body rest token) (place : Nat) (other : List Char) :
    scan place ('<' :: (body ++ '>' :: other)) =
      ⟨token, place + 1 + byteSize body + 1⟩ :: scan (place + 1 + byteSize body + 1) other := by
  obtain ⟨again, hc, hs, rfl⟩ := h.2 other
  simp only [scan_open, hc, hs]

/-- A text that ends behind a construct or before a bracket. -/
inductive Cut : List Char → Prop where
  /-- The empty text. -/
  | nil : Cut []
  /-- A construct and what follows it. -/
  | construct {body rest : List Char} {token : Token}
      (ends : Ends (body ++ '>' :: rest) body rest token) (cut : Cut rest) :
      Cut ('<' :: (body ++ '>' :: rest))
  /-- Text and the construct behind it. -/
  | text {raw rest : List Char} (ne_nil : raw ≠ []) (plain : '<' ∉ raw)
      (bracket : rest.head?.any (· != '<') = false) (cut : Cut rest) : Cut (raw ++ rest)

/-- What is left behind text is empty or begins with a bracket. -/
theorem head?_dropWhile_open (text : List Char) :
    (text.dropWhile (· != '<')).head?.any (· != '<') = false := by
  have hn := List.head?_dropWhile_not (· != '<') text
  cases hd : (text.dropWhile (· != '<')).head? with
  | none => rfl
  | some c =>
    rw [hd] at hn
    exact hn

/-- Text up to the first bracket holds none. -/
theorem open_not_mem_takeWhile {c : Char} (hc : c ≠ '<') (rest : List Char) :
    '<' ∉ c :: rest.takeWhile (· != '<') := by
  intro hm
  rcases List.mem_cons.mp hm with rfl | hm
  · exact hc rfl
  · have := List.mem_takeWhile_imp hm
    simp at this

/-- The bytes of a construct with its brackets. -/
theorem byteSize_construct (body rest : List Char) :
    byteSize ('<' :: (body ++ '>' :: rest)) = 1 + byteSize body + 1 + byteSize rest := by
  have hopen : '<'.utf8Size = 1 := rfl
  have hclose : '>'.utf8Size = 1 := rfl
  rw [byteSize_cons, byteSize_append, byteSize_cons, hopen, hclose, Nat.add_assoc, Nat.add_assoc]

/-- A text that is cut is scanned in front of a bracket as it is alone. -/
theorem Cut.scan_append {front rest : List Char} (h : Cut front)
    (hr : rest.head?.any (· != '<') = false) (place : Nat) :
    scan place (front ++ rest) = scan place front ++ scan (place + byteSize front) rest := by
  induction h generalizing place with
  | nil =>
    rw [scan]
    rfl
  | @construct body more token ends cut ih =>
    have hplace : place + 1 + byteSize body + 1 + byteSize more =
        place + byteSize ('<' :: (body ++ '>' :: more)) := by
      rw [byteSize_construct]
      omega
    rw [List.cons_append, List.append_assoc, List.cons_append, scan_of_ends ends,
      scan_of_ends ends, ih, hplace, List.cons_append]
  | @text raw more ne_nil plain bracket cut ih =>
    have hmore : (more ++ rest).head?.any (· != '<') = false := by
      cases more with
      | nil => exact hr
      | cons c tail => exact bracket
    rw [List.append_assoc, scan_text ne_nil plain hmore, scan_text ne_nil plain bracket, ih,
      byteSize_append, Nat.add_assoc, List.cons_append]

/-- A token at a later place. -/
def PlacedToken.moved (shift : Nat) (placed : PlacedToken) : PlacedToken :=
  { placed with place := placed.place + shift }

/-- Scanning from a later place moves the places of the tokens. -/
theorem scan_add (place shift : Nat) (text : List Char) :
    scan (place + shift) text = (scan place text).map (PlacedToken.moved shift) := by
  fun_induction scan place text with
  | case1 place => rw [scan]; rfl
  | case2 place rest found =>
    simp only [scan_open, found, List.map_cons, List.map_nil, PlacedToken.moved]
    rw [Nat.add_right_comm]
  | case3 place rest construct found ends =>
    have hplace : place + shift + 1 + byteSize rest = place + 1 + byteSize rest + shift := by omega
    simp only [scan_open, found, ends, List.map_cons, List.map_nil, PlacedToken.moved, hplace]
  | case4 place rest construct found body more ends after ih =>
    have hends := ends_of_construct? found ends
    have hrest := hends.1
    subst hrest
    have hplace : place + shift + 1 + byteSize body + 1 = after + shift := by omega
    rw [scan_of_ends hends, hplace, ih]
    rfl
  | case5 place c rest hc raw after ih =>
    have hsplit : raw ++ rest.dropWhile (· != '<') = c :: rest := by
      rw [List.cons_append, List.takeWhile_append_dropWhile]
    have hplace : place + shift + byteSize raw = after + shift := by omega
    rw [← hsplit, scan_text (List.cons_ne_nil _ _) (open_not_mem_takeWhile hc rest)
      (head?_dropWhile_open rest), hplace, ih]
    rfl

/-- A text without the byte order mark in front of it. -/
def unmarked : List Char → List Char
  | [] => []
  | c :: rest => if c = '\uFEFF' then rest else c :: rest

/-- The tokens of a document are those behind the byte order mark. -/
theorem tokens_eq_scan (text : List Char) : tokens text = scan 0 (unmarked text) := by
  cases text with
  | nil =>
    rw [tokens, unmarked, scan]
  | cons c rest =>
    rw [tokens, unmarked]
    split <;> rfl

/-- A bracket is no byte order mark. -/
theorem unmarked_append_open (front rest : List Char) :
    unmarked (front ++ '<' :: rest) = unmarked front ++ '<' :: rest := by
  cases front with
  | nil => rfl
  | cons c more =>
    rw [List.cons_append, unmarked, unmarked]
    split <;> rfl

/-- A text is its byte order mark, if it has one, and what is behind it. -/
theorem exists_mark (text : List Char) : ∃ mark, text = mark ++ unmarked text ∧
    ∀ front rest, unmarked text = front ++ '<' :: rest → unmarked (mark ++ front) = front := by
  cases text with
  | nil => exact ⟨[], rfl, fun front rest h => by simp [unmarked] at h⟩
  | cons c more =>
    by_cases hc : c = '\uFEFF'
    · refine ⟨[c], by rw [unmarked, if_pos hc]; rfl, fun front rest _ => ?_⟩
      rw [List.singleton_append, unmarked, if_pos hc]
    · refine ⟨[], by rw [unmarked, if_neg hc]; rfl, fun front rest h => ?_⟩
      rw [unmarked, if_neg hc] at h
      cases front with
      | nil => rfl
      | cons d others =>
        obtain ⟨rfl, -⟩ := List.cons.inj h
        rw [List.nil_append, unmarked, if_neg hc]

/-- The front of a document that is cut has the same tokens alone, and those behind it are scanned
from its end on. -/
theorem tokens_append_open {front : List Char} (h : Cut (unmarked front)) (rest : List Char) :
    tokens (front ++ '<' :: rest) =
      tokens front ++ scan (byteSize (unmarked front)) ('<' :: rest) := by
  rw [tokens_eq_scan, tokens_eq_scan, unmarked_append_open, h.scan_append (by rfl), Nat.zero_add]

end Markup

end Rulebook
