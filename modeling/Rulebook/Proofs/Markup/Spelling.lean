import Rulebook.Proofs.Markup.Cutting
import Rulebook.Proofs.Markup.Nesting

/-!
# Two spellings of an element without content

An element without content has one tag of its own or a start tag with its end tag behind it. Both
spellings are read alike but for two things: places behind them are counted with the bytes that are
written, and only a start tag is tested against the limit for nested elements.
-/

namespace Rulebook.Markup

open Text (byteSize byteSize_cons byteSize_append)

/-- Two results are the same, or they are the same fault of the document behind a place, which is
counted with more bytes in the second one. -/
inductive SameBehind {α : Type} (stop shift : Nat) :
    Except Refusal α → Except Refusal α → Prop where
  /-- The same result. -/
  | same (result : Except Refusal α) : SameBehind stop shift result result
  /-- The same fault at a later place. -/
  | moved {place : Nat} {fault : SyntaxFault} (behind : stop ≤ place) :
      SameBehind stop shift (.error (.markup (.broken place fault)))
        (.error (.markup (.broken (place + shift) fault)))

/-- Steps that follow keep two results the same but for places. -/
theorem SameBehind.bind {α β : Type} {stop shift : Nat} {first second : Except Refusal α}
    {next other : α → Except Refusal β} (h : SameBehind stop shift first second)
    (hn : ∀ value, SameBehind stop shift (next value) (other value)) :
    SameBehind stop shift (first >>= next) (second >>= other) := by
  cases h with
  | same =>
    cases first with
    | error refusal => exact .same _
    | ok value => exact hn value
  | moved behind => exact .moved behind

namespace OpenElements

variable {maxDepth stop shift : Nat}

/-- A token at a later place does the same but for the place of its fault. -/
theorem same_step (elements : OpenElements) {one : PlacedToken} (h : stop ≤ one.place) :
    SameBehind stop shift (step maxDepth elements one)
      (step maxDepth elements (one.moved shift)) := by
  obtain ⟨token, place⟩ := one
  cases token with
  | text raw | characterData content | silent | start content | empty content => exact .same _
  | broken fault => exact .moved h
  | stop name =>
    simp only [step, PlacedToken.moved]
    split
    · exact .moved h
    · split
      · exact .same _
      · exact .moved h

/-- Tokens at later places do the same but for the places of their faults. -/
theorem same_foldlM {placed : List PlacedToken} (h : ∀ one ∈ placed, stop ≤ one.place)
    (elements : OpenElements) :
    SameBehind stop shift (placed.foldlM (step maxDepth) elements)
      ((placed.map (PlacedToken.moved shift)).foldlM (step maxDepth) elements) := by
  induction placed generalizing elements with
  | nil => exact .same _
  | cons one more ih =>
    obtain ⟨hone, hmore⟩ := List.forall_mem_cons.mp h
    rw [List.map_cons, List.foldlM_cons, List.foldlM_cons]
    exact (same_step elements hone).bind fun next => ih hmore next

/-- A start tag within the limit and its end tag do what the tag of an element without content
does. -/
theorem step_start_stop {elements : OpenElements} (h : elements.depth < maxDepth)
    (content : List Char) (place after other : Nat) :
    (step maxDepth elements ⟨.start content, place⟩ >>= fun next =>
      step maxDepth next ⟨.stop (tagName content), after⟩) =
        step maxDepth elements ⟨.empty content, other⟩ := by
  simp only [step, if_neg (Nat.not_lt.mpr h)]
  cases attributesOf content with
  | error fault => rfl
  | ok attributes =>
    simp only [bind, Except.bind, if_true]
    rfl

/-- The open elements behind tokens that are taken. -/
theorem depth_foldlM {placed : List PlacedToken} {elements last : OpenElements}
    (h : placed.foldlM (step maxDepth) elements = .ok last) :
    last.depth = placed.foldl (fun depth one => one.token.depthBehind depth) elements.depth :=
  (holds_foldlM (fun rest state =>
    rest.foldl (fun depth one => one.token.depthBehind depth) state.depth =
      placed.foldl (fun depth one => one.token.depthBehind depth) elements.depth)
    (fun {one more before next} hs hholds => by
      rw [depth_step hs]
      exact hholds) h rfl)

end OpenElements

/-- The tokens that are scanned from a place on end behind it. -/
theorem place_lt_of_mem_scan (place : Nat) (text : List Char) :
    ∀ placed ∈ scan place text, place < placed.place := by
  fun_induction scan place text with
  | case1 place => exact fun _ hm => absurd hm List.not_mem_nil
  | case2 place rest found =>
    rw [List.forall_mem_singleton]
    exact Nat.lt_succ_self place
  | case3 place rest construct found ends =>
    rw [List.forall_mem_singleton]
    exact Nat.lt_of_lt_of_le (Nat.lt_succ_self place) (Nat.le_add_right _ _)
  | case4 place rest construct found body more ends after ih =>
    have hafter : place < after := by omega
    exact List.forall_mem_cons.mpr ⟨hafter, fun placed hm => hafter.trans (ih placed hm)⟩
  | case5 place c rest hc raw after ih =>
    have hafter : place < after := by
      have hpos : 0 < byteSize raw := by
        rw [byteSize_cons]
        exact Nat.add_pos_left c.utf8Size_pos _
      omega
    exact List.forall_mem_cons.mpr ⟨hafter, fun placed hm => hafter.trans (ih placed hm)⟩

/-- No bracket between quotes that are not closed before it ends a tag. -/
theorem splitTag_quoted_ne (q : Char) (before body rest : List Char) :
    splitTag (some q) before ('>' :: rest) ≠ some (body, rest) := by
  intro h
  simp only [splitTag] at h
  exact absurd (length_lt_of_splitTag h) (Nat.lt_irrefl _)

/-- A slash in front of its bracket does not change where a tag ends. -/
theorem splitTag_slash_iff {quote : Option Char} (hq : quote ≠ some '/')
    (before part rest : List Char) :
    splitTag quote before (part ++ '/' :: '>' :: rest) =
        some (before.reverse ++ (part ++ ['/']), rest) ↔
      splitTag quote before (part ++ '>' :: rest) = some (before.reverse ++ part, rest) := by
  induction part generalizing quote before with
  | nil =>
    cases quote with
    | none => simp [splitTag]
    | some q =>
      have hslash : '/' ≠ q := fun he => hq (he ▸ rfl)
      have hopen : splitTag (some q) before ('/' :: '>' :: rest) =
          splitTag (some q) ('/' :: before) ('>' :: rest) := by
        rw [splitTag, if_neg hslash]
      rw [List.nil_append, List.nil_append, hopen]
      exact iff_of_false (splitTag_quoted_ne _ _ _ _) (splitTag_quoted_ne _ _ _ _)
  | cons c more ih =>
    have hlater : ∀ {quote : Option Char}, quote ≠ some '/' →
        (splitTag quote (c :: before) (more ++ '/' :: '>' :: rest) =
            some (before.reverse ++ (c :: more ++ ['/']), rest) ↔
          splitTag quote (c :: before) (more ++ '>' :: rest) =
            some (before.reverse ++ c :: more, rest)) := by
      intro quote hquote
      simpa using ih hquote (c :: before)
    cases quote with
    | some q =>
      simp only [List.cons_append, splitTag]
      refine hlater ?_
      split
      · exact Option.some_ne_none _ |>.symm
      · exact hq
    | none =>
      simp only [List.cons_append, splitTag]
      split
      · simp
      · refine hlater ?_
        split
        · next hc => rcases hc with rfl | rfl <;> decide
        · exact (Option.some_ne_none _).symm

/-- A text with a slash behind it is a tag if it is one itself, and the other way round. -/
theorem isTag_slash_iff {content : List Char} (h : content ≠ []) :
    IsTag (content ++ ['/']) ↔ IsTag content := by
  have hsplit := splitTag_slash_iff (Option.some_ne_none '/').symm [] content []
  simp only [List.reverse_nil, List.nil_append] at hsplit
  rw [IsTag, IsTag, List.append_assoc, List.head?_append_of_ne_nil _ h]
  exact and_congr_right fun _ => hsplit

/-- The token is that of a tag. -/
def Token.isTag : Token → Bool
  | .start _ | .empty _ | .stop _ => true
  | _ => false

/-- A token that is neither text nor a tag is no tag. -/
theorem Token.isTag_of_isQuiet {token : Token} (h : token.isQuiet = true) :
    token.isTag = false := by
  cases token with
  | text | start | empty | stop => cases h
  | characterData | silent | broken => rfl

/-- The construct of a tag. -/
theorem isTag_of_construct? {text body rest : List Char} {construct : Construct}
    (h : construct? text = some construct) (hs : construct.split = some (body, rest))
    (ht : (construct.token body).isTag = true) :
    IsTag body ∧ construct.token body = tagToken body := by
  rcases construct?_cases h with hquiet | ⟨rfl, hhead⟩
  · rw [Token.isTag_of_isQuiet (hquiet body)] at ht
    cases ht
  · exact ⟨isTag_of_splitTag hs hhead, rfl⟩

/-- The text of a token that is a tag. -/
theorem exists_body {place : Nat} {rest : List Char} {one : PlacedToken} {after : List PlacedToken}
    (h : scan place ('<' :: rest) = one :: after) (ht : one.token.isTag = true) :
    ∃ body more, rest = body ++ '>' :: more ∧ IsTag body ∧ tagToken body = one.token ∧
      one.place = place + 1 + byteSize body + 1 ∧ after = scan one.place more := by
  rw [scan_open] at h
  split at h
  · cases h
    cases ht
  · next construct hconstruct =>
    split at h
    · cases h
      cases ht
    · next body more hsplit =>
      cases h
      obtain ⟨htag, htoken⟩ := isTag_of_construct? hconstruct hsplit ht
      exact ⟨body, more, (ends_of_construct? hconstruct hsplit).1, htag, htoken.symm, rfl, rfl⟩

/-- The text in front of a token that is a tag. -/
theorem exists_front {place : Nat} {text : List Char} {before after : List PlacedToken}
    {one : PlacedToken} (h : scan place text = before ++ one :: after)
    (ht : one.token.isTag = true) :
    ∃ front rest, text = front ++ '<' :: rest ∧ Cut front ∧ scan place front = before ∧
      scan (place + byteSize front) ('<' :: rest) = one :: after := by
  fun_induction scan place text generalizing before with
  | case1 place => simp at h
  | case2 place rest found =>
    cases before with
    | nil =>
      cases h
      cases ht
    | cons first others => simp at h
  | case3 place rest construct found ends =>
    cases before with
    | nil =>
      cases h
      cases ht
    | cons first others => simp at h
  | case4 place rest construct found body more ends behind =>
    rename_i ih
    have hends := ends_of_construct? found ends
    have hrest := hends.1
    subst hrest
    cases before with
    | nil =>
      refine ⟨[], body ++ '>' :: more, rfl, .nil, by rw [scan], ?_⟩
      rw [scan_of_ends hends]
      exact h
    | cons first others =>
      obtain ⟨rfl, hmore⟩ := List.cons.inj h
      obtain ⟨front, rest, rfl, hcut, hfront, hscan⟩ := ih hmore
      have hplace : place + byteSize ('<' :: (body ++ '>' :: front)) = behind + byteSize front := by
        rw [byteSize_construct]
        omega
      refine ⟨'<' :: (body ++ '>' :: front), rest, by simp, .construct ⟨rfl, hends.2⟩ hcut, ?_, ?_⟩
      · rw [scan_of_ends hends, hfront]
      · rw [hplace, hscan]
  | case5 place c rest hc raw behind =>
    rename_i ih
    cases before with
    | nil =>
      obtain ⟨rfl, -⟩ := List.cons.inj h
      cases ht
    | cons first others =>
      obtain ⟨rfl, hmore⟩ := List.cons.inj h
      obtain ⟨front, last, hlast, hcut, hfront, hscan⟩ := ih hmore
      have hplain := open_not_mem_takeWhile hc rest
      have hsplit : c :: rest = (raw ++ front) ++ '<' :: last := by
        rw [List.append_assoc, ← hlast, List.cons_append, List.takeWhile_append_dropWhile]
      have hopen : front.head?.any (· != '<') = false := by
        have hhead := head?_dropWhile_open rest
        rw [hlast] at hhead
        cases front with
        | nil => rfl
        | cons first more => exact hhead
      refine ⟨raw ++ front, last, hsplit, .text (List.cons_ne_nil _ _) hplain hopen hcut, ?_, ?_⟩
      · rw [scan_text (List.cons_ne_nil _ _) hplain hopen, hfront]
      · rw [byteSize_append, ← Nat.add_assoc]
        exact hscan

/-- The document in front of a token that is a tag. -/
theorem exists_front_of_tokens {text : List Char} {before after : List PlacedToken}
    {one : PlacedToken} (h : tokens text = before ++ one :: after) (ht : one.token.isTag = true) :
    ∃ front rest, text = front ++ '<' :: rest ∧ Cut (unmarked front) ∧ tokens front = before ∧
      scan (byteSize (unmarked front)) ('<' :: rest) = one :: after := by
  rw [tokens_eq_scan] at h
  obtain ⟨mark, htext, hmark⟩ := exists_mark text
  obtain ⟨front, rest, hrest, hcut, hfront, hscan⟩ := exists_front h ht
  have hunmarked := hmark front _ hrest
  refine ⟨mark ++ front, rest, ?_, hunmarked.symm ▸ hcut, ?_, ?_⟩
  · rw [List.append_assoc, ← hrest]
    exact htext
  · rw [tokens_eq_scan, hunmarked, hfront]
  · rw [hunmarked, ← Nat.zero_add (byteSize front)]
    exact hscan

/-- A tag is an end tag, the tag of an element without content, or a start tag. -/
theorem tagToken_cases (body : List Char) :
    (∃ content, body = '/' :: content ∧ tagToken body = .stop (endName content)) ∨
      (∃ content, content ≠ [] ∧ body = content ++ ['/'] ∧ tagToken body = .empty content) ∨
      tagToken body = .start body := by
  unfold tagToken
  split
  · next content => exact .inl ⟨content, rfl, rfl⟩
  · next hfirst =>
    split
    · next hlast =>
      have hbody : body = body.dropLast ++ ['/'] := (List.dropLast_append_getLast? _ hlast).symm
      refine .inr (.inl ⟨body.dropLast, fun hnil => ?_, hbody, rfl⟩)
      rw [hnil] at hbody
      exact hfirst [] hbody
    · exact .inr (.inr rfl)

/-- The tag of an element without content is its content and a slash. -/
theorem eq_concat_of_tagToken {body content : List Char} (h : tagToken body = .empty content) :
    content ≠ [] ∧ body = content ++ ['/'] := by
  obtain ⟨_, -, ht⟩ | ⟨_, hne, hbody, ht⟩ | ht := tagToken_cases body
  all_goals rw [ht] at h; cases h
  exact ⟨hne, hbody⟩

/-- The content of a start tag is all of it. -/
theorem eq_of_tagToken {body content : List Char} (h : tagToken body = .start content) :
    body = content := by
  obtain ⟨_, -, ht⟩ | ⟨_, -, -, ht⟩ | ht := tagToken_cases body
  all_goals rw [ht] at h; cases h
  rfl

/-- The name in an end tag stands at its front. -/
theorem endName_prefix (content : List Char) : endName content <+: content := by
  unfold endName
  split
  · exact List.prefix_refl content
  · exact List.rdropWhile_prefix isSpace content

/-- An end tag with no more bytes than its name and the slash is the slash and the name. -/
theorem eq_cons_of_tagToken {body name : List Char} (h : tagToken body = .stop name)
    (hsize : byteSize body = 1 + byteSize name) : body = '/' :: name := by
  obtain ⟨content, hbody, ht⟩ | ⟨_, -, -, ht⟩ | ht := tagToken_cases body
  all_goals rw [ht] at h; cases h
  obtain ⟨behind, hbehind⟩ := endName_prefix content
  have hnone : byteSize behind = 0 := by
    have hslash : '/'.utf8Size = 1 := rfl
    have hcontent := congrArg byteSize hbehind
    rw [byteSize_append] at hcontent
    rw [hbody, byteSize_cons, hslash] at hsize
    omega
  cases behind with
  | nil =>
    rw [List.append_nil] at hbehind
    rw [hbody, hbehind]
  | cons c more =>
    rw [byteSize_cons] at hnone
    exact absurd hnone (Nat.ne_of_gt (Nat.add_pos_left c.utf8Size_pos _))

theorem eq_nil_of_scan {place : Nat} {text : List Char} (h : scan place text = []) : text = [] := by
  fun_induction scan place text with
  | case1 => rfl
  | case2 | case3 | case4 | case5 => exact absurd h (List.cons_ne_nil _ _)

/-- A name without blanks is the name in its end tag. -/
theorem endName_of_free {name : List Char} (h : ∀ c ∈ name, isSpace c = false) :
    endName name = name := by
  unfold endName
  split
  · rfl
  · cases hr : name.reverse with
    | nil => rw [List.reverse_eq_nil_iff.mp hr]; rfl
    | cons c more =>
      have hm : c ∈ name := List.mem_reverse.mp (hr ▸ List.mem_cons_self)
      rw [List.dropWhile_cons_of_neg (by rw [h c hm]; decide), ← hr, List.reverse_reverse]

/-- An element without content at a place of a document. -/
structure EmptyElement where
  /-- The document in front of the element. -/
  front : List Char
  /-- The content of its tag: its name and its attributes. -/
  content : List Char
  /-- The document behind the element. -/
  back : List Char
  /-- The document in front of the element ends behind a construct or before a bracket. -/
  cut : Cut (unmarked front)
  /-- The content is not empty. -/
  ne_nil : content ≠ []
  /-- The content stands in a tag. -/
  tag : IsTag content
  /-- This tag is a start tag. -/
  start : tagToken content = .start content
  /-- The name stands in an end tag. -/
  named : IsTag ('/' :: tagName content)

namespace EmptyElement

variable (element : EmptyElement)

/-- The document in which the element has a tag of its own. -/
def closed : String :=
  String.ofList (element.front ++ '<' :: (element.content ++ '/' :: '>' :: element.back))

/-- The document in which the element has a start tag and an end tag. -/
def opened : String :=
  String.ofList (element.front ++ '<' :: (element.content ++
    '>' :: '<' :: '/' :: (tagName element.content ++ '>' :: element.back)))

/-- The depth at which the element lies. -/
def depth : Nat := depthBehind (tokens element.front) + 1

/-- The place behind the tag of its own. -/
def stop : Nat := byteSize (unmarked element.front) + byteSize element.content + 3

/-- The number of bytes by which the second spelling is longer. -/
def shift : Nat := byteSize (tagName element.content) + 2

/-- The tag of its own makes the element. -/
theorem tagToken_slash : tagToken (element.content ++ ['/']) = .empty element.content := by
  obtain ⟨c, more, hc⟩ := List.exists_cons_of_ne_nil element.ne_nil
  have hslash : c ≠ '/' := by
    rintro rfl
    have hstart := element.start
    rw [hc] at hstart
    cases hstart
  unfold tagToken
  split
  · next heq =>
    rw [hc] at heq
    exact absurd (List.cons.inj heq).1 hslash
  · rw [if_pos (by simp), List.dropLast_concat]

/-- The end tag has the name of the element. -/
theorem tagToken_name :
    tagToken ('/' :: tagName element.content) = .stop (tagName element.content) := by
  have hfree : ∀ c ∈ tagName element.content, isSpace c = false := fun c hc => by
    simpa using List.mem_takeWhile_imp hc
  rw [tagToken, endName_of_free hfree]

/-- The tokens of the first spelling. -/
theorem tokens_closed : tokens element.closed.toList = tokens element.front ++
    ⟨.empty element.content, element.stop⟩ :: scan element.stop element.back := by
  have hends := ((isTag_slash_iff element.ne_nil).mpr element.tag).ends element.back
  have hplace : byteSize (unmarked element.front) + 1 + byteSize (element.content ++ ['/']) + 1 =
      element.stop := by
    have hslash : byteSize ['/'] = 1 := rfl
    rw [byteSize_append, hslash, stop]
    omega
  have hscan := scan_of_ends hends (byteSize (unmarked element.front)) element.back
  rw [hplace, element.tagToken_slash, List.append_assoc] at hscan
  rw [closed, String.toList_ofList, tokens_append_open element.cut]
  exact congrArg _ hscan

/-- The tokens of the second spelling. -/
theorem tokens_opened : tokens element.opened.toList = tokens element.front ++
    ⟨.start element.content, element.stop - 1⟩ ::
      ⟨.stop (tagName element.content), element.stop + element.shift⟩ ::
        (scan element.stop element.back).map (PlacedToken.moved element.shift) := by
  have hstart := scan_of_ends (element.tag.ends []) (byteSize (unmarked element.front))
    ('<' :: '/' :: (tagName element.content ++ '>' :: element.back))
  have hname := scan_of_ends (element.named.ends []) (element.stop - 1) element.back
  have hplace : byteSize (unmarked element.front) + 1 + byteSize element.content + 1 =
      element.stop - 1 := by
    rw [stop]
    omega
  have hbehind : element.stop - 1 + 1 + byteSize ('/' :: tagName element.content) + 1 =
      element.stop + element.shift := by
    have hslash : '/'.utf8Size = 1 := rfl
    rw [byteSize_cons, hslash, stop, shift]
    omega
  rw [hplace, element.start] at hstart
  rw [hbehind, element.tagToken_name, scan_add, List.cons_append] at hname
  rw [opened, String.toList_ofList, tokens_append_open element.cut, hstart, hname]

/-- Every tag of an element without content makes a first spelling, if its content does not end in a
slash of its own and its name does not open quotes. -/
theorem exists_closed {text : String} {before after : List PlacedToken} {content : List Char}
    {place : Nat} (h : tokens text.toList = before ++ ⟨.empty content, place⟩ :: after)
    (hstart : tagToken content = .start content) (hnamed : IsTag ('/' :: tagName content)) :
    ∃ element : EmptyElement, element.closed = text ∧ element.content = content ∧
      tokens element.front = before := by
  obtain ⟨front, rest, htext, hcut, hfront, hscan⟩ := exists_front_of_tokens h rfl
  obtain ⟨body, back, rfl, htag, htoken, -, -⟩ := exists_body hscan rfl
  obtain ⟨hne, rfl⟩ := eq_concat_of_tagToken htoken
  refine ⟨⟨front, content, back, hcut, hne, (isTag_slash_iff hne).mp htag, hstart, hnamed⟩, ?_,
    rfl, hfront⟩
  rw [closed, ← String.toList_inj, String.toList_ofList, htext, List.append_assoc]
  rfl

/-- Every start tag with its end tag right behind it makes a second spelling, if its content is not
empty. The places tell that nothing stands between the tags and behind the name. -/
theorem exists_opened {text : String} {before after : List PlacedToken} {content : List Char}
    {place : Nat} (h : tokens text.toList = before ++ ⟨.start content, place⟩ ::
      ⟨.stop (tagName content), place + byteSize (tagName content) + 3⟩ :: after)
    (hne : content ≠ []) :
    ∃ element : EmptyElement, element.opened = text ∧ element.content = content ∧
      tokens element.front = before := by
  obtain ⟨front, rest, htext, hcut, hfront, hscan⟩ := exists_front_of_tokens h rfl
  obtain ⟨body, more, rfl, htag, htoken, -, hmore⟩ := exists_body hscan rfl
  obtain rfl := eq_of_tagToken htoken
  have hnext : scan place more = [] ++ _ :: after := hmore.symm
  obtain ⟨between, last, rfl, -, hbetween, hstop⟩ := exists_front hnext rfl
  obtain rfl := eq_nil_of_scan hbetween
  obtain ⟨written, back, rfl, hnamed, hname, hplace, -⟩ := exists_body hstop rfl
  obtain rfl : written = '/' :: tagName body := by
    have hnone : byteSize [] = 0 := rfl
    simp only [hnone] at hplace
    exact eq_cons_of_tagToken hname (by omega)
  refine ⟨⟨front, body, back, hcut, hne, htag, htoken, hnamed⟩, ?_, rfl, hfront⟩
  rw [opened, ← String.toList_inj, String.toList_ofList, htext]
  rfl

/-- A document is read from the elements that are open behind its front on. -/
theorem readDocument_of_front {maxDepth : Nat} {text : String} {elements : OpenElements}
    {rest : List PlacedToken} (ht : tokens text.toList = tokens element.front ++ rest)
    (h : (tokens element.front).foldlM (OpenElements.step maxDepth) .document = .ok elements) :
    readDocument maxDepth text =
      rest.foldlM (OpenElements.step maxDepth) elements >>= OpenElements.finish := by
  rw [readDocument, ht, List.foldlM_append, h]
  rfl

/-- A document whose front is refused is refused. -/
theorem readDocument_of_front_error {maxDepth : Nat} {text : String} {refusal : Refusal}
    {rest : List PlacedToken} (ht : tokens text.toList = tokens element.front ++ rest)
    (h : (tokens element.front).foldlM (OpenElements.step maxDepth) .document = .error refusal) :
    readDocument maxDepth text = .error refusal := by
  rw [readDocument, ht, List.foldlM_append, h]
  rfl

/-- Within the limit both spellings are read alike but for places behind the element. -/
theorem same_readDocument {maxDepth : Nat} (h : element.depth ≤ maxDepth) :
    SameBehind element.stop element.shift (readDocument maxDepth element.closed)
      (readDocument maxDepth element.opened) := by
  cases hfront : (tokens element.front).foldlM (OpenElements.step maxDepth) .document with
  | error refusal =>
    rw [element.readDocument_of_front_error element.tokens_closed hfront,
      element.readDocument_of_front_error element.tokens_opened hfront]
    exact .same _
  | ok elements =>
    have hdepth : elements.depth < maxDepth := by
      rw [OpenElements.depth_foldlM hfront]
      exact h
    have hplaces : ∀ one ∈ scan element.stop element.back, element.stop ≤ one.place :=
      fun one hm => (place_lt_of_mem_scan _ _ one hm).le
    have htags := OpenElements.step_start_stop hdepth element.content (element.stop - 1)
      (element.stop + element.shift) element.stop
    rw [element.readDocument_of_front element.tokens_closed hfront,
      element.readDocument_of_front element.tokens_opened hfront, List.foldlM_cons,
      List.foldlM_cons]
    simp only [List.foldlM_cons]
    rw [← bind_assoc (OpenElements.step maxDepth elements _), htags]
    exact ((SameBehind.same _).bind fun next => OpenElements.same_foldlM hplaces next).bind
      fun last => .same _

/-- Beyond the limit the second spelling is refused for its depth, or both are refused alike for
what stands in front of the element. -/
theorem readDocument_opened_tooDeep {maxDepth : Nat} (h : maxDepth < element.depth) :
    readDocument maxDepth element.opened = .error (.tooDeep maxDepth) ∨
      ∃ refusal, readDocument maxDepth element.closed = .error refusal ∧
        readDocument maxDepth element.opened = .error refusal := by
  cases hfront : (tokens element.front).foldlM (OpenElements.step maxDepth) .document with
  | error refusal =>
    exact .inr ⟨refusal, element.readDocument_of_front_error element.tokens_closed hfront,
      element.readDocument_of_front_error element.tokens_opened hfront⟩
  | ok elements =>
    have hdepth : maxDepth < elements.depth + 1 := by
      rw [OpenElements.depth_foldlM hfront]
      exact h
    have hstart : OpenElements.step maxDepth elements ⟨.start element.content, element.stop - 1⟩ =
        .error (.tooDeep maxDepth) := by
      simp only [OpenElements.step, if_pos hdepth]
    rw [element.readDocument_of_front element.tokens_opened hfront, List.foldlM_cons, hstart]
    exact .inl rfl

end EmptyElement

end Rulebook.Markup
