import Rulebook.Json.Reader
import Rulebook.Json.Writer
import Rulebook.Proofs.Json.Spelling

/-!
# Reading what was written

The text of a value is cut into the tokens of the value, and these make the value again, but for
what is nested too deeply to be kept. Both are inductions over the value: what stands behind it is
cut, and what is open around it goes on, as if the value had not been there.
-/

namespace Rulebook.Json

open Rulebook.Decimal (toList_toString isDigit_of_mem_toDigits)

/-- The strings and member names of the value are spelled as texts are written, its numbers are
counts of 64 bits, and nothing in it was too deep. -/
inductive Written : Json → Prop where
  /-- The literal `null`. -/
  | null : Written .null
  /-- One of the literals `true` and `false`. -/
  | bool (value : Bool) : Written (.bool value)
  /-- A count. -/
  | count {count : Nat} (h : count < UInt64.size) : Written (.number (toString count))
  /-- A text. -/
  | text (text : List Char) : Written (.string (String.ofList (encode text)))
  /-- An array of such items. -/
  | array {items : List Json} (h : ∀ item ∈ items, Written item) : Written (.array items)
  /-- An object of such members. -/
  | object {members : List (String × Json)}
    (hnames : ∀ entry ∈ members, ∃ name, entry.1 = String.ofList (encode name))
    (h : ∀ entry ∈ members, Written entry.2) : Written (.object members)

mutual
/-- The tokens of a value. -/
def valueTokens : Json → List Token
  | .null | .deep => [.scalar .null]
  | .bool value => [.scalar (.bool value)]
  | .number spelling => [.scalar (.number spelling)]
  | .string spelling => [.quoted spelling]
  | .array [] => [.openArray, .closeArray]
  | .array (item :: more) =>
    .openArray :: (valueTokens item ++ itemTokens more ++ [.closeArray])
  | .object [] => [.openObject, .closeObject]
  | .object ((name, value) :: more) =>
    .openObject :: .quoted name :: .colon ::
      (valueTokens value ++ memberTokens more ++ [.closeObject])

/-- The tokens of further items. -/
def itemTokens : List Json → List Token
  | [] => []
  | item :: more => .comma :: (valueTokens item ++ itemTokens more)

/-- The tokens of further members. -/
def memberTokens : List (String × Json) → List Token
  | [] => []
  | (name, value) :: more =>
    .comma :: .quoted name :: .colon :: (valueTokens value ++ memberTokens more)
end

theorem tokens?_space {c : Char} (h : isSpace c = true) (rest : List Char) :
    tokens? (c :: rest) = tokens? rest := by
  rw [tokens?, if_pos h]

theorem tokens?_mark {c : Char} {token : Token} (hc : isSpace c = false)
    (h : mark? c = some token) (rest : List Char) :
    tokens? (c :: rest) = (tokens? rest).map (token :: ·) := by
  rw [tokens?, hc, if_neg Bool.false_ne_true, h]

/-- The start of a line makes no token. -/
theorem tokens?_newLine (depth : Nat) (rest : List Char) :
    tokens? (newLine depth ++ rest) = tokens? rest := by
  rw [newLine, List.cons_append, tokens?_space (by decide)]
  induction 2 * depth with
  | zero => rfl
  | succ count ih => rw [List.replicate_succ, List.cons_append, tokens?_space (by decide), ih]

/-- A spelled text between its quotes makes one token. -/
theorem tokens?_quoted (text rest : List Char) :
    tokens? (quoted (String.ofList (encode text)) ++ rest) =
      (tokens? rest).map (.quoted (String.ofList (encode text)) :: ·) := by
  have hmark : mark? '"' = none := by decide
  have htext : quoted (String.ofList (encode text)) ++ rest =
      '"' :: (encode text ++ '"' :: rest) := by simp [quoted]
  rw [htext, tokens?, if_neg (by decide), hmark]
  simp only [if_true]
  split
  · next h => rw [takeQuoted?_encode] at h; cases h
  · next h =>
    rw [takeQuoted?_encode] at h
    cases h
    rfl

/-- The text is empty or begins with a character that ends words. -/
def EndsWords (text : List Char) : Prop := ∀ c, text.head? = some c → isBoundary c = true

/-- A word makes one token where something stands behind it that ends words. -/
theorem tokens?_word {word rest : List Char} {token : Token} (hne : word ≠ [])
    (hword : (word.all fun c => !isBoundary c) = true) (hrest : EndsWords rest)
    (ht : wordToken? word = some token) :
    tokens? (word ++ rest) = (tokens? rest).map (token :: ·) := by
  cases word with
  | nil => exact absurd rfl hne
  | cons c tail =>
    obtain ⟨hc, hall⟩ := List.forall_mem_cons.mp (List.all_eq_true.mp hword)
    rw [Bool.not_eq_true'] at hc
    simp only [isBoundary, Bool.or_eq_false_iff, Option.isSome_eq_false_iff,
      Option.isNone_iff_eq_none, beq_eq_false_iff_ne] at hc
    obtain ⟨⟨hspace, hmark⟩, hquote⟩ := hc
    have hnone : rest.takeWhile (fun d => !isBoundary d) = [] ∧
        rest.dropWhile (fun d => !isBoundary d) = rest := by
      cases rest with
      | nil => exact ⟨rfl, rfl⟩
      | cons d more => simp [hrest d rfl]
    rw [List.cons_append, tokens?, hspace, if_neg Bool.false_ne_true, hmark]
    simp only [hquote, if_false, List.takeWhile_append_of_pos hall,
      List.dropWhile_append_of_pos hall, hnone, List.append_nil]
    split
    · next h => rw [ht] at h; cases h
    · next h =>
      rw [ht] at h
      cases h
      rfl

/-- A digit ends no word. -/
theorem isBoundary_digit {c : Char} (h : Decimal.isDigit c = true) : isBoundary c = false := by
  have hspace : isSpace c = false := by
    rw [isSpace]
    simp only [Bool.or_eq_false_iff, beq_eq_false_iff_ne]
    refine ⟨⟨⟨?_, ?_⟩, ?_⟩, ?_⟩ <;> rintro rfl <;> exact absurd h (by decide)
  have hmark : mark? c = none := by
    unfold mark?
    split <;> first | rfl | exact absurd h (by decide)
  have hquote : (c == '"') = false := by
    rw [beq_eq_false_iff_ne]
    rintro rfl
    exact absurd h (by decide)
  rw [isBoundary, hspace, hmark, hquote]
  rfl

/-- A count makes one token. -/
theorem tokens?_count (count : Nat) {rest : List Char} (hrest : EndsWords rest) :
    tokens? ((toString count).toList ++ rest) =
      (tokens? rest).map (.scalar (.number (toString count)) :: ·) := by
  have hword : ((toString count).toList.all fun c => !isBoundary c) = true := by
    rw [toList_toString, List.all_eq_true]
    exact fun c hc => by rw [isBoundary_digit (isDigit_of_mem_toDigits hc)]; rfl
  have hne : (toString count).toList ≠ [] := by
    rw [toList_toString]
    exact Nat.toDigits_ne_nil
  have hliteral : ∀ literal : String, (∃ c ∈ literal.toList, Decimal.isDigit c = false) →
      (toString count).toList ≠ literal.toList := by
    rintro literal ⟨c, hc, hdigit⟩ he
    rw [← he, toList_toString] at hc
    rw [isDigit_of_mem_toDigits hc] at hdigit
    cases hdigit
  refine tokens?_word hne hword hrest ?_
  rw [wordToken?, if_neg (hliteral "null" ⟨'n', by decide, by decide⟩),
    if_neg (hliteral "true" ⟨'t', by decide, by decide⟩),
    if_neg (hliteral "false" ⟨'f', by decide, by decide⟩), toList_toString,
    numberParts?_toDigits, ← toList_toString, String.ofList_toList]
  rfl

theorem endsWords_newLine (depth : Nat) (rest : List Char) : EndsWords (newLine depth ++ rest) := by
  intro c hc
  cases hc
  decide

/-- Further items begin with what ends words. -/
theorem endsWords_items (depth : Nat) (items : List Json) {rest : List Char} (h : EndsWords rest) :
    EndsWords (indentedItems depth items ++ rest) := by
  cases items with
  | nil => exact h
  | cons item more =>
    intro c hc
    cases hc
    decide

/-- Further members begin with what ends words. -/
theorem endsWords_members (depth : Nat) (members : List (String × Json)) {rest : List Char}
    (h : EndsWords rest) : EndsWords (indentedMembers depth members ++ rest) := by
  cases members with
  | nil => exact h
  | cons entry more =>
    intro c hc
    cases hc
    decide

mutual
/-- The text of a value is cut into the tokens of the value. -/
theorem tokens?_indented : (value : Json) → value.Written → (depth : Nat) → (rest : List Char) →
    EndsWords rest →
    tokens? (indentedChars depth value ++ rest) = (tokens? rest).map (valueTokens value ++ ·)
  | .null, _, depth, rest, hrest => by
    rw [indentedChars]
    exact tokens?_word (by decide) (by decide) hrest (by decide)
  | .deep, h, _, _, _ => by cases h
  | .bool true, _, depth, rest, hrest => by
    rw [indentedChars]
    exact tokens?_word (by decide) (by decide) hrest (by decide)
  | .bool false, _, depth, rest, hrest => by
    rw [indentedChars]
    exact tokens?_word (by decide) (by decide) hrest (by decide)
  | .number _, .count _, depth, rest, hrest => tokens?_count _ hrest
  | .string _, .text text, depth, rest, hrest => tokens?_quoted text rest
  | .array [], _, depth, rest, hrest => by
    rw [indentedChars, List.cons_append, tokens?_mark rfl rfl, List.singleton_append,
      tokens?_mark rfl rfl, Option.map_map]
    rfl
  | .array (item :: more), .array h, depth, rest, hrest => by
    obtain ⟨hitem, hmore⟩ := List.forall_mem_cons.mp h
    have hend := endsWords_newLine depth (']' :: rest)
    simp only [indentedChars, List.cons_append, List.append_assoc, List.nil_append]
    rw [tokens?_mark rfl rfl, tokens?_newLine,
      tokens?_indented item hitem _ _ (endsWords_items _ more hend),
      tokens?_items more hmore _ _ hend, tokens?_newLine, tokens?_mark rfl rfl]
    simp only [Option.map_map, Function.comp_def, valueTokens, List.cons_append, List.append_assoc,
      List.nil_append]
  | .object [], _, depth, rest, hrest => by
    rw [indentedChars, List.cons_append, tokens?_mark rfl rfl, List.singleton_append,
      tokens?_mark rfl rfl, Option.map_map]
    rfl
  | .object ((name, value) :: more), .object hnames h, depth, rest, hrest => by
    obtain ⟨hvalue, hmore⟩ := List.forall_mem_cons.mp h
    obtain ⟨⟨text, rfl⟩, hlater⟩ := List.forall_mem_cons.mp hnames
    have hend := endsWords_newLine depth ('}' :: rest)
    simp only [indentedChars, List.cons_append, List.append_assoc, List.nil_append]
    rw [tokens?_mark rfl rfl, tokens?_newLine, tokens?_quoted, tokens?_mark rfl rfl,
      tokens?_space rfl, tokens?_indented value hvalue _ _ (endsWords_members _ more hend),
      tokens?_members more hlater hmore _ _ hend, tokens?_newLine, tokens?_mark rfl rfl]
    simp only [Option.map_map, Function.comp_def, valueTokens, List.cons_append, List.append_assoc,
      List.nil_append]

/-- The text of further items is cut into their tokens. -/
theorem tokens?_items : (items : List Json) → (∀ item ∈ items, item.Written) → (depth : Nat) →
    (rest : List Char) → EndsWords rest →
    tokens? (indentedItems depth items ++ rest) = (tokens? rest).map (itemTokens items ++ ·)
  | [], _, depth, rest, hrest => by
    simp only [indentedItems, itemTokens, List.nil_append, Option.map_id']
  | item :: more, h, depth, rest, hrest => by
    obtain ⟨hitem, hmore⟩ := List.forall_mem_cons.mp h
    simp only [indentedItems, List.cons_append, List.append_assoc]
    rw [tokens?_mark rfl rfl, tokens?_newLine,
      tokens?_indented item hitem _ _ (endsWords_items _ more hrest),
      tokens?_items more hmore _ _ hrest]
    simp only [Option.map_map, Function.comp_def, itemTokens, List.cons_append, List.append_assoc]

/-- The text of further members is cut into their tokens. -/
theorem tokens?_members : (members : List (String × Json)) →
    (∀ entry ∈ members, ∃ name, entry.1 = String.ofList (encode name)) →
    (∀ entry ∈ members, entry.2.Written) → (depth : Nat) → (rest : List Char) → EndsWords rest →
    tokens? (indentedMembers depth members ++ rest) = (tokens? rest).map (memberTokens members ++ ·)
  | [], _, _, depth, rest, hrest => by
    simp only [indentedMembers, memberTokens, List.nil_append, Option.map_id']
  | (name, value) :: more, hnames, h, depth, rest, hrest => by
    obtain ⟨hvalue, hmore⟩ := List.forall_mem_cons.mp h
    obtain ⟨⟨text, rfl⟩, hlater⟩ := List.forall_mem_cons.mp hnames
    simp only [indentedMembers, List.cons_append, List.append_assoc, List.nil_append]
    rw [tokens?_mark rfl rfl, tokens?_newLine, tokens?_quoted, tokens?_mark rfl rfl,
      tokens?_space rfl, tokens?_indented value hvalue _ _ (endsWords_members _ more hrest),
      tokens?_members more hlater hmore _ _ hrest]
    simp only [Option.map_map, Function.comp_def, memberTokens, List.cons_append, List.append_assoc]
end

/-- The text of a value makes the tokens of the value. -/
theorem tokens?_toList_indented {value : Json} (h : value.Written) :
    tokens? value.indented.toList = some (valueTokens value) := by
  have hcut := tokens?_indented value h 0 [] fun c hc => by cases hc
  rw [List.append_nil, tokens?, Option.map_some, List.append_nil] at hcut
  rw [indented, String.toList_ofList, hcut]

mutual
/-- What is read back of a value where arrays and objects may be nested as deep as there is room. -/
def kept : Json → (room : Nat) → Json
  | .null, _ | .deep, _ => .null
  | .bool value, _ => .bool value
  | .number spelling, _ => .number spelling
  | .string spelling, _ => .string spelling
  | .array _, 0 | .object _, 0 => .deep
  | .array items, room + 1 => .array (keptItems items room)
  | .object members, room + 1 => .object (keptMembers members room)

/-- What is read back of items. -/
def keptItems : List Json → (room : Nat) → List Json
  | [], _ => []
  | item :: more, room => item.kept room :: keptItems more room

/-- What is read back of members. -/
def keptMembers : List (String × Json) → (room : Nat) → List (String × Json)
  | [], _ => []
  | (name, value) :: more, room => (name, value.kept room) :: keptMembers more room
end

/-- What is closed is kept where there is room for it. -/
theorem close_kept (value : Json) (inside : Nat → Json) (hdeep : value.kept 0 = .deep)
    (hinside : ∀ room, value.kept (room + 1) = inside room) (frames : List Frame) :
    State.close (inside (maxOpen - (frames.length + 1))) frames =
      .done (value.kept (maxOpen - frames.length)) frames := by
  rcases Nat.lt_or_ge frames.length maxOpen with hroom | hfull
  · have hnext : maxOpen - frames.length = maxOpen - (frames.length + 1) + 1 := by omega
    rw [State.close_of_length_lt hroom, hnext, hinside]
  · have hnone : maxOpen - frames.length = 0 := by omega
    rw [State.close_of_le_length hfull, hnone, hdeep]

/-- An array is kept where there is room for it. -/
theorem close_array (items : List Json) (frames : List Frame) :
    State.close (.array (keptItems items (maxOpen - (frames.length + 1)))) frames =
      .done ((Json.array items).kept (maxOpen - frames.length)) frames :=
  close_kept (.array items) (fun room => .array (keptItems items room)) (by rw [kept])
    (fun room => by rw [kept]) frames

/-- An object is kept where there is room for it. -/
theorem close_object (members : List (String × Json)) (frames : List Frame) :
    State.close (.object (keptMembers members (maxOpen - (frames.length + 1)))) frames =
      .done ((Json.object members).kept (maxOpen - frames.length)) frames :=
  close_kept (.object members) (fun room => .object (keptMembers members room)) (by rw [kept])
    (fun room => by rw [kept]) frames

/-- A token is taken before the tokens behind it. -/
theorem foldlM_step {state next : State} {token : Token} (h : State.step state token = some next)
    (rest : List Token) :
    (token :: rest).foldlM State.step state = rest.foldlM State.step next := by
  rw [List.foldlM_cons, h]
  rfl

/-- The first item of an array is taken like any value. -/
theorem foldlM_firstItem (value : Json) (frames : List Frame) (rest : List Token) :
    (valueTokens value ++ rest).foldlM State.step (.firstItem frames) =
      (valueTokens value ++ rest).foldlM State.step (.value (.array [] :: frames)) := by
  cases value with
  | array items => cases items <;> rfl
  | object members => rcases members with _ | ⟨⟨name, value⟩, more⟩ <;> rfl
  | _ => rfl

mutual
/-- The tokens of a value make what is read back of it, inside of what is open. -/
theorem foldlM_value : (value : Json) → (frames : List Frame) → (rest : List Token) →
    (valueTokens value ++ rest).foldlM State.step (.value frames) =
      rest.foldlM State.step (.done (value.kept (maxOpen - frames.length)) frames)
  | .null, frames, rest => by
    rw [kept]
    exact foldlM_step rfl rest
  | .deep, frames, rest => by
    rw [kept]
    exact foldlM_step rfl rest
  | .bool value, frames, rest => by
    rw [kept]
    exact foldlM_step rfl rest
  | .number spelling, frames, rest => by
    rw [kept]
    exact foldlM_step rfl rest
  | .string spelling, frames, rest => by
    rw [kept]
    exact foldlM_step rfl rest
  | .array [], frames, rest => by
    rw [← close_array]
    exact (foldlM_step rfl _).trans (foldlM_step rfl rest)
  | .array (item :: more), frames, rest => by
    simp only [valueTokens, List.cons_append, List.append_assoc, List.nil_append]
    rw [foldlM_step rfl, foldlM_firstItem, foldlM_value item, foldlM_items more, ← close_array]
    rfl
  | .object [], frames, rest => by
    rw [← close_object]
    exact (foldlM_step rfl _).trans (foldlM_step rfl rest)
  | .object ((name, value) :: more), frames, rest => by
    simp only [valueTokens, List.cons_append, List.append_assoc, List.nil_append]
    rw [foldlM_step rfl, foldlM_step rfl, foldlM_step rfl, foldlM_value value,
      foldlM_members more, ← close_object]
    rfl

/-- The tokens of further items and of the end of an array make what is read back of the array. -/
theorem foldlM_items : (items : List Json) → (last : Json) → (before : List Json) →
    (frames : List Frame) → (rest : List Token) →
    (itemTokens items ++ .closeArray :: rest).foldlM State.step
        (.done last (.array before :: frames)) =
      rest.foldlM State.step (.close (.array (before.reverse ++
        last :: keptItems items (maxOpen - (frames.length + 1)))) frames)
  | [], last, before, frames, rest => by
    rw [keptItems, ← List.reverse_cons]
    exact foldlM_step rfl rest
  | item :: more, last, before, frames, rest => by
    simp only [itemTokens, List.cons_append, List.append_assoc]
    rw [foldlM_step rfl, foldlM_value item, foldlM_items more, keptItems, List.reverse_cons,
      List.append_assoc]
    rfl

/-- The tokens of further members and of the end of an object make what is read back of the
object. -/
theorem foldlM_members : (members : List (String × Json)) → (last : Json) → (label : String) →
    (before : List (String × Json)) → (frames : List Frame) → (rest : List Token) →
    (memberTokens members ++ .closeObject :: rest).foldlM State.step
        (.done last (.object before label :: frames)) =
      rest.foldlM State.step (.close (.object (before.reverse ++
        (label, last) :: keptMembers members (maxOpen - (frames.length + 1)))) frames)
  | [], last, label, before, frames, rest => by
    rw [keptMembers, ← List.reverse_cons]
    exact foldlM_step rfl rest
  | (name, value) :: more, last, label, before, frames, rest => by
    simp only [memberTokens, List.cons_append, List.append_assoc]
    rw [foldlM_step rfl, foldlM_step rfl, foldlM_step rfl, foldlM_value value,
      foldlM_members more, keptMembers, List.reverse_cons, List.append_assoc]
    rfl
end

/-- Reading the text of a value gives the value, but for what is nested too deeply in it. -/
theorem read?_indented {value : Json} (h : value.Written) :
    read? value.indented = some (value.kept maxOpen) := by
  have hmade := foldlM_value value [] []
  rw [List.append_nil] at hmade
  rw [read?, tokens?_toList_indented h, Option.bind_some, ofTokens?, hmade]
  rfl

end Rulebook.Json
