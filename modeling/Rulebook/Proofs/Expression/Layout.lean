import Rulebook.Expression.Reading
import Rulebook.Proofs.Operator.Finding

/-!
# The layout of a rule's text

A rule can be laid out in many ways: blanks may stand around all of its parts, its words may be
written in any case, and `NOT` may stand in front. However it is laid out, the parts are found
again: the target ends at the first closing parenthesis, the operator at the first opening one
behind it, and the operands at the last closing one, whatever they contain.
-/

namespace Rulebook

open Text (Blanks Gap Spaced)

/-- The word `NOT` in any case, with the gap that follows it. -/
structure Negation where
  /-- The word. -/
  word : List Char
  /-- The gap. -/
  gap : Gap
  /-- The word is `NOT`. -/
  spelled : Text.upper word = notWord

/-- A way to write a rule with an operator phrase, except for its operands. -/
structure Layout (phrase : Phrase) where
  /-- The blanks at the front. -/
  front : Blanks
  /-- The leading `NOT`. -/
  negation : Option Negation
  /-- The text of the target. -/
  target : List Char
  /-- The blanks before the operator. -/
  before : Blanks
  /-- The operator. -/
  operator : Spaced
  /-- The blanks behind the operator. -/
  behind : Blanks
  /-- The blanks at the end. -/
  last : Blanks
  /-- The target holds no parentheses. -/
  plain : ∀ c ∈ target, Shape.isPlain c = true
  /-- The operator has the words of the phrase, in any case. -/
  spelled : operator.words.map Text.upper = phrase.words

/-- The rule of a text with a shape, given its target, its operator and its clause with the
operands. -/
def Shape.rule (shape : Shape) (expression : String) (link : Link) (found : FoundOperator)
    (id : UInt32) (label : Option String) (reading : Clause × List Source) : Rule where
  id := id
  label := label
  expression := Text.trimmed expression
  operator := found.text
  target := link.attr
  record := link.record
  negated := found.negated || shape.negated
  operands := reading.2
  clause := reading.1

namespace Layout

variable {phrase : Phrase}

/-- The text behind the leading `NOT`. -/
def unsigned (layout : Layout phrase) (body : List Char) : List Char :=
  '(' :: (layout.target ++ ')' :: (layout.before.text ++ (layout.operator.text ++
    (layout.behind.text ++ '(' :: (body ++ ')' :: layout.last.text)))))

/-- The text of the rule with a text between the parentheses of the operands. -/
def text (layout : Layout phrase) (body : List Char) : List Char :=
  layout.front.text ++ match layout.negation with
    | none => layout.unsigned body
    | some negation => negation.word ++ (negation.gap.text ++ layout.unsigned body)

/-- The rule that the text stands for, given its clause with its operands. -/
def rule (layout : Layout phrase) (body : List Char) (link : Link) (id : UInt32)
    (label : Option String) (reading : Clause × List Source) : Rule where
  id := id
  label := label
  expression := Text.trimmed (String.ofList (layout.text body))
  operator := phrase.text
  target := link.attr
  record := link.record
  negated := phrase.negated || layout.negation.isSome
  operands := reading.2
  clause := reading.1

end Layout

namespace Shape

/-- A target without parentheses is found between the first ones. -/
theorem parenthesis?_target {target : List Char} (h : ∀ c ∈ target, isPlain c = true)
    (rest : List Char) : parenthesis? ('(' :: (target ++ ')' :: rest)) = some (target, rest) := by
  have hstop : ¬ isPlain ')' = true := by decide
  rw [parenthesis?, List.dropWhile_append_of_pos h, List.dropWhile_cons_of_neg hstop,
    List.takeWhile_append_of_pos h, List.takeWhile_cons_of_neg hstop, List.append_nil]
  rfl

/-- The operands end at the last closing parenthesis. -/
theorem operands?_body (body : List Char) (last : Blanks) :
    operands? ('(' :: (body ++ ')' :: last.text)) = some (some body) := by
  have hend : Text.trimEnd last.text = [] :=
    Text.trimEnd_blanks [] last
  have hbody : Text.trimEnd (body ++ ')' :: last.text) = body ++ [')'] := by
    rw [Text.trimEnd_append_cons _ _ (by decide), hend]
  simp [operands?, hbody]

/-- A text in front of the first opening parenthesis is cut off there. -/
theorem span_open {segment : List Char} (h : '(' ∉ segment) (rest : List Char) :
    (segment ++ '(' :: rest).takeWhile (· != '(') = segment ∧
      (segment ++ '(' :: rest).dropWhile (· != '(') = '(' :: rest := by
  have hfree : ∀ c ∈ segment, (c != '(') = true := fun c hc =>
    bne_iff_ne.mpr fun heq => h (heq ▸ hc)
  rw [List.takeWhile_append_of_pos hfree, List.dropWhile_append_of_pos hfree]
  simp

/-- A text that begins with a parenthesis begins with no `NOT`. -/
theorem afterNot?_open (rest : List Char) : afterNot? ('(' :: rest) = none := by
  unfold afterNot?
  split
  · next o t blank more heq =>
    cases heq
    rw [if_neg]
    rintro ⟨hword, -⟩
    cases hword
  · rfl

/-- What follows a leading `NOT` and its gap. -/
theorem afterNot?_negation (negation : Negation) (rest : List Char) :
    afterNot? (negation.word ++ (negation.gap.text ++ rest)) = some (Text.trimStart rest) := by
  obtain ⟨word, ⟨⟨blanks, hblank⟩, hne⟩, hspelled⟩ := negation
  have hlength : word.length = 3 := by
    rw [← Text.length_upper, hspelled]
    rfl
  obtain ⟨n, o, t, rfl⟩ := List.length_eq_three.mp hlength
  cases blanks with
  | nil => exact absurd rfl hne
  | cons blank more =>
    obtain ⟨hfirst, hmore⟩ := List.forall_mem_cons.mp hblank
    simp only [List.cons_append, List.nil_append, afterNot?]
    rw [if_pos ⟨hspelled, hfirst⟩, Text.trimStart_blanks ⟨more, hmore⟩]

end Shape

namespace Layout

variable {phrase : Phrase} (layout : Layout phrase)

/-- Behind the `NOT` the target, the operator and the operands are found. -/
theorem unsigned?_unsigned (hopen : '(' ∉ layout.operator.text) (negated : Bool)
    (body : List Char) : Shape.unsigned? negated (layout.unsigned body) =
      some ⟨negated, layout.target, Text.trim layout.operator.text, some body⟩ := by
  have hsegment : '(' ∉ layout.before.text ++ (layout.operator.text ++ layout.behind.text) := by
    have hblank : Text.isBlank '(' = false := by decide
    simp [layout.before.not_mem hblank, layout.behind.not_mem hblank, hopen]
  have hrest : layout.before.text ++ (layout.operator.text ++
      (layout.behind.text ++ '(' :: (body ++ ')' :: layout.last.text))) =
      (layout.before.text ++ (layout.operator.text ++ layout.behind.text)) ++
        '(' :: (body ++ ')' :: layout.last.text) := by
    simp only [List.append_assoc]
  obtain ⟨htake, hdrop⟩ := Shape.span_open hsegment (body ++ ')' :: layout.last.text)
  simp only [Shape.unsigned?, unsigned, Shape.parenthesis?_target layout.plain, hrest, htake, hdrop,
    Shape.operands?_body, Text.trim_blanks, Option.bind_eq_bind, Option.bind_some]
  rfl

/-- The shape of the text is that of the layout. -/
theorem ofText?_text (hopen : '(' ∉ layout.operator.text) (body : List Char) :
    Shape.ofText? (layout.text body) =
      some ⟨layout.negation.isSome, layout.target, Text.trim layout.operator.text, some body⟩ := by
  have hstart : Text.trimStart (layout.unsigned body) = layout.unsigned body :=
    Text.trimStart_eq_self rfl
  rw [Shape.ofText?, text, Text.trimStart_blanks]
  cases hn : layout.negation with
  | none =>
    simp only
    rw [hstart, unsigned, Shape.afterNot?_open, ← unsigned, unsigned?_unsigned layout hopen]
    rfl
  | some negation =>
    have hword : Text.IsWord negation.word :=
      Text.isWord_of_upper (negation.spelled ▸ by decide)
    simp only
    rw [Text.trimStart_word hword, Shape.afterNot?_negation, hstart]
    exact unsigned?_unsigned layout hopen true body

/-- The operator holds no opening parenthesis if the phrase holds none. -/
theorem open_not_mem_operator (h : ∀ word ∈ phrase.words, '(' ∉ word) :
    '(' ∉ layout.operator.text := by
  intro hm
  obtain ⟨word, hword, hc⟩ := layout.operator.exists_word hm (by decide)
  have hupper : Text.upper word ∈ phrase.words :=
    layout.spelled ▸ List.mem_map_of_mem hword
  exact h _ hupper (List.mem_map_of_mem (f := Char.toUpper) hc)

end Layout

namespace RuleReader

variable {reader : RuleReader} {phrase : Phrase}

/-- A text with target and operator is read if the clause of the operator is. -/
theorem read_of_shape {reader : RuleReader} {expression : String} {shape : Shape} {link : Link}
    {found : FoundOperator} (hs : Shape.ofText? expression.toList = some shape)
    (hlink : reader.readLink shape.target = .ok link) (hne : shape.segment ≠ [])
    (hf : findOperator? (String.ofList shape.segment) reader.registry.names = some found)
    (id : UInt32) (label : Option String) : reader.read expression id label =
      (reader.readClause expression ((shape.operands.map splitOperands).getD []) found.token).map
        (shape.rule expression link found id label) := by
  rw [read, hs]
  simp only [hlink, hf, bind, Except.bind, if_neg hne]
  cases reader.readClause expression ((shape.operands.map splitOperands).getD []) found.token with
  | error refusal => rfl
  | ok reading => rfl

/-- The words of the operator are those of the layout. -/
theorem words_operator (hm : reader.registry.Made) (hp : phrase ∈ reader.registry.phrases)
    (layout : Layout phrase) :
    Text.words (Text.trim layout.operator.text) = layout.operator.words := by
  rw [Text.words_trim]
  exact Text.words_spaced fun word hw => Text.isWord_of_upper
    (Registry.isWord_of_mem_words hm hp (layout.spelled ▸ List.mem_map_of_mem hw))

/-- Reading a layout is reading the clause of its operator with the operands between the
parentheses. -/
theorem read_layout (hm : reader.registry.Made) (hp : phrase ∈ reader.registry.phrases)
    (hopen : ∀ word ∈ phrase.words, '(' ∉ word) (layout : Layout phrase) {link : Link}
    (hlink : reader.readLink layout.target = .ok link) (body : List Char) (id : UInt32)
    (label : Option String) : reader.read (String.ofList (layout.text body)) id label =
      (reader.readClause (String.ofList (layout.text body)) (splitOperands body) phrase.token).map
        (layout.rule body link id label) := by
  have hshape := layout.ofText?_text (layout.open_not_mem_operator hopen) body
  have hwords := words_operator hm hp layout
  have hsegment : Text.trim layout.operator.text ≠ [] := by
    intro hnil
    rw [hnil] at hwords
    cases hwords
  have hfound : findOperator? (String.ofList (Text.trim layout.operator.text))
      reader.registry.names = some phrase.found := by
    refine Registry.findOperator?_of_words hm hp ?_
    rw [String.toList_ofList, Text.words_upper, hwords, layout.spelled]
  rw [← String.toList_ofList (l := layout.text body)] at hshape
  exact read_of_shape hshape hlink hsegment hfound id label

end RuleReader

end Rulebook
