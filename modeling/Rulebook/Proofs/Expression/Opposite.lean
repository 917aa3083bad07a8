import Rulebook.Proofs.Expression.Layout
import Rulebook.Proofs.Expression.Clauses

/-!
# `NOT` in front of rules

A rule that is not negated is read with `NOT` in front of its text as the same rule, negated. The
text is cut at the same places, and its parts are read as before, because the text of the whole rule
is used in refusals only. `Carries` says so of two results: what the first one gives, the second
gives too.
-/

namespace Rulebook

namespace Refusal

variable {α β : Type}

/-- What the first result gives, the second gives too. -/
def Carries (first second : Except Refusal α) : Prop :=
  ∀ value, first = .ok value → second = .ok value

theorem carries_refl (result : Except Refusal α) : Carries result result := fun _ => id

theorem carries_error (refusal : Refusal) (second : Except Refusal α) :
    Carries (.error refusal) second := by
  intro value h
  cases h

/-- Two steps carry over if each one does. -/
theorem Carries.bind {first second : Except Refusal α} {next other : α → Except Refusal β}
    (hf : Carries first second) (hn : ∀ value, Carries (next value) (other value)) :
    Carries (first >>= next) (second >>= other) := by
  intro result h
  obtain ⟨value, hvalue, hresult⟩ := bind_eq_ok h
  rw [hf value hvalue]
  exact hn value result hresult

/-- A list carries over if its members do. -/
theorem Carries.mapM {read other : α → Except Refusal β}
    (h : ∀ item, Carries (read item) (other item)) (items : List α) :
    Carries (items.mapM read) (items.mapM other) := by
  induction items with
  | nil => exact carries_refl _
  | cons item more ih =>
    rw [List.mapM_cons, List.mapM_cons]
    exact (h item).bind fun _ => ih.bind fun _ => carries_refl _

end Refusal

open Refusal (Carries carries_refl carries_error)

namespace RuleReader

variable (reader : RuleReader) (expression other : String)

/-- An operand is read without regard to the text of the rule. -/
theorem carries_readOperand (operand : List Char) :
    Carries (reader.readOperand expression operand) (reader.readOperand other operand) := by
  unfold readOperand
  dsimp only
  split
  · exact carries_error _ _
  · split
    · split
      · exact carries_refl _
      · exact carries_error _ _
    · exact carries_refl _

theorem carries_readOperands (operands : List (List Char)) :
    Carries (reader.readOperands expression operands) (reader.readOperands other operands) :=
  .mapM (reader.carries_readOperand expression other) operands

/-- A single operand is taken without regard to the text of the rule. -/
theorem carries_single (operands : List (List Char)) :
    Carries (single expression operands) (single other operands) := by
  unfold single
  split
  · exact carries_refl _
  · exact carries_error _ _

/-- A date is read without regard to the text of the rule. -/
theorem carries_readDateOperand (operand : List Char) :
    Carries (reader.readDateOperand expression operand) (reader.readDateOperand other operand) := by
  unfold readDateOperand
  dsimp only
  split
  · exact carries_refl _
  · split
    · exact carries_refl _
    · split
      · exact carries_error _ _
      · exact carries_refl _

/-- A bound is made without regard to the text of the rule. -/
theorem carries_numericBound (operand : Source) (offset : Float) :
    Carries (numericBound expression operand offset) (numericBound other operand offset) := by
  unfold numericBound
  split
  · split
    · exact carries_refl _
    · exact carries_error _ _
  · exact carries_refl _

/-- A range is made without regard to the text of the rule. -/
theorem carries_numericRange (comparison : Comparison) (operand : Source) :
    Carries (reader.numericRange expression comparison operand)
      (reader.numericRange other comparison operand) := by
  have hbound := carries_numericBound expression other operand
  cases comparison with
  | lt | gt | le | ge => exact (hbound _).bind fun _ => carries_refl _
  | eq => exact (hbound _).bind fun _ => (hbound _).bind fun _ => carries_refl _

/-- A set is read without regard to the text of the rule. -/
theorem carries_readDomain (operands : List (List Char)) (allRows : Bool) :
    Carries (reader.readDomain expression operands allRows)
      (reader.readDomain other operands allRows) := by
  unfold readDomain
  split
  · exact carries_error _ _
  · exact (reader.carries_readOperands expression other operands).bind fun _ => carries_refl _

/-- An assignment is read without regard to the text of the rule. -/
theorem carries_readAssignment (operands : List (List Char)) (defaultOnly : Bool) :
    Carries (reader.readAssignment expression operands defaultOnly)
      (reader.readAssignment other operands defaultOnly) :=
  (carries_single expression other operands).bind fun operand =>
    (reader.carries_readOperand expression other operand).bind fun _ => carries_refl _

/-- Arithmetic is read without regard to the text of the rule. -/
theorem carries_readArithmetic (operands : List (List Char)) (operation : Arithmetic) :
    Carries (reader.readArithmetic expression operands operation)
      (reader.readArithmetic other operands operation) := by
  unfold readArithmetic
  split
  · exact carries_error _ _
  · exact (reader.carries_readOperands expression other operands).bind fun _ => carries_refl _

/-- A clause is read without regard to the text of the rule. -/
theorem carries_readClause (operands : List (List Char)) (token : OperatorToken) :
    Carries (reader.readClause expression operands token)
      (reader.readClause other operands token) := by
  cases token with
  | custom name =>
    simp only [readClause]
    split
    · exact carries_error _ _
    · exact (reader.carries_readOperands expression other operands).bind fun _ => carries_refl _
  | limit comparison =>
    exact (carries_single expression other operands).bind fun operand =>
      (reader.carries_readOperand expression other operand).bind fun source =>
        (reader.carries_numericRange expression other comparison source).bind fun _ =>
          carries_refl _
  | date comparison =>
    exact (carries_single expression other operands).bind fun operand =>
      (reader.carries_readDateOperand expression other operand).bind fun _ => carries_refl _
  | basic operator =>
    cases operator with
    | notPopulated | populated => exact carries_refl _
    | notEqual | equal | notIn | isIn | existsAs =>
      exact reader.carries_readDomain expression other operands _
    | default | assign => exact reader.carries_readAssignment expression other operands _
    | assignSum | assignDiff | assignProd | assignQuot =>
      exact reader.carries_readArithmetic expression other operands _

end RuleReader

/-- `NOT` and a blank in front of a text. -/
def withNot (text : String) : String := "NOT " ++ text

/-- The word `NOT` with one blank behind it. -/
def Negation.plain : Negation where
  word := notWord
  gap := .space
  spelled := rfl

theorem toList_withNot (text : String) : (withNot text).toList =
    Negation.plain.word ++ (Negation.plain.gap.text ++ text.toList) :=
  String.toList_append

namespace Shape

/-- The sign of a text does not change its other parts. -/
theorem unsigned?_eq_map (negated : Bool) (text : List Char) :
    unsigned? negated text = (unsigned? false text).map fun shape => { shape with negated } := by
  unfold unsigned?
  cases parenthesis? text with
  | none => rfl
  | some found =>
    obtain ⟨target, rest⟩ := found
    cases h : operands? (rest.dropWhile (· != '(')) with
    | none => simp [h]
    | some operands => simp [h]

/-- Behind `NOT` a text has the same parts as before. -/
theorem ofText?_withNot {text : String} {shape : Shape} (h : ofText? text.toList = some shape)
    (hn : shape.negated = false) :
    ofText? (withNot text).toList = some { shape with negated := true } := by
  have hunsigned : unsigned? false (Text.trimStart text.toList) = some shape := by
    unfold ofText? at h
    split at h
    · -- a text that begins with `NOT` is negated
      next rest _ =>
      rw [unsigned?_eq_map] at h
      obtain ⟨other, -, rfl⟩ := Option.map_eq_some_iff.mp h
      cases hn
    · exact h
  have hword : Text.IsWord Negation.plain.word := by decide
  rw [ofText?, toList_withNot, Text.trimStart_word hword, afterNot?_negation]
  simp only
  rw [unsigned?_eq_map, hunsigned]
  rfl

end Shape

namespace Text

theorem length_trim_le (text : List Char) : (trim text).length ≤ text.length :=
  ((List.rdropWhile_prefix isBlank _).sublist.trans (List.dropWhile_sublist isBlank)).length_le

/-- With `NOT` in front a trimmed text is longer. -/
theorem trimmed_withNot_ne (text : String) : trimmed (withNot text) ≠ trimmed text := by
  intro h
  have hlength := congrArg (fun text => text.toList.length) h
  simp only [trimmed, String.toList_ofList, toList_withNot] at hlength
  have hblank : trim (trimEnd (' ' :: text.toList)) = trim text.toList := by
    rw [trim_trimEnd, trim, trim]
    exact congrArg trimEnd (trimStart_blanks .space text.toList)
  have hlong : trim (Negation.plain.word ++ (Negation.plain.gap.text ++ text.toList)) =
      'N' :: 'O' :: 'T' :: trimEnd (' ' :: text.toList) := by
    rw [trim, trimStart_word (by decide)]
    exact trimEnd_append_cons ['N', 'O'] (' ' :: text.toList) (by decide)
  have hle := length_trim_le (trimEnd (' ' :: text.toList))
  rw [hlong, ← hblank] at hlength
  simp only [List.length_cons] at hlength
  omega

end Text

namespace RuleReader

variable {reader : RuleReader}

/-- A rule that is read is the rule of the shape of its text. -/
theorem shape_of_read {text : String} {id : UInt32} {label : Option String} {rule : Rule}
    (h : reader.read text id label = .ok rule) :
    ∃ shape link found reading, Shape.ofText? text.toList = some shape ∧
      reader.readLink shape.target = .ok link ∧ shape.segment ≠ [] ∧
      findOperator? (String.ofList shape.segment) reader.registry.names = some found ∧
      reader.readClause text ((shape.operands.map splitOperands).getD []) found.token =
        .ok reading ∧ rule = shape.rule text link found id label reading := by
  unfold read at h
  cases hs : Shape.ofText? text.toList with
  | none =>
    rw [hs] at h
    cases h
  | some shape =>
    simp only [hs] at h
    obtain ⟨link, hlink, h⟩ := Refusal.bind_eq_ok h
    split at h
    · cases h
    · next hsegment =>
      cases hf : findOperator? (String.ofList shape.segment) reader.registry.names with
      | none =>
        simp only [hf] at h
        cases h
      | some found =>
        simp only [hf] at h
        obtain ⟨reading, hclause, h⟩ := Refusal.bind_eq_ok h
        cases h
        exact ⟨shape, link, found, reading, rfl, hlink, hsegment, hf, hclause, rfl⟩

/-- A rule that is not negated is read with `NOT` in front as the same rule, negated. -/
theorem read_withNot {text : String} {id : UInt32} {label : Option String} {rule : Rule}
    (h : reader.read text id label = .ok rule) (hn : rule.negated = false) :
    rule.expression = Text.trimmed text ∧ reader.read (withNot text) id label =
      .ok { rule with negated := true, expression := Text.trimmed (withNot text) } := by
  obtain ⟨shape, link, found, reading, hs, hlink, hsegment, hf, hclause, rfl⟩ := shape_of_read h
  have hnot := Shape.ofText?_withNot hs (Bool.or_eq_false_iff.mp hn).2
  have hcarried := reader.carries_readClause text (withNot text) _ _ _ hclause
  refine ⟨rfl, ?_⟩
  rw [read_of_shape hnot hlink hsegment hf, hcarried]
  simp only [Except.map, Shape.rule, Bool.or_true]

end RuleReader

end Rulebook
