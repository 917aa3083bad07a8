import Rulebook.Compiler

/-!
# Why documents are refused

A document that is not compiled is refused for what it says or for how it says it, never for a name
of the store or of a custom operator. `ParseOnly` says so of one result. It is closed under taking
steps one after the other, so each reader on the way from the text to the tree has one lemma.
-/

namespace Rulebook

namespace Refusal

variable {α β : Type}

/-- The result is a value or a refusal that stops the making of a tree. -/
def ParseOnly (result : Except Refusal α) : Prop :=
  ∀ refusal, result = .error refusal → refusal.isParseError = true

theorem parseOnly_ok (value : α) : ParseOnly (.ok value) := by
  intro refusal h
  cases h

/-- A refusal that stops the making of a tree. -/
theorem parseOnly_error {refusal : Refusal} (h : refusal.isParseError = true) :
    ParseOnly (.error refusal : Except Refusal α) := by
  intro other ho
  cases ho
  exact h

/-- Two steps are refused for the reasons of the one or of the other. -/
theorem ParseOnly.bind {first : Except Refusal α} {second : α → Except Refusal β}
    (hf : ParseOnly first) (hs : ∀ value, ParseOnly (second value)) :
    ParseOnly (first >>= second) := by
  cases first with
  | error refusal => exact parseOnly_error (hf refusal rfl)
  | ok value => exact hs value

/-- A list is refused for the reasons of its members. -/
theorem ParseOnly.mapM {read : α → Except Refusal β} (h : ∀ item, ParseOnly (read item))
    (items : List α) : ParseOnly (items.mapM read) := by
  induction items with
  | nil => exact parseOnly_ok []
  | cons item more ih =>
    rw [List.mapM_cons]
    exact (h item).bind fun _ => ih.bind fun _ => parseOnly_ok _

/-- Steps from one state to the next are refused for the reasons of one of them. -/
theorem ParseOnly.foldlM {step : β → α → Except Refusal β}
    (h : ∀ state item, ParseOnly (step state item)) (items : List α) (state : β) :
    ParseOnly (items.foldlM step state) := by
  induction items generalizing state with
  | nil => exact parseOnly_ok state
  | cons item more ih =>
    rw [List.foldlM_cons]
    exact (h state item).bind ih

end Refusal

open Refusal (ParseOnly parseOnly_ok parseOnly_error)

namespace RuleReader

variable (reader : RuleReader) (expression : String)

/-- A reference is refused for a name that is no attribute. -/
theorem parseOnly_readLink (text : List Char) : ParseOnly (reader.readLink text) := by
  unfold readLink
  dsimp only
  split
  · exact parseOnly_ok _
  · exact parseOnly_error rfl

/-- An operand is refused for its text or for a name that is no attribute. -/
theorem parseOnly_readOperand (operand : List Char) :
    ParseOnly (reader.readOperand expression operand) := by
  unfold readOperand
  dsimp only
  split
  · exact parseOnly_error rfl
  · split
    · split
      · exact parseOnly_ok _
      · exact parseOnly_error rfl
    · split
      · exact parseOnly_ok _
      · exact (reader.parseOnly_readLink _).bind fun _ => parseOnly_ok _

/-- Operands are refused for the reasons of one of them. -/
theorem parseOnly_readOperands (operands : List (List Char)) :
    ParseOnly (reader.readOperands expression operands) :=
  .mapM (reader.parseOnly_readOperand expression) operands

/-- The number of operands is part of the text of a rule. -/
theorem parseOnly_single (operands : List (List Char)) :
    ParseOnly (single expression operands) := by
  unfold single
  split
  · exact parseOnly_ok _
  · exact parseOnly_error rfl

/-- A date is refused for its text or for a name that is no attribute. -/
theorem parseOnly_readDateOperand (operand : List Char) :
    ParseOnly (reader.readDateOperand expression operand) := by
  unfold readDateOperand
  dsimp only
  split
  · exact parseOnly_ok _
  · split
    · exact parseOnly_ok _
    · split
      · exact parseOnly_error rfl
      · exact (reader.parseOnly_readLink _).bind fun _ => parseOnly_ok _

/-- A bound is refused for a literal that is no number. -/
theorem parseOnly_numericBound (operand : Source) (offset : Float) :
    ParseOnly (numericBound expression operand offset) := by
  unfold numericBound
  split
  · split
    · exact parseOnly_ok _
    · exact parseOnly_error rfl
  · exact parseOnly_ok _

/-- A range is refused for the reasons of its bounds. -/
theorem parseOnly_numericRange (comparison : Comparison) (operand : Source) :
    ParseOnly (reader.numericRange expression comparison operand) := by
  have hbound := parseOnly_numericBound expression operand
  cases comparison with
  | lt => exact (hbound _).bind fun _ => parseOnly_ok _
  | gt => exact (hbound _).bind fun _ => parseOnly_ok _
  | le => exact (hbound _).bind fun _ => parseOnly_ok _
  | ge => exact (hbound _).bind fun _ => parseOnly_ok _
  | eq => exact (hbound _).bind fun _ => (hbound _).bind fun _ => parseOnly_ok _

/-- A set is refused for its operands. -/
theorem parseOnly_readDomain (operands : List (List Char)) (allRows : Bool) :
    ParseOnly (reader.readDomain expression operands allRows) := by
  unfold readDomain
  split
  · exact parseOnly_error rfl
  · exact (reader.parseOnly_readOperands expression operands).bind fun _ => parseOnly_ok _

/-- An assignment is refused for its operands. -/
theorem parseOnly_readAssignment (operands : List (List Char)) (defaultOnly : Bool) :
    ParseOnly (reader.readAssignment expression operands defaultOnly) :=
  (parseOnly_single expression operands).bind fun operand =>
    (reader.parseOnly_readOperand expression operand).bind fun _ => parseOnly_ok _

/-- Arithmetic is refused for its operands. -/
theorem parseOnly_readArithmetic (operands : List (List Char)) (operation : Arithmetic) :
    ParseOnly (reader.readArithmetic expression operands operation) := by
  unfold readArithmetic
  split
  · exact parseOnly_error rfl
  · exact (reader.parseOnly_readOperands expression operands).bind fun _ => parseOnly_ok _

/-- A clause is refused for its operands. -/
theorem parseOnly_readClause (operands : List (List Char)) (token : OperatorToken) :
    ParseOnly (reader.readClause expression operands token) := by
  cases token with
  | custom name =>
    simp only [readClause]
    split
    · exact parseOnly_error rfl
    · exact (reader.parseOnly_readOperands expression operands).bind fun _ => parseOnly_ok _
  | limit comparison =>
    exact (parseOnly_single expression operands).bind fun operand =>
      (reader.parseOnly_readOperand expression operand).bind fun source =>
        (reader.parseOnly_numericRange expression comparison source).bind fun _ => parseOnly_ok _
  | date comparison =>
    exact (parseOnly_single expression operands).bind fun operand =>
      (reader.parseOnly_readDateOperand expression operand).bind fun _ => parseOnly_ok _
  | basic operator =>
    cases operator with
    | notPopulated | populated => exact parseOnly_ok _
    | notEqual | equal | notIn | isIn =>
      exact reader.parseOnly_readDomain expression operands false
    | existsAs => exact reader.parseOnly_readDomain expression operands true
    | default => exact reader.parseOnly_readAssignment expression operands true
    | assign => exact reader.parseOnly_readAssignment expression operands false
    | assignSum => exact reader.parseOnly_readArithmetic expression operands .sum
    | assignDiff => exact reader.parseOnly_readArithmetic expression operands .diff
    | assignProd => exact reader.parseOnly_readArithmetic expression operands .prod
    | assignQuot => exact reader.parseOnly_readArithmetic expression operands .quot

/-- A rule is refused for its text or for a name that is no attribute. -/
theorem parseOnly_read (id : UInt32) (label : Option String) :
    ParseOnly (reader.read expression id label) := by
  unfold read
  split
  · refine (reader.parseOnly_readLink _).bind fun target => ?_
    split
    · exact parseOnly_error rfl
    · dsimp only
      split
      · exact (reader.parseOnly_readClause expression _ _).bind fun _ => parseOnly_ok _
      · exact parseOnly_error rfl
  · exact parseOnly_error rfl

end RuleReader

namespace RuleSet

variable (reader : RuleReader)

mutual
/-- An item is refused for the rules in it. -/
theorem parseOnly_addItem : (item : OutlineItem) → (set : RuleSet) → (numbering : Numbering) →
    ParseOnly (addItem reader set numbering item)
  | .rule label text, set, numbering => by
    rw [addItem, Head.readRule]
    refine ParseOnly.bind ?_ fun _ => parseOnly_ok _
    split
    · exact parseOnly_error rfl
    · exact (reader.parseOnly_read text _ label).bind fun _ => parseOnly_ok _
  | .join combinator, set, numbering => by
    rw [addItem]
    exact parseOnly_ok _
  | .failureMessage text, set, numbering => by
    rw [addItem]
    split <;> exact parseOnly_ok _
  | .customId text, set, numbering => by
    rw [addItem]
    split <;> exact parseOnly_ok _
  | .node kind description severity items, set, numbering => by
    rw [addItem]
    exact (parseOnly_addItems items _ _).bind fun _ => parseOnly_ok _

/-- Items are refused for the rules in them. -/
theorem parseOnly_addItems : (items : List OutlineItem) → (set : RuleSet) →
    (numbering : Numbering) → ParseOnly (addItems reader set numbering items)
  | [], set, numbering => by
    rw [addItems]
    exact parseOnly_ok _
  | item :: more, set, numbering => by
    rw [addItems]
    exact (parseOnly_addItem item set numbering).bind fun _ => parseOnly_addItems more _ _
end

end RuleSet

namespace Markup

/-- A token is refused for its tag or for its depth. -/
theorem OpenElements.parseOnly_step (maxDepth : Nat) (elements : OpenElements)
    (token : PlacedToken) : ParseOnly (step maxDepth elements token) := by
  unfold step
  split
  · exact parseOnly_ok _
  · exact parseOnly_ok _
  · exact parseOnly_ok _
  · split
    · exact parseOnly_error rfl
    · split
      · exact parseOnly_error rfl
      · exact parseOnly_ok _
  · split
    · exact parseOnly_error rfl
    · exact parseOnly_ok _
  · split
    · exact parseOnly_error rfl
    · split
      · exact parseOnly_ok _
      · exact parseOnly_error rfl
  · exact parseOnly_error rfl

/-- A text is refused as a document for its tags or for their depth. -/
theorem parseOnly_readDocument (maxDepth : Nat) (text : String) :
    ParseOnly (readDocument maxDepth text) := by
  refine (ParseOnly.foldlM (OpenElements.parseOnly_step maxDepth) _ _).bind fun elements => ?_
  unfold OpenElements.finish
  split
  · exact parseOnly_ok _
  · exact parseOnly_error rfl

end Markup

namespace Compiler

/-- A document that describes no tree is refused for what it says or for how it says it. -/
theorem parseOnly_compileRoot (compiler : Compiler) (markup : String) :
    ParseOnly (compiler.compileRoot markup) := by
  unfold compileRoot
  split
  · exact parseOnly_error rfl
  · refine (Markup.parseOnly_readDocument compiler.maxDepth markup).bind fun document => ?_
    split
    · exact parseOnly_error rfl
    · exact (RuleSet.parseOnly_addItems compiler.reader _ _ _).bind fun _ => parseOnly_ok _

/-- A document that is not compiled is refused for what it says or for how it says it. -/
theorem parseOnly_compile (compiler : Compiler) (markup : String) :
    ParseOnly (compiler.compile markup) :=
  (compiler.parseOnly_compileRoot markup).bind fun _ => parseOnly_ok _

end Compiler

end Rulebook
