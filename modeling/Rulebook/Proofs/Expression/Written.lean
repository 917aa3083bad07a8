import Rulebook.Proofs.Expression.Clauses
import Rulebook.Proofs.Expression.Layout
import Rulebook.Proofs.Expression.Operands

/-!
# Written rules are read back

A rule with operands is put together from an optional `NOT`, a target, an operator and a list of
literals and attributes, with any blanks between these parts and in any case. Reading its text gives
the rule with exactly these parts. No literal is mistaken for a part of the rule, whatever it holds:
parentheses, quotes, operators and commas in it stay where they are.
-/

namespace Rulebook

open Text (Blanks Gap Spaced)

/-- The operators that take operands and set no bounds. -/
inductive Verb where
  /-- The value is one of the members. -/
  | isIn
  /-- The value is none of the members. -/
  | notIn
  /-- The value is one of the members. -/
  | equal
  /-- The value is none of the members. -/
  | notEqual
  /-- One of the values in all rows is one of the members. -/
  | existsAs
  /-- Writes a value. -/
  | assign
  /-- Writes a value where none is. -/
  | default
  /-- Writes the result of arithmetic. -/
  | arithmetic (operation : Arithmetic)
  /-- Writes what a custom operator computes. -/
  | custom (name : String)

namespace Verb

/-- The words of an operator, what they mean, and whether they negate. -/
def phrase : Verb → Phrase
  | .isIn => ⟨"IN", .basic .isIn, false⟩
  | .notIn => ⟨"NOT IN", .basic .notIn, true⟩
  | .equal => ⟨"==", .basic .equal, false⟩
  | .notEqual => ⟨"!=", .basic .notEqual, true⟩
  | .existsAs => ⟨"EXISTS AS", .basic .existsAs, false⟩
  | .assign => ⟨"ASSIGN", .basic .assign, false⟩
  | .default => ⟨"DEFAULT", .basic .default, false⟩
  | .arithmetic .sum => ⟨"ASSIGN_SUM", .basic .assignSum, false⟩
  | .arithmetic .diff => ⟨"ASSIGN_DIFF", .basic .assignDiff, false⟩
  | .arithmetic .prod => ⟨"ASSIGN_PROD", .basic .assignProd, false⟩
  | .arithmetic .quot => ⟨"ASSIGN_QUOT", .basic .assignQuot, false⟩
  | .custom name => ⟨name, .custom name, false⟩

/-- The clause of an operator with operands, if it takes so many. -/
def clause? (sources : List Source) : Verb → Option Clause
  | .isIn | .notIn | .equal | .notEqual =>
    if sources = [] then none else some (.domain sources.eraseDups false)
  | .existsAs => if sources = [] then none else some (.domain sources.eraseDups true)
  | .assign => if h : sources.length = 1 then some (.assignment sources[0] false) else none
  | .default => if h : sources.length = 1 then some (.assignment sources[0] true) else none
  | .arithmetic operation => if sources = [] then none else some (.arithmetic operation sources)
  | .custom name => if sources.length ≤ 4 then some (.custom name sources) else none

/-- A custom operator is registered and holds no opening parenthesis. -/
def Fits (registry : Registry) : Verb → Prop
  | .custom name => name ∈ registry.names ∧ '(' ∉ name.toList
  | _ => True

variable {verb : Verb} {registry : Registry}

/-- The phrase of an operator that fits is one that the registry knows. -/
theorem Fits.mem_phrases (h : verb.Fits registry) : verb.phrase ∈ registry.phrases := by
  cases verb with
  | custom name => exact List.mem_append_left _ (List.mem_map_of_mem h.1)
  | arithmetic operation => exact List.mem_append_right _ (by cases operation <;> decide)
  | isIn | notIn | equal | notEqual | existsAs | assign | default =>
    exact List.mem_append_right _ (by decide)

/-- No word of an operator that fits holds an opening parenthesis. -/
theorem Fits.open_not_mem (hm : registry.Made) (h : verb.Fits registry) :
    ∀ word ∈ verb.phrase.words, '(' ∉ word := by
  cases verb with
  | custom name =>
    intro word hw
    have hwords : (phrase (.custom name)).words = [name.toList] := (hm.isKept h.1).words_custom
    rw [hwords, List.mem_singleton] at hw
    exact hw ▸ h.2
  | arithmetic operation => cases operation <;> decide
  | isIn | notIn | equal | notEqual | existsAs | assign | default => decide

end Verb

namespace RuleReader

variable {reader : RuleReader} {expression : String} {operands : List (List Char)}
  {sources : List Source}

/-- As many operands are read as are written. -/
theorem length_of_readOperands (h : reader.readOperands expression operands = .ok sources) :
    sources.length = operands.length := by
  induction operands generalizing sources with
  | nil =>
    cases h
    rfl
  | cons operand more ih =>
    rw [readOperands, List.mapM_cons] at h
    obtain ⟨first, -, h⟩ := Refusal.bind_eq_ok h
    obtain ⟨later, hlater, h⟩ := Refusal.bind_eq_ok h
    cases h
    rw [List.length_cons, List.length_cons, ih hlater]

/-- Operands are written where some are read. -/
theorem ne_nil_of_readOperands (h : reader.readOperands expression operands = .ok sources)
    (hne : sources ≠ []) : operands ≠ [] := by
  rintro rfl
  cases h
  exact hne rfl

/-- A single operand is read by itself. -/
theorem readOperand_of_readOperands (h : reader.readOperands expression operands = .ok sources)
    (hone : sources.length = 1) : ∃ operand, operands = [operand] ∧
      reader.readOperand expression operand = .ok sources[0] := by
  obtain ⟨operand, rfl⟩ := List.length_eq_one_iff.mp ((length_of_readOperands h).symm.trans hone)
  obtain ⟨source, rfl⟩ := List.length_eq_one_iff.mp hone
  rw [readOperands, List.mapM_cons] at h
  obtain ⟨first, hfirst, h⟩ := Refusal.bind_eq_ok h
  cases h
  exact ⟨operand, rfl, hfirst⟩

/-- Members are read as a set. -/
theorem readDomain_eq {allRows : Bool} {clause : Clause}
    (hread : reader.readOperands expression operands = .ok sources)
    (hclause : (if sources = [] then none else some (Clause.domain sources.eraseDups allRows)) =
      some clause) : reader.readDomain expression operands allRows = .ok (clause, sources) := by
  split_ifs at hclause with hnil
  cases hclause
  simp only [readDomain, if_neg (ne_nil_of_readOperands hread hnil), hread]
  rfl

/-- Operands of arithmetic are read as such. -/
theorem readArithmetic_eq {operation : Arithmetic} {clause : Clause}
    (hread : reader.readOperands expression operands = .ok sources)
    (hclause : (if sources = [] then none else some (Clause.arithmetic operation sources)) =
      some clause) :
    reader.readArithmetic expression operands operation = .ok (clause, sources) := by
  split_ifs at hclause with hnil
  cases hclause
  simp only [readArithmetic, if_neg (ne_nil_of_readOperands hread hnil), hread]
  rfl

/-- The operand of an assignment is read as its value. -/
theorem readAssignment_eq {defaultOnly : Bool} {clause : Clause}
    (hread : reader.readOperands expression operands = .ok sources)
    (hclause : (if h : sources.length = 1 then some (Clause.assignment sources[0] defaultOnly)
      else none) = some clause) :
    reader.readAssignment expression operands defaultOnly = .ok (clause, sources) := by
  split_ifs at hclause with hone
  cases hclause
  obtain ⟨operand, rfl, hoperand⟩ := readOperand_of_readOperands hread hone
  obtain ⟨source, rfl⟩ := List.length_eq_one_iff.mp hone
  have hvalue : reader.readOperand expression operand = .ok source := hoperand
  simp only [readAssignment, single, bind, Except.bind, hvalue]
  rfl

/-- The clause of an operator is read with the operands that are read. -/
theorem readClause_verb {verb : Verb} {clause : Clause}
    (hread : reader.readOperands expression operands = .ok sources)
    (hclause : verb.clause? sources = some clause) :
    reader.readClause expression operands verb.phrase.token = .ok (clause, sources) := by
  cases verb with
  | isIn | notIn | equal | notEqual | existsAs => exact readDomain_eq hread hclause
  | assign | default => exact readAssignment_eq hread hclause
  | arithmetic operation => cases operation <;> exact readArithmetic_eq hread hclause
  | custom name =>
    simp only [Verb.clause?] at hclause
    split_ifs at hclause with hfew
    cases hclause
    have hcount : ¬ maxArguments < operands.length :=
      not_lt.mpr (length_of_readOperands hread ▸ hfew)
    simp only [Verb.phrase, readClause, if_neg hcount, hread]
    rfl

end RuleReader

/-- A rule as it is written. -/
structure Written where
  /-- The blanks at the front. -/
  front : Blanks
  /-- The leading `NOT`. -/
  negation : Option Negation
  /-- The target. -/
  target : Mention
  /-- The blanks before the operator. -/
  before : Blanks
  /-- The operator. -/
  verb : Verb
  /-- The operator as it is written. -/
  operator : Spaced
  /-- The blanks behind the operator. -/
  behind : Blanks
  /-- The operands. -/
  operands : List Operand
  /-- The blanks between the parentheses if there are no operands. -/
  hollow : Blanks
  /-- The blanks at the end. -/
  last : Blanks
  /-- The clause of the operator with the operands. -/
  clause : Clause
  /-- The name of the target holds no parentheses. -/
  plain : '(' ∉ target.attr.name.toList ∧ ')' ∉ target.attr.name.toList
  /-- The operator is written with its words, in any case. -/
  spelled : operator.words.map Text.upper = verb.phrase.words
  /-- The operator takes so many operands. -/
  admitted : verb.clause? (operands.map Operand.source) = some clause

namespace Written

variable (written : Written)

theorem plain_target : ∀ c ∈ written.target.text, Shape.isPlain c = true :=
  written.target.plain_text written.plain

/-- The layout of the rule. -/
def layout : Layout written.verb.phrase where
  front := written.front
  negation := written.negation
  target := written.target.text
  before := written.before
  operator := written.operator
  behind := written.behind
  last := written.last
  plain := written.plain_target
  spelled := written.spelled

/-- The text of the rule. -/
def text : String :=
  String.ofList (written.layout.text (Operand.join written.hollow written.operands))

/-- The rule that is meant. -/
def rule (id : UInt32) (label : Option String) : Rule where
  id := id
  label := label
  expression := Text.trimmed written.text
  operator := written.verb.phrase.text
  target := written.target.attr
  record := written.target.record
  negated := written.verb.phrase.negated || written.negation.isSome
  operands := written.operands.map Operand.source
  clause := written.clause

/-- What the rule names is known to a reader. -/
structure Fits (reader : RuleReader) : Prop where
  /-- The target is an attribute of the catalog. -/
  target : written.target.Known reader.catalog
  /-- The operator is there. -/
  verb : written.verb.Fits reader.registry
  /-- The operands name attributes of the catalog, without commas in their names. -/
  operands : ∀ operand ∈ written.operands, operand.Fits reader.catalog

/-- A written rule is read as the rule that is meant, with whatever names registrations made. -/
theorem read_of_made {reader : RuleReader} (hm : reader.registry.Made)
    (hfits : written.Fits reader) (id : UInt32) (label : Option String) :
    reader.read written.text id label = .ok (written.rule id label) := by
  have hlink : reader.readLink written.layout.target = .ok written.target.link :=
    written.target.readLink_text hfits.target
  have hclause := RuleReader.readClause_verb
    (Operand.readOperands_join written.hollow hfits.operands written.text) written.admitted
  rw [text] at hclause ⊢
  rw [RuleReader.read_layout hm hfits.verb.mem_phrases (hfits.verb.open_not_mem hm) written.layout
    hlink, hclause]
  rfl

/-- A written rule is read as the rule that is meant. -/
theorem read_text {reader : RuleReader} (hbuilt : reader.registry.Built)
    (hfits : written.Fits reader) (id : UInt32) (label : Option String) :
    reader.read written.text id label = .ok (written.rule id label) :=
  written.read_of_made hbuilt.made hfits id label

/-- A rule with a custom operator whose literal looks like another operand list. -/
def sample : Written where
  front := .space
  negation := some ⟨['n', 'O', 't'], .tab, rfl⟩
  target := { letter := 'n', record := .new, gap := .space,
              attr := ⟨1, 1, "Owner"⟩, selects := by decide, bare := by decide +kernel }
  before := .none
  verb := .custom "MASK"
  operator := ⟨['m', 'a', 'S', 'k'], []⟩
  behind := .space
  operands := [.literal .none "x') IN ('y, z" .space,
    .named { letter := 'O', record := .old, attr := ⟨2, 1, "Fee"⟩,
             selects := by decide, bare := by decide +kernel }]
  hollow := .none
  last := .space
  clause := .custom "MASK" [.literal "x') IN ('y, z", .linked ⟨⟨2, 1, "Fee"⟩, .old⟩]
  plain := by decide +kernel
  spelled := by decide +kernel
  admitted := by decide +kernel

/-- The rule of the sample is read. -/
theorem read_sample :
    sample.text = " nOt\t(n. Owner)maSk ('x&apos;) IN (&apos;y&#44; z' ,O.Fee) " ∧
      ∃ registry : Registry, registry.names = ["MASK"] ∧
        RuleReader.read { catalog := .ofList [⟨1, 1, "Owner"⟩, ⟨2, 1, "Fee"⟩], registry }
          sample.text 7 none = .ok (sample.rule 7 none) := by
  have hregister : Registry.empty.register "mask" (fun text _ _ _ => text) =
      .ok ⟨[("MASK", fun text _ _ _ => text)]⟩ := rfl
  refine ⟨by decide +kernel, ⟨_, rfl, read_text sample (.register .empty hregister) ?_ 7 none⟩⟩
  exact ⟨by decide +kernel, ⟨List.mem_cons_self, by decide⟩, by decide +kernel⟩

end Written

end Rulebook
