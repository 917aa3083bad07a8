import Rulebook.Expression.Reading

/-!
# The clauses of rules that are read

Each operator makes clauses of one kind, whatever its operands are. A rule is read as one with a
custom operator only under a name that the registry of the reader has.
-/

namespace Rulebook

/-- No phrase that is always there stands for a custom operator. -/
theorem Phrase.token_ne_custom {phrase : Phrase} (h : phrase ∈ builtin) (name : String) :
    phrase.token ≠ .custom name := by
  have hall : ∀ phrase ∈ builtin,
      (match phrase.token with | .custom _ => true | _ => false) = false := by decide
  intro ht
  have hphrase := hall phrase h
  rw [ht] at hphrase
  cases hphrase

/-- A custom operator is found only under one of the names that are given. -/
theorem mem_of_findOperator? {segment name : String} {names : List String} {found : FoundOperator}
    (h : findOperator? segment names = some found) (ht : found.token = .custom name) :
    name ∈ names := by
  obtain ⟨phrase, hp, hfound⟩ := List.exists_of_findSome?_eq_some h
  obtain ⟨place, -, rfl⟩ := Option.map_eq_some_iff.mp hfound
  rcases List.mem_append.mp hp with hp | hp
  · obtain ⟨given, hg, rfl⟩ := List.mem_map.mp hp
    cases ht
    exact hg
  · exact absurd ht (Phrase.token_ne_custom hp name)

/-- A reading in two steps that is not refused takes both. -/
theorem Refusal.bind_eq_ok {α β : Type} {first : Except Refusal α} {second : α → Except Refusal β}
    {result : β} (h : (first >>= second) = .ok result) :
    ∃ value, first = .ok value ∧ second value = .ok result := by
  cases hf : first with
  | error refusal =>
    rw [hf] at h
    cases h
  | ok value =>
    rw [hf] at h
    exact ⟨value, rfl, h⟩

/-- The kind of clause that an operator makes. -/
def BasicOperator.kind : BasicOperator → ClauseKind
  | .notPopulated | .populated => .populated
  | .notEqual | .equal | .notIn | .isIn | .existsAs => .domain
  | .default | .assign => .assignment
  | .assignSum | .assignDiff | .assignProd | .assignQuot => .arithmetic

/-- The kind of clause that an operator phrase makes. -/
def OperatorToken.kind : OperatorToken → ClauseKind
  | .custom _ => .custom
  | .limit _ => .numericLimit
  | .date _ => .dateLimit
  | .basic operator => operator.kind

namespace RuleReader

variable {reader : RuleReader} {expression : String} {operands : List (List Char)}
  {clause : Clause} {sources : List Source}

/-- The members of a set are read as a clause with a set. -/
theorem kind_of_readDomain {allRows : Bool}
    (h : reader.readDomain expression operands allRows = .ok (clause, sources)) :
    clause.kind = .domain := by
  unfold readDomain at h
  split at h
  · cases h
  · obtain ⟨_, -, h⟩ := Refusal.bind_eq_ok h
    cases h
    rfl

/-- The operands of arithmetic are read as a clause with arithmetic. -/
theorem kind_of_readArithmetic {operation : Arithmetic}
    (h : reader.readArithmetic expression operands operation = .ok (clause, sources)) :
    clause.kind = .arithmetic := by
  unfold readArithmetic at h
  split at h
  · cases h
  · obtain ⟨_, -, h⟩ := Refusal.bind_eq_ok h
    cases h
    rfl

/-- The value of an assignment is read as a clause with an assignment. -/
theorem kind_of_readAssignment {defaultOnly : Bool}
    (h : reader.readAssignment expression operands defaultOnly = .ok (clause, sources)) :
    clause.kind = .assignment := by
  obtain ⟨_, -, h⟩ := Refusal.bind_eq_ok h
  obtain ⟨_, -, h⟩ := Refusal.bind_eq_ok h
  cases h
  rfl

/-- A custom operator keeps its name. -/
theorem readClause_custom {name : String}
    (h : reader.readClause expression operands (.custom name) = .ok (clause, sources)) :
    clause = .custom name sources := by
  simp only [readClause] at h
  split at h
  · cases h
  · obtain ⟨_, -, h⟩ := Refusal.bind_eq_ok h
    cases h
    rfl

/-- The kind of a clause is the one that its operator makes. -/
theorem kind_of_readClause {token : OperatorToken}
    (h : reader.readClause expression operands token = .ok (clause, sources)) :
    clause.kind = token.kind := by
  cases token with
  | custom name =>
    rw [readClause_custom h]
    rfl
  | limit comparison =>
    obtain ⟨_, -, h⟩ := Refusal.bind_eq_ok h
    obtain ⟨_, -, h⟩ := Refusal.bind_eq_ok h
    obtain ⟨range, -, h⟩ := Refusal.bind_eq_ok h
    cases h
    rfl
  | date comparison =>
    obtain ⟨_, -, h⟩ := Refusal.bind_eq_ok h
    obtain ⟨read, -, h⟩ := Refusal.bind_eq_ok h
    cases h
    rfl
  | basic operator =>
    cases operator with
    | notPopulated | populated =>
      cases h
      rfl
    | notEqual | equal | notIn | isIn | existsAs => exact kind_of_readDomain h
    | default | assign => exact kind_of_readAssignment h
    | assignSum | assignDiff | assignProd | assignQuot => exact kind_of_readArithmetic h

/-- A rule that is read has a shape, an operator in its segment, and the clause that is read for the
operator. -/
theorem read_cases {id : UInt32} {label : Option String} {rule : Rule}
    (h : reader.read expression id label = .ok rule) :
    ∃ shape found, Shape.ofText? expression.toList = some shape ∧
      findOperator? (String.ofList shape.segment) reader.registry.names = some found ∧
      reader.readClause expression ((shape.operands.map splitOperands).getD []) found.token =
        .ok (rule.clause, rule.operands) := by
  unfold read at h
  cases hs : Shape.ofText? expression.toList with
  | none =>
    rw [hs] at h
    cases h
  | some shape =>
    simp only [hs] at h
    obtain ⟨target, -, h⟩ := Refusal.bind_eq_ok h
    split at h
    · cases h
    · cases hf : findOperator? (String.ofList shape.segment) reader.registry.names with
      | none =>
        simp only [hf] at h
        cases h
      | some found =>
        simp only [hf] at h
        obtain ⟨⟨clause, sources⟩, hclause, h⟩ := Refusal.bind_eq_ok h
        cases h
        exact ⟨shape, found, rfl, hf, hclause⟩

/-- A custom operator of a rule that is read is registered under the name that the rule keeps. -/
theorem registered_of_read {id : UInt32} {label : Option String} {rule : Rule}
    (h : reader.read expression id label = .ok rule) {name : String} {arguments : List Source}
    (hc : rule.clause = .custom name arguments) : name ∈ reader.registry.names := by
  obtain ⟨shape, found, -, hfound, hclause⟩ := read_cases h
  have hkind := kind_of_readClause hclause
  rw [hc] at hkind
  cases ht : found.token with
  | custom given =>
    rw [ht] at hclause
    have hgiven := readClause_custom hclause
    rw [hc] at hgiven
    cases hgiven
    exact mem_of_findOperator? hfound ht
  | limit comparison =>
    rw [ht] at hkind
    cases hkind
  | date comparison =>
    rw [ht] at hkind
    cases hkind
  | basic operator =>
    rw [ht] at hkind
    cases operator <;> cases hkind

end RuleReader

end Rulebook
