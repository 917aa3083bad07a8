import Rulebook.Operator.Vocabulary

/-!
# Operator phrases

An operator is written as a phrase of one or more words between the target and the operands of a
rule. The segment of a rule that holds the operator is searched for the phrases in a fixed order:
custom names as they were registered, then limits, date limits and the other operators, longer
phrases before the words they contain. A phrase is found where its words stand one after the other;
words are compared whole. A word `NOT` outside the phrase negates the operator.
-/

namespace Rulebook

/-- The operators that are neither limits nor custom. -/
inductive BasicOperator where
  /-- The value is missing or empty. -/
  | notPopulated
  /-- The value is not empty. -/
  | populated
  /-- The value differs from the members. -/
  | notEqual
  /-- The value is one of the members. -/
  | equal
  /-- The value is none of the members. -/
  | notIn
  /-- The value is one of the members. -/
  | isIn
  /-- One of the values in all rows is one of the members. -/
  | existsAs
  /-- Writes a value where none is. -/
  | default
  /-- Writes a sum. -/
  | assignSum
  /-- Writes a difference. -/
  | assignDiff
  /-- Writes a product. -/
  | assignProd
  /-- Writes a quotient. -/
  | assignQuot
  /-- Writes a value. -/
  | assign
  deriving DecidableEq, Repr

/-- What an operator phrase means. -/
inductive OperatorToken where
  /-- The custom operator with a name. -/
  | custom (name : String)
  /-- A limit on numbers. -/
  | limit (comparison : Comparison)
  /-- A limit on dates. -/
  | date (comparison : DateComparison)
  /-- Another operator. -/
  | basic (operator : BasicOperator)
  deriving DecidableEq, Repr

/-- The words of an operator and what they mean. -/
structure Phrase where
  /-- The words, with single blanks between. -/
  text : String
  /-- The meaning. -/
  token : OperatorToken
  /-- The phrase itself negates. -/
  negated : Bool
  deriving DecidableEq, Repr

namespace Phrase

/-- The words of a phrase. -/
def words (phrase : Phrase) : List (List Char) := Text.words phrase.text.toList

/-- The phrases of limits on numbers. -/
def limits : List Phrase :=
  [⟨"NOT LT", .limit .lt, true⟩, ⟨"NOT GT", .limit .gt, true⟩, ⟨"NOT LE", .limit .le, true⟩,
   ⟨"NOT GE", .limit .ge, true⟩, ⟨"NOT EQ", .limit .eq, true⟩, ⟨"LT", .limit .lt, false⟩,
   ⟨"GT", .limit .gt, false⟩, ⟨"LE", .limit .le, false⟩, ⟨"GE", .limit .ge, false⟩,
   ⟨"EQ", .limit .eq, false⟩]

/-- The phrases of limits on dates. -/
def dates : List Phrase :=
  [⟨"IS NOT BEFORE", .date .before, true⟩, ⟨"IS NOT AFTER", .date .after, true⟩,
   ⟨"IS BEFORE", .date .before, false⟩, ⟨"IS AFTER", .date .after, false⟩]

/-- The phrases of the other operators. -/
def basics : List Phrase :=
  [⟨"NOT POPULATED", .basic .notPopulated, true⟩, ⟨"POPULATED", .basic .populated, false⟩,
   ⟨"!=", .basic .notEqual, true⟩, ⟨"==", .basic .equal, false⟩, ⟨"NOT IN", .basic .notIn, true⟩,
   ⟨"IN", .basic .isIn, false⟩, ⟨"EXISTS AS", .basic .existsAs, false⟩,
   ⟨"DEFAULT", .basic .default, false⟩, ⟨"ASSIGN_SUM", .basic .assignSum, false⟩,
   ⟨"ASSIGN_DIFF", .basic .assignDiff, false⟩, ⟨"ASSIGN_PROD", .basic .assignProd, false⟩,
   ⟨"ASSIGN_QUOT", .basic .assignQuot, false⟩, ⟨"ASSIGN", .basic .assign, false⟩]

/-- The phrases that are always there, in the order of the search. -/
def builtin : List Phrase := limits ++ dates ++ basics

/-- The phrase of a custom operator. -/
def custom (name : String) : Phrase := ⟨name, .custom name, false⟩

end Phrase

/-- A name is reserved when it is the text of a phrase that is always there, or a word of one,
without regard to case and blanks around it. -/
def isReserved (name : String) : Bool :=
  let name := Text.capitals (Text.trimmed name)
  Phrase.builtin.any fun phrase => phrase.text == name || phrase.words.contains name.toList

/-- The place where the words of a phrase first stand one after the other. No words stand
nowhere. -/
def findWords? (phrase : List (List Char)) : (segment : List (List Char)) → Option Nat
  | [] => none
  | word :: more =>
    if phrase ≠ [] ∧ phrase.isPrefixOf (word :: more) then some 0
    else (findWords? phrase more).map (· + 1)

/-- The word that negates. -/
def notWord : List Char := ['N', 'O', 'T']

/-- The words of a segment without the words of a phrase that stand at a place. -/
def wordsAround (segment : List (List Char)) (place length : Nat) : List (List Char) :=
  segment.take place ++ segment.drop (place + length)

/-- The operator found in a segment. -/
structure FoundOperator where
  /-- The meaning. -/
  token : OperatorToken
  /-- The text of the phrase that was found. -/
  text : String
  /-- The phrase negates, or a word outside it does. -/
  negated : Bool
  deriving DecidableEq, Repr

/-- Looks for one phrase in the words of a segment. -/
def Phrase.findIn? (phrase : Phrase) (segment : List (List Char)) : Option FoundOperator :=
  (findWords? phrase.words segment).map fun place =>
    ⟨phrase.token, phrase.text,
      phrase.negated || (wordsAround segment place phrase.words.length).contains notWord⟩

/-- Finds the operator of a segment, given the names of the custom operators. -/
def findOperator? (segment : String) (customNames : List String) : Option FoundOperator :=
  (customNames.map Phrase.custom ++ Phrase.builtin).findSome? fun phrase =>
    phrase.findIn? (Text.words (Text.upper segment.toList))

end Rulebook
