import Rulebook.Proofs.Coercion
import Rulebook.Proofs.Expression.Clauses
import Rulebook.Proofs.Expression.Operands

/-!
# Reading bounds

The operand of a limit is a number or a date with or without quotes, the word for today, or an
attribute. A literal is folded into the range when the rule is read; an attribute stays in the range
with the offset that the comparison gives it.
-/

namespace Rulebook

open Text (Blanks)

/-- A text that is written as an operand as it stands, in single quotes or without. -/
structure Verbatim where
  /-- The blanks at the front. -/
  front : Blanks
  /-- The text is in single quotes. -/
  quotes : Bool
  /-- The text. -/
  content : String
  /-- The blanks at the end. -/
  back : Blanks
  /-- The text has no comma. -/
  single : ',' ∉ content.toList
  /-- Without quotes around it the text holds none. -/
  bare : quotes = false → '\'' ∉ content.toList

namespace Verbatim

variable (verbatim : Verbatim)

/-- The text with its quotes. -/
def core : List Char :=
  if verbatim.quotes then Text.quoted verbatim.content.toList else verbatim.content.toList

/-- The text with its quotes and the blanks around them. -/
def text : List Char := verbatim.front.text ++ (verbatim.core ++ verbatim.back.text)

/-- The text between the quotes, or the whole text without them. -/
theorem body_trim_text :
    (RuleReader.unquoted? (Text.trim verbatim.text) =
        if verbatim.quotes then some verbatim.content.toList else none) ∧
      Text.trim verbatim.text =
        if verbatim.quotes then verbatim.core else Text.trim verbatim.content.toList := by
  have htext : Text.trim verbatim.text = Text.trim verbatim.core := Text.trim_blanks _ _ _
  rw [htext, core]
  cases hq : verbatim.quotes with
  | true => simp [Text.trim_quoted, Text.unquoted?_quoted]
  | false =>
    refine ⟨?_, rfl⟩
    have hfree : '\'' ∉ Text.trim verbatim.content.toList :=
      fun hm => verbatim.bare hq (Text.mem_of_mem_trim hm)
    simp only [Bool.false_eq_true, if_false]
    unfold RuleReader.unquoted?
    split
    · next heq => exact absurd (heq ▸ List.mem_cons_self) hfree
    · rfl

/-- A text that is not blank makes an operand. -/
theorem trim_text_ne_nil (hne : Text.trim verbatim.content.toList ≠ []) :
    Text.trim verbatim.text ≠ [] := by
  rw [verbatim.body_trim_text.2]
  split
  · next hq =>
    rw [core, if_pos hq]
    exact List.cons_ne_nil _ _
  · exact hne

/-- A text that is not blank is the only operand. -/
theorem splitOperands_text (hne : Text.trim verbatim.content.toList ≠ []) :
    RuleReader.splitOperands verbatim.text = [Text.trim verbatim.text] := by
  have hcomma : ',' ∉ verbatim.text := by
    have hblank : Text.isBlank ',' = false := by decide
    have hcore : ',' ∉ verbatim.core := by
      rw [core]
      split
      · simp [Text.quoted, verbatim.single]
      · exact verbatim.single
    simp [text, hcore, verbatim.front.not_mem hblank, verbatim.back.not_mem hblank]
  have hone := RuleReader.splitOperands_intercalate
    (fun part hp => (List.mem_singleton.mp hp) ▸ hcomma) (verbatim.trim_text_ne_nil hne)
  simpa [List.intercalate] using hone

end Verbatim

namespace RuleReader

variable {reader : RuleReader} {expression : String} {verbatim : Verbatim}

/-- The text of a number is a literal, and what is kept of it stands for the same number. -/
theorem readOperand_verbatim (reader : RuleReader) (expression : String) {value : Float}
    (h : readNumber verbatim.content = .ok value) :
    ∃ text, reader.readOperand expression (Text.trim verbatim.text) = .ok (.literal text) ∧
      readNumber text = .ok value := by
  obtain ⟨hbody, htrim⟩ := verbatim.body_trim_text
  have hne : Text.trim verbatim.text ≠ [] :=
    verbatim.trim_text_ne_nil (trim_ne_nil_of_readNumber h)
  rw [readOperand, Text.trim_trim, if_neg hne, hbody]
  cases hq : verbatim.quotes with
  | true =>
    have hread := Text.unescape_of_free (amp_not_mem_of_readNumber h)
    simp only [if_true, hread, String.ofList_toList]
    exact ⟨_, rfl, h⟩
  | false =>
    have hnumber : readNumber (String.ofList (Text.trim verbatim.text)) = .ok value := by
      rw [htrim, hq]
      exact readNumber_trimmed h
    simp only [Bool.false_eq_true, if_false, hnumber]
    exact ⟨_, rfl, hnumber⟩

/-- The text of a date or of the word for today, without its quotes and the blanks around it. -/
theorem trim_body : Text.trim ((unquoted? (Text.trim verbatim.text)).getD
    (Text.trim verbatim.text)) = Text.trim verbatim.content.toList := by
  obtain ⟨hbody, htrim⟩ := verbatim.body_trim_text
  rw [hbody, htrim]
  cases hq : verbatim.quotes with
  | true => rfl
  | false => exact Text.trim_trim _

/-- The text of a date is a literal that stands for the date. -/
theorem readDateOperand_verbatim {date : Calendar.Date}
    (h : readDate verbatim.content reader.datePattern = .ok date) :
    reader.readDateOperand expression (Text.trim verbatim.text) =
      .ok (.literal (Text.trimmed verbatim.content), .literal date) := by
  have hword : ¬ Text.alike (Text.trimmed verbatim.content) todayWord = true :=
    Bool.eq_false_iff.mp (alike_eq_false_of_readDate h (by decide))
  simp only [readDateOperand, Text.trim_trim, trim_body]
  rw [← Text.trimmed, if_neg hword, readDate_trimmed h]

/-- The word for today is read in any case and with or without quotes. -/
theorem readDateOperand_today
    (h : Text.alike (Text.trimmed verbatim.content) todayWord = true) :
    reader.readDateOperand expression (Text.trim verbatim.text) =
      .ok (.literal todayWord, .today) := by
  simp only [readDateOperand, Text.trim_trim, trim_body]
  rw [← Text.trimmed, if_pos h]

/-- The range of a limit on numbers whose bound depends on an offset. -/
def limitRange (reader : RuleReader) (comparison : Comparison) (bound : Float → NumericBound) :
    NumericBound × NumericBound :=
  match comparison with
  | .lt => (.literal leastNumber, bound (-reader.epsilon))
  | .gt => (bound reader.epsilon, .literal greatestNumber)
  | .le => (.literal leastNumber, bound 0.0)
  | .ge => (bound 0.0, .literal greatestNumber)
  | .eq => (bound 0.0, bound 0.0)

/-- The range of a limit is that of its bound. -/
theorem numericRange_eq {comparison : Comparison} {operand : Source} {bound : Float → NumericBound}
    (h : ∀ offset, numericBound expression operand offset = .ok (bound offset)) :
    reader.numericRange expression comparison operand =
      .ok (reader.limitRange comparison bound) := by
  cases comparison <;> simp only [numericRange, h] <;> rfl

/-- The clause of a limit with a bound. -/
def limitClause (reader : RuleReader) (comparison : Comparison) (bound : Float → NumericBound) :
    Clause :=
  .numericLimit comparison (reader.limitRange comparison bound).1
    (reader.limitRange comparison bound).2

/-- The clause of a limit on dates with a bound. -/
def dateClause (comparison : DateComparison) (bound : DateBound) : Clause :=
  .dateLimit comparison (dateRange comparison bound).1 (dateRange comparison bound).2
    (bound == .today)

/-- A limit on numbers is read with a literal as its bound. -/
theorem readClause_number (reader : RuleReader) (expression : String) (comparison : Comparison)
    {value : Float} (h : readNumber verbatim.content = .ok value) :
    ∃ text, readNumber text = .ok value ∧
      reader.readClause expression (splitOperands verbatim.text) (.limit comparison) =
        .ok (reader.limitClause comparison fun offset => .literal (value + offset),
          [.literal text]) := by
  obtain ⟨text, hoperand, hnumber⟩ := readOperand_verbatim reader expression h
  have hrange : reader.numericRange expression comparison (.literal text) =
      .ok (reader.limitRange comparison fun offset => .literal (value + offset)) :=
    numericRange_eq fun offset => by simp only [numericBound, hnumber]
  refine ⟨text, hnumber, ?_⟩
  rw [verbatim.splitOperands_text (trim_ne_nil_of_readNumber h)]
  simp only [readClause, single, bind, Except.bind, hoperand, hrange]
  rfl

/-- A limit on dates is read with a date as its bound. -/
theorem readClause_date (expression : String) (comparison : DateComparison) {date : Calendar.Date}
    (h : readDate verbatim.content reader.datePattern = .ok date) :
    reader.readClause expression (splitOperands verbatim.text) (.date comparison) =
      .ok (dateClause comparison (.literal date), [.literal (Text.trimmed verbatim.content)]) := by
  rw [verbatim.splitOperands_text (trim_ne_nil_of_readDate h)]
  simp only [readClause, single, bind, Except.bind, readDateOperand_verbatim h]
  rfl

/-- A limit on dates is read with today as its bound. -/
theorem readClause_today (reader : RuleReader) (expression : String) (comparison : DateComparison)
    (h : Text.alike (Text.trimmed verbatim.content) todayWord = true) :
    reader.readClause expression (splitOperands verbatim.text) (.date comparison) =
      .ok (dateClause comparison .today, [.literal todayWord]) := by
  have hne : Text.trim verbatim.content.toList ≠ [] := by
    intro hnil
    rw [Text.trimmed, hnil] at h
    cases h
  rw [verbatim.splitOperands_text hne]
  simp only [readClause, single, bind, Except.bind, readDateOperand_today h]
  rfl

variable {operands : List (List Char)} {clause : Clause} {link : Link}

/-- A limit on numbers that is read with an attribute has it as its bound. -/
theorem clause_of_linked_number {comparison : Comparison}
    (h : reader.readClause expression operands (.limit comparison) = .ok (clause, [.linked link])) :
    clause = reader.limitClause comparison (.linked link) := by
  obtain ⟨_, -, h⟩ := Refusal.bind_eq_ok h
  obtain ⟨operand, -, h⟩ := Refusal.bind_eq_ok h
  obtain ⟨range, hrange, h⟩ := Refusal.bind_eq_ok h
  cases h
  rw [numericRange_eq fun _ => rfl] at hrange
  cases hrange
  rfl

/-- A date operand that is an attribute has it as its bound. -/
theorem bound_of_linked {operand : List Char} {bound : DateBound}
    (h : reader.readDateOperand expression operand = .ok (.linked link, bound)) :
    bound = .linked link := by
  unfold readDateOperand at h
  dsimp only at h
  split at h
  · cases h
  · split at h
    · cases h
    · split at h
      · cases h
      · obtain ⟨found, -, h⟩ := Refusal.bind_eq_ok h
        cases h
        rfl

/-- A limit on dates that is read with an attribute has it as its bound. -/
theorem clause_of_linked_date {comparison : DateComparison}
    (h : reader.readClause expression operands (.date comparison) = .ok (clause, [.linked link])) :
    clause = dateClause comparison (.linked link) := by
  obtain ⟨_, -, h⟩ := Refusal.bind_eq_ok h
  obtain ⟨⟨operand, bound⟩, hoperand, h⟩ := Refusal.bind_eq_ok h
  cases h
  rw [bound_of_linked hoperand]
  rfl

end RuleReader

end Rulebook
