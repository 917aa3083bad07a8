import Rulebook.Expression.Operand
import Rulebook.Expression.Shape
import Rulebook.Proofs.Text.Words

/-!
# Written operands

An operand is a literal between single quotes or an attribute with the letter of its record. In a
literal the commas that separate operands are written as references, like the characters that
markup needs; so a list of operands is cut where it was joined, and every literal is read back
character by character, whatever it holds.
-/

namespace Rulebook

open Text (Blanks)

namespace Text

/-- A character in a literal: commas and the named characters become references. -/
def writeChar (c : Char) : List Char :=
  if c = ',' then ['&', '#', '4', '4', ';'] else escapeChar c

/-- A text between single quotes. -/
def quoted (body : List Char) : List Char := '\'' :: (body ++ ['\''])

/-- The written form of a text between single quotes. -/
def writeLiteral (text : List Char) : List Char := quoted (text.flatMap writeChar)

theorem trim_quoted (body : List Char) : trim (quoted body) = quoted body := by
  have hquote : isBlank '\'' = false := by decide
  rw [trim, quoted, trimStart_cons hquote]
  exact trimEnd_append_cons ('\'' :: body) [] hquote

theorem unquoted?_quoted (body : List Char) : RuleReader.unquoted? (quoted body) = some body := by
  simp [quoted, RuleReader.unquoted?]

/-- Reading a character of a literal gives the character and goes on behind it. -/
theorem unescapeFrom_writeChar (stop position : Nat) (c : Char) (rest : List Char) :
    unescapeFrom stop position none (writeChar c ++ rest) =
      (c :: ·) <$> unescapeFrom stop (position + byteSize (writeChar c)) none rest := by
  unfold writeChar
  split
  · next h =>
    subst h
    have hresolve : ∀ start, resolve start ['#', '4', '4'] = .ok ',' := fun _ => rfl
    simp [unescapeFrom, hresolve, byteSize]
    rfl
  · exact unescapeFrom_escapeChar stop position c rest

/-- Reading the inside of a literal undoes writing it. -/
theorem unescapeFrom_flatMap_writeChar (stop position : Nat) (text : List Char) :
    unescapeFrom stop position none (text.flatMap writeChar) = .ok text := by
  induction text generalizing position with
  | nil => rfl
  | cons c rest ih =>
    rw [List.flatMap_cons, unescapeFrom_writeChar, ih]
    rfl

theorem comma_not_mem_writeChar (c : Char) : ',' ∉ writeChar c := by
  unfold writeChar escapeChar
  split_ifs <;> simp_all [eq_comm]

end Text

/-- The letters for the two records. -/
def recordLetters : List (Char × Selector) := [('N', .new), ('n', .new), ('O', .old), ('o', .old)]

/-- An attribute as a rule names it: the letter of its record, a point and its name. -/
structure Mention where
  /-- The blanks at the front. -/
  front : Blanks := .none
  /-- The letter. -/
  letter : Char
  /-- The record. -/
  record : Selector
  /-- The blanks behind the point. -/
  gap : Blanks := .none
  /-- The attribute. -/
  attr : Attribute
  /-- The blanks at the end. -/
  back : Blanks := .none
  /-- The letter stands for the record. -/
  selects : (letter, record) ∈ recordLetters
  /-- The name has no blanks at its ends. -/
  bare : Text.hasOuterBlank attr.name = false

namespace Mention

/-- The letter, the point and the name. -/
def core (mention : Mention) : List Char :=
  mention.letter :: '.' :: (mention.gap.text ++ mention.attr.name.toList)

/-- The text with the blanks around it. -/
def text (mention : Mention) : List Char :=
  mention.front.text ++ (mention.core ++ mention.back.text)

/-- The attribute in its record. -/
def link (mention : Mention) : Link := ⟨mention.attr, mention.record⟩

/-- The catalog knows the attribute under its name. -/
def Known (mention : Mention) (catalog : Catalog) : Prop :=
  catalog.byName? mention.attr.name = some mention.attr

instance (mention : Mention) (catalog : Catalog) : Decidable (mention.Known catalog) :=
  inferInstanceAs (Decidable (_ = _))

variable (mention : Mention)

theorem letter_ne {c : Char} (h : ∀ pair ∈ recordLetters, pair.1 ≠ c) : mention.letter ≠ c :=
  h _ mention.selects

theorem isBlank_letter : Text.isBlank mention.letter = false := by
  have hall : ∀ pair ∈ recordLetters, Text.isBlank pair.1 = false := by decide
  exact hall (mention.letter, mention.record) mention.selects

theorem isDigit_letter : ¬ Decimal.isDigit mention.letter = true := by
  have hall : ∀ pair ∈ recordLetters, ¬ Decimal.isDigit pair.1 = true := by decide
  exact hall (mention.letter, mention.record) mention.selects

theorem recordOf_letter : RuleReader.recordOf [mention.letter] = mention.record := by
  have hall : ∀ pair ∈ recordLetters, RuleReader.recordOf [pair.1] = pair.2 := by decide
  exact hall (mention.letter, mention.record) mention.selects

/-- A character that is missing from the name is missing from the reference, if it is no blank, no
point and no letter for a record. -/
theorem not_mem_text {c : Char} (hn : c ∉ mention.attr.name.toList)
    (hb : Text.isBlank c = false) (hp : '.' ≠ c) (hl : ∀ pair ∈ recordLetters, pair.1 ≠ c) :
    c ∉ mention.text := by
  simp [text, core, hn, hp.symm, (mention.letter_ne hl).symm, mention.front.not_mem hb,
    mention.gap.not_mem hb, mention.back.not_mem hb]

/-- A reference holds no parentheses if the name holds none. -/
theorem plain_text (h : '(' ∉ mention.attr.name.toList ∧ ')' ∉ mention.attr.name.toList) :
    ∀ c ∈ mention.text, Shape.isPlain c = true := by
  have hopen : '(' ∉ mention.text :=
    mention.not_mem_text h.1 (by decide) (by decide) (by decide)
  have hclose : ')' ∉ mention.text :=
    mention.not_mem_text h.2 (by decide) (by decide) (by decide)
  intro c hc
  exact Bool.and_eq_true_iff.mpr
    ⟨bne_iff_ne.mpr fun heq => hopen (heq ▸ hc), bne_iff_ne.mpr fun heq => hclose (heq ▸ hc)⟩

/-- Trimming leaves the letter and the point. -/
theorem trim_text : ∃ name : List Char, Text.trim mention.text = mention.letter :: '.' :: name ∧
    Text.trim name = mention.attr.name.toList := by
  refine ⟨Text.trimEnd (mention.gap.text ++ mention.attr.name.toList), ?_, ?_⟩
  · have hstart : Text.trimStart mention.core = mention.core :=
      Text.trimStart_cons mention.isBlank_letter _
    rw [text, Text.trim_blanks, Text.trim, hstart]
    exact Text.trimEnd_append_cons [mention.letter] _ (by decide)
  · have hname := congrArg String.toList (Text.trimmed_eq_self mention.bare)
    rw [Text.trimmed, String.toList_ofList] at hname
    rw [Text.trim_trimEnd, Text.trim, Text.trimStart_blanks]
    exact hname

/-- The reference is taken apart into the record and the name. -/
theorem splitReference_text :
    RuleReader.splitReference mention.text = (mention.record, mention.attr.name.toList) := by
  obtain ⟨name, htrim, hname⟩ := mention.trim_text
  have hpoint : (mention.letter != '.') = true := bne_iff_ne.mpr (mention.letter_ne (by decide))
  have hdrop : (mention.letter :: '.' :: name).dropWhile (· != '.') = '.' :: name :=
    List.dropWhile_cons_of_pos hpoint
  have htake : (mention.letter :: '.' :: name).takeWhile (· != '.') = [mention.letter] :=
    List.takeWhile_cons_of_pos hpoint
  simp only [RuleReader.splitReference, htrim, hdrop, htake, hname, mention.recordOf_letter]

/-- A reference to a known attribute is read back. -/
theorem readLink_text {reader : RuleReader} (h : mention.Known reader.catalog) :
    reader.readLink mention.text = .ok mention.link := by
  have hname : reader.catalog.byName? mention.attr.name = some mention.attr := h
  simp only [RuleReader.readLink, mention.splitReference_text, String.ofList_toList, hname]
  rfl

/-- A letter and a point begin no digits. -/
theorem positional?_eq_none (name : List Char) :
    Decimal.positional? (mention.letter :: '.' :: name) = none := by
  have hsplit : Decimal.splitPoint (mention.letter :: '.' :: name) =
      ([], [], mention.letter :: '.' :: name) := by
    rw [Decimal.splitPoint, List.dropWhile_cons_of_neg mention.isDigit_letter,
      List.takeWhile_cons_of_neg mention.isDigit_letter]
    split
    · next heq => exact absurd (List.cons.inj heq).1 (mention.letter_ne (by decide))
    · rfl
  rw [Decimal.positional?, hsplit]
  rfl

/-- A letter and a point begin no numeral. -/
theorem read?_eq_none (name : List Char) :
    Decimal.read? (mention.letter :: '.' :: name) = none := by
  have hsign : Decimal.splitSign (mention.letter :: '.' :: name) =
      (false, mention.letter :: '.' :: name) := by
    unfold Decimal.splitSign
    split
    · next heq => exact absurd (List.cons.inj heq).1 (mention.letter_ne (by decide))
    · next heq => exact absurd (List.cons.inj heq).1 (mention.letter_ne (by decide))
    · rfl
  have hmagnitude : Decimal.magnitude? (mention.letter :: '.' :: name) = none := by
    unfold Decimal.magnitude?
    split
    · next heq => simp [Text.lower] at heq
    · next heq => simp [Text.lower] at heq
    · next heq => simp [Text.lower] at heq
    · exact mention.positional?_eq_none name
  rw [Decimal.read?, hsign]
  exact Option.map_eq_none_iff.mpr hmagnitude

/-- A reference is read as an operand that is read anew whenever the rule runs. -/
theorem readOperand_text {reader : RuleReader} (h : mention.Known reader.catalog)
    (expression : String) : reader.readOperand expression (Text.trim mention.text) =
      .ok (.linked mention.link) := by
  obtain ⟨name, htrim, -⟩ := mention.trim_text
  have hlink : reader.readLink (mention.letter :: '.' :: name) = .ok mention.link := by
    rw [← mention.readLink_text h, RuleReader.readLink, RuleReader.readLink, ← htrim]
    simp only [RuleReader.splitReference, Text.trim_trim]
  have hquoted : RuleReader.unquoted? (mention.letter :: '.' :: name) = none := by
    unfold RuleReader.unquoted?
    split
    · next heq => exact absurd (List.cons.inj heq).1 (mention.letter_ne (by decide))
    · rfl
  have hnumber : readNumber (String.ofList (mention.letter :: '.' :: name)) =
      .error (.notANumber (String.ofList (mention.letter :: '.' :: name))) := by
    rw [readNumber, String.toList_ofList, ← htrim, Text.trim_trim, htrim, mention.read?_eq_none]
  rw [RuleReader.readOperand, Text.trim_trim, htrim]
  simp only [hquoted, hnumber, hlink]
  rfl

end Mention

/-- Texts that are joined by commas are found again if they hold none and the first is not blank. -/
theorem RuleReader.splitOperands_intercalate {first : List Char} {more : List (List Char)}
    (hcomma : ∀ text ∈ first :: more, ',' ∉ text) (hne : Text.trim first ≠ []) :
    splitOperands ([','].intercalate (first :: more)) = (first :: more).map Text.trim := by
  have hjoined : Text.trim ([','].intercalate (first :: more)) ≠ [] := by
    intro hnil
    refine hne (Text.trim_eq_nil_iff.mpr fun c hc => Text.trim_eq_nil_iff.mp hnil c ?_)
    cases more <;> simp [List.intercalate, hc]
  rw [splitOperands, if_neg hjoined, Text.pieces_intercalate (List.cons_ne_nil _ _) hcomma]

/-- Texts that are joined by commas are found again if they hold none and are not blank. -/
theorem RuleReader.splitOperands_parts {parts : List (List Char)}
    (h : ∀ part ∈ parts, ',' ∉ part ∧ Text.trim part ≠ []) :
    splitOperands ([','].intercalate parts) = parts.map Text.trim := by
  cases parts with
  | nil => rfl
  | cons first more =>
    exact splitOperands_intercalate (fun part hp => (h part hp).1) (h first List.mem_cons_self).2

/-- Operands are read one by one. -/
theorem RuleReader.readOperands_map {α : Type} {reader : RuleReader} {expression : String}
    {items : List α} {text : α → List Char} {source : α → Source}
    (h : ∀ item ∈ items, reader.readOperand expression (text item) = .ok (source item)) :
    reader.readOperands expression (items.map text) = .ok (items.map source) := by
  induction items with
  | nil => rfl
  | cons first more ih =>
    obtain ⟨hfirst, hmore⟩ := List.forall_mem_cons.mp h
    rw [readOperands] at ih ⊢
    rw [List.map_cons, List.mapM_cons, hfirst, ih hmore]
    rfl

/-- An operand as it is written. -/
inductive Operand where
  /-- A literal between blanks. -/
  | literal (front : Blanks) (text : String) (back : Blanks)
  /-- A reference to an attribute. -/
  | named (mention : Mention)

namespace Operand

/-- The text of an operand. -/
def text : Operand → List Char
  | .literal front text back => front.text ++ (Text.writeLiteral text.toList ++ back.text)
  | .named mention => mention.text

/-- What an operand stands for. -/
def source : Operand → Source
  | .literal _ text _ => .literal text
  | .named mention => .linked mention.link

/-- What an operand names is known and has no comma in its name. -/
def Fits (catalog : Catalog) : Operand → Prop
  | .literal .. => True
  | .named mention => mention.Known catalog ∧ ',' ∉ mention.attr.name.toList

instance (catalog : Catalog) (operand : Operand) : Decidable (operand.Fits catalog) :=
  match operand with
  | .literal .. => inferInstanceAs (Decidable True)
  | .named _ => inferInstanceAs (Decidable (_ ∧ _))

/-- The text of a list of operands; blanks alone are no operand. -/
def join (blanks : Blanks) : List Operand → List Char
  | [] => blanks.text
  | first :: more => [','].intercalate ((first :: more).map text)

/-- An operand that fits is read as what it stands for. -/
theorem readOperand_text {reader : RuleReader} {operand : Operand} (h : operand.Fits reader.catalog)
    (expression : String) :
    reader.readOperand expression (Text.trim operand.text) = .ok operand.source := by
  cases operand with
  | named mention => exact mention.readOperand_text h.1 expression
  | literal front text back =>
    have htrim : Text.trim (Text.writeLiteral text.toList) = Text.writeLiteral text.toList :=
      Text.trim_quoted _
    have hquoted : RuleReader.unquoted? (Text.writeLiteral text.toList) =
        some (text.toList.flatMap Text.writeChar) := Text.unquoted?_quoted _
    have hread : Text.unescape (text.toList.flatMap Text.writeChar) = .ok text.toList :=
      Text.unescapeFrom_flatMap_writeChar _ _ _
    have hne : Text.writeLiteral text.toList ≠ [] := List.cons_ne_nil _ _
    rw [Operand.text, Text.trim_blanks, htrim, RuleReader.readOperand, htrim, if_neg hne]
    simp only [hquoted, hread, String.ofList_toList]
    rfl

/-- There is no comma in an operand that fits. -/
theorem comma_not_mem_text {catalog : Catalog} {operand : Operand} (h : operand.Fits catalog) :
    ',' ∉ operand.text := by
  have hblank : Text.isBlank ',' = false := by decide
  cases operand with
  | literal front text back =>
    have hbody : ',' ∉ text.toList.flatMap Text.writeChar := by
      intro hm
      obtain ⟨c, -, hc⟩ := List.mem_flatMap.mp hm
      exact Text.comma_not_mem_writeChar c hc
    simp [Operand.text, Text.writeLiteral, Text.quoted, hbody, front.not_mem hblank,
      back.not_mem hblank]
  | named mention =>
    exact mention.not_mem_text h.2 hblank (by decide) (by decide)

/-- No operand is all blank. -/
theorem trim_text_ne_nil (operand : Operand) : Text.trim operand.text ≠ [] := by
  cases operand with
  | literal front text back =>
    rw [Operand.text, Text.trim_blanks, Text.writeLiteral, Text.trim_quoted]
    exact List.cons_ne_nil _ _
  | named mention =>
    obtain ⟨name, htrim, -⟩ := mention.trim_text
    rw [Operand.text, htrim]
    exact List.cons_ne_nil _ _

/-- A list of operands is cut where it was joined. -/
theorem splitOperands_join {operands : List Operand} (blanks : Blanks)
    (h : ∀ operand ∈ operands, ',' ∉ operand.text) :
    RuleReader.splitOperands (join blanks operands) =
      operands.map fun operand => Text.trim operand.text := by
  cases operands with
  | nil => exact if_pos (Text.trim_eq_nil_iff.mpr blanks.blank)
  | cons first more =>
    have hparts : ∀ part ∈ (first :: more).map text, ',' ∉ part ∧ Text.trim part ≠ [] := by
      intro part hp
      obtain ⟨operand, ho, rfl⟩ := List.mem_map.mp hp
      exact ⟨h operand ho, operand.trim_text_ne_nil⟩
    have hsplit : RuleReader.splitOperands (join blanks (first :: more)) =
        ((first :: more).map text).map Text.trim := RuleReader.splitOperands_parts hparts
    rw [hsplit, List.map_map]
    rfl

/-- The operands that were joined are read back. -/
theorem readOperands_join {reader : RuleReader} {operands : List Operand} (blanks : Blanks)
    (h : ∀ operand ∈ operands, operand.Fits reader.catalog) (expression : String) :
    reader.readOperands expression (RuleReader.splitOperands (join blanks operands)) =
      .ok (operands.map source) := by
  rw [splitOperands_join blanks fun operand ho => comma_not_mem_text (h operand ho)]
  exact RuleReader.readOperands_map fun operand ho => readOperand_text (h operand ho) expression

end Operand

end Rulebook
