import Rulebook.Proofs.Calendar.Marks
import Rulebook.Proofs.Evaluation.Bounds

/-!
# Dates as literals

A date between quotes is read as it stands, while references are resolved in every other literal. So
a limit gets the date that the written form of a date stands for. If that is the date itself, it is
this date. If it has a reference for some character, it has a semicolon that a pattern without names
of zones has no place for, and the limit is refused; with such names it may get another date.
-/

namespace Rulebook

namespace Text

/-- A character that a literal holds as a reference. -/
def isReferenced (c : Char) : Bool := [',', '<', '>', '&', '\'', '"'].contains c

/-- Other characters are written as they are. -/
theorem writeChar_of_plain {c : Char} (h : isReferenced c = false) : writeChar c = [c] := by
  simp only [isReferenced, List.contains_eq_mem, List.mem_cons, List.not_mem_nil, or_false,
    decide_eq_false_iff_not, not_or] at h
  obtain ⟨hcomma, hlt, hgt, hamp, hapos, hquot⟩ := h
  rw [writeChar, if_neg hcomma, escapeChar, if_neg hlt, if_neg hgt, if_neg hamp, if_neg hapos,
    if_neg hquot]

/-- A written character has one semicolon more than the character if it is a reference. -/
theorem count_writeChar (c : Char) :
    (writeChar c).count ';' =
      (if c == ';' then 1 else 0) + if isReferenced c = true then 1 else 0 := by
  by_cases h : isReferenced c = true
  · rw [if_pos h]
    simp only [isReferenced, List.contains_iff_mem, List.mem_cons, List.not_mem_nil, or_false] at h
    rcases h with rfl | rfl | rfl | rfl | rfl | rfl <;> decide
  · rw [if_neg h, writeChar_of_plain (Bool.eq_false_iff.mpr h), Nat.add_zero, List.count_cons,
      List.count_nil, Nat.zero_add]

/-- A written text has one semicolon more for each reference. -/
theorem count_flatMap_writeChar (text : List Char) :
    (text.flatMap writeChar).count ';' = text.count ';' + text.countP isReferenced := by
  induction text with
  | nil => rfl
  | cons c rest ih =>
    rw [List.flatMap_cons, List.count_append, ih, count_writeChar, List.countP_cons,
      List.count_cons]
    omega

theorem flatMap_writeChar_of_plain {text : List Char} (h : ∀ c ∈ text, isReferenced c = false) :
    text.flatMap writeChar = text := by
  rw [List.flatMap_congr fun c hc => writeChar_of_plain (h c hc), List.flatMap_singleton']

end Text

theorem Calendar.isPlain_semicolon : isPlain ';' = false := by decide

/-- The written form of a text, with references for some characters. -/
def Text.written (text : String) : String := String.ofList (text.toList.flatMap writeChar)

theorem Text.written_of_plain {text : String} (h : ∀ c ∈ text.toList, isReferenced c = false) :
    written text = text := by
  rw [written, flatMap_writeChar_of_plain h, String.ofList_toList]

/-- A text that is read as a date is one without the blanks around it. -/
theorem readDate?_of_readDate {text pattern : String} {date : Calendar.Date}
    (h : readDate text pattern = .ok date) :
    Calendar.readDate? pattern (Text.trimmed text) = some date := by
  unfold readDate at h
  split at h
  · next found hfound =>
    cases h
    exact hfound
  · cases h

/-- If the written form of a date is a date of the same pattern, and the pattern has no names of
zones, the date has no references. -/
theorem plain_of_readDate {text pattern : String} {date another : Calendar.Date}
    (hz : .zoneName ∉ Calendar.items pattern.toList) (h : readDate text pattern = .ok date)
    (hw : readDate (Text.written text) pattern = .ok another) :
    ∀ c ∈ text.toList, Text.isReferenced c = false := by
  have hblank : Text.isBlank ';' = false := by decide
  have hcount := Calendar.count_eq_of_readDate? Calendar.isPlain_semicolon hz
    (readDate?_of_readDate h) (readDate?_of_readDate hw)
  simp only [Text.trimmed, Text.written, String.toList_ofList, Text.count_trim hblank,
    Text.count_flatMap_writeChar] at hcount
  intro c hc
  have hnone : text.toList.countP Text.isReferenced = 0 := by omega
  exact Bool.eq_false_iff.mpr (List.countP_eq_zero.mp hnone c hc)

/-- A reference has a semicolon, which is no blank. -/
theorem semicolon_mem_written {text : String}
    (hr : ∃ c ∈ text.toList, Text.isReferenced c = true) :
    ';' ∈ Text.trim (Text.written text).toList := by
  have hpos := List.countP_pos_iff.mpr hr
  rw [Text.written, String.toList_ofList, ← List.count_pos_iff, Text.count_trim (by decide),
    Text.count_flatMap_writeChar]
  omega

/-- The written form of a text with a reference is not the word for today. -/
theorem alike_written {text : String} (hr : ∃ c ∈ text.toList, Text.isReferenced c = true) :
    Text.alike (Text.trimmed (Text.written text)) RuleReader.todayWord = false := by
  refine beq_eq_false_iff_ne.mpr fun hsame => ?_
  rw [Text.trimmed, String.toList_ofList] at hsame
  have hsmall : ';' ∈ Text.lower RuleReader.todayWord.toList :=
    hsame ▸ List.mem_map_of_mem (f := Char.toLower) (semicolon_mem_written hr)
  exact absurd hsmall (by decide +kernel)

theorem Text.comma_not_mem_written (text : String) : ',' ∉ (written text).toList := by
  rw [written, String.toList_ofList, List.mem_flatMap]
  rintro ⟨c, -, hc⟩
  by_cases h : isReferenced c = true
  · simp only [isReferenced, List.contains_iff_mem, List.mem_cons, List.not_mem_nil, or_false] at h
    rcases h with rfl | rfl | rfl | rfl | rfl | rfl <;> exact absurd hc (by decide)
  · rw [writeChar_of_plain (Bool.eq_false_iff.mpr h), List.mem_singleton] at hc
    exact h (hc ▸ rfl)

namespace RuleReader

variable {reader : RuleReader} {expression : String}

/-- The written form of a text between quotes, which are all that is taken off. -/
def asWritten (text : String) : Verbatim where
  front := .none
  quotes := true
  content := Text.written text
  back := .none
  single := Text.comma_not_mem_written text
  bare := nofun

theorem text_asWritten (text : String) : (asWritten text).text = Text.writeLiteral text.toList := by
  simp [Verbatim.text, Verbatim.core, asWritten, Text.Blanks.none, Text.writeLiteral, Text.written]

/-- The fault of a date that is not read as it is written. -/
def unreadable (pattern text : String) : ExpressionFault :=
  .coercion (.notADate (Text.trimmed (Text.written text)) pattern)

/-- A text between quotes that is no date and not the word for today is refused. -/
theorem readDateOperand_refused (reader : RuleReader) (expression : String) (verbatim : Verbatim)
    (hq : verbatim.quotes = true)
    (hword : Text.alike (Text.trimmed verbatim.content) todayWord = false)
    (h : (readDate verbatim.content reader.datePattern).toOption = none) :
    reader.readDateOperand expression (Text.trim verbatim.text) = .error (.expression expression
      (.coercion (.notADate (Text.trimmed verbatim.content) reader.datePattern))) := by
  have hbody : (unquoted? (Text.trim verbatim.text)).isSome = true := by
    rw [verbatim.body_trim_text.1, if_pos hq]
    rfl
  have hnone : Calendar.readDate? reader.datePattern (Text.trimmed verbatim.content) = none := by
    unfold readDate at h
    split at h
    · cases h
    · assumption
  have hfault : readDate (Text.trimmed verbatim.content) reader.datePattern =
      .error (.notADate (Text.trimmed verbatim.content) reader.datePattern) := by
    rw [readDate, Text.trimmed_trimmed, hnone]
  simp only [readDateOperand, Text.trim_trim, trim_body]
  rw [← Text.trimmed, if_neg (Bool.eq_false_iff.mp hword), hfault]
  simp only [hbody, if_true]

/-- A limit with the written form of a date is about the date that this form stands for. -/
theorem readClause_written_ok {text : String} {found : Calendar.Date}
    (h : readDate (Text.written text) reader.datePattern = .ok found) (expression : String)
    (comparison : DateComparison) :
    reader.readClause expression (splitOperands (Text.writeLiteral text.toList))
        (.date comparison) =
      .ok (dateClause comparison (.literal found),
        [.literal (Text.trimmed (Text.written text))]) := by
  have hcontent : readDate (asWritten text).content reader.datePattern = .ok found := h
  have hclause := readClause_date expression comparison hcontent
  rwa [text_asWritten] at hclause

/-- A limit with a written form that holds a reference and stands for no date is refused. -/
theorem readClause_written_error {text : String} {fault : CoercionFault}
    (h : readDate (Text.written text) reader.datePattern = .error fault)
    (hr : text.toList.any Text.isReferenced = true) (expression : String)
    (comparison : DateComparison) :
    reader.readClause expression (splitOperands (Text.writeLiteral text.toList))
        (.date comparison) =
      .error (.expression expression (unreadable reader.datePattern text)) := by
  have hreferenced := List.any_eq_true.mp hr
  have hsplit := (asWritten text).splitOperands_text
    (List.ne_nil_of_mem (semicolon_mem_written hreferenced))
  have hnone : (readDate (asWritten text).content reader.datePattern).toOption = none := by
    rw [asWritten, h]
    rfl
  have hoperand := readDateOperand_refused reader expression (asWritten text) rfl
    (alike_written hreferenced) hnone
  rw [text_asWritten] at hsplit hoperand
  rw [hsplit]
  simp only [readClause, single, bind, Except.bind, hoperand]
  rfl

/-- A limit with a date in its written form gets the date that this form stands for, and is refused
if it stands for none. Without references the form is the date itself; with references a pattern
without names of zones does not read it. -/
theorem read_written_date (hbuilt : reader.registry.Built) {phrase : Phrase}
    {comparison : DateComparison} (hp : phrase ∈ Phrase.dates)
    (ht : phrase.token = .date comparison) (layout : Layout phrase) {link : Link}
    (hlink : reader.readLink layout.target = .ok link) {text : String} {date : Calendar.Date}
    (hdate : readDate text reader.datePattern = .ok date) (id : UInt32) (label : Option String) :
    let body := Text.writeLiteral text.toList
    let expression := String.ofList (layout.text body)
    (reader.read expression id label =
      match readDate (Text.written text) reader.datePattern with
      | .ok found => .ok (layout.rule body link id label
          (dateClause comparison (.literal found), [.literal (Text.trimmed (Text.written text))]))
      | .error _ => .error (.expression expression (unreadable reader.datePattern text))) ∧
    (text.toList.any Text.isReferenced = false →
      reader.read expression id label = .ok (layout.rule body link id label
        (dateClause comparison (.literal date), [.literal (Text.trimmed text)]))) ∧
    (text.toList.any Text.isReferenced = true →
      .zoneName ∉ Calendar.items reader.datePattern.toList →
      reader.read expression id label =
        .error (.expression expression (unreadable reader.datePattern text))) := by
  intro body expression
  have hread : reader.read expression id label =
      (reader.readClause expression (splitOperands body) phrase.token).map
        (layout.rule body link id label) :=
    read_layout hbuilt.made (List.mem_append_right _ (List.mem_append_left _
      (List.mem_append_right _ hp))) (open_not_mem_limits (List.mem_append_right _ hp)) layout hlink
      body id label
  have hplain (hnone : text.toList.any Text.isReferenced = false) :
      Text.written text = text ∧ readDate (Text.written text) reader.datePattern = .ok date := by
    have hsame : Text.written text = text :=
      Text.written_of_plain fun c hc => Bool.eq_false_iff.mpr (List.any_eq_false.mp hnone c hc)
    exact ⟨hsame, by rw [hsame, hdate]⟩
  rw [hread, ht]
  refine ⟨?_, fun hnone => ?_, fun hsome hz => ?_⟩
  · cases hwritten : readDate (Text.written text) reader.datePattern with
    | ok found =>
      rw [readClause_written_ok hwritten]
      rfl
    | error fault =>
      have hany : text.toList.any Text.isReferenced = true := by
        by_contra hnone
        rw [(hplain (Bool.eq_false_iff.mpr hnone)).2] at hwritten
        cases hwritten
      rw [readClause_written_error hwritten hany]
      rfl
  · obtain ⟨hsame, hwritten⟩ := hplain hnone
    rw [readClause_written_ok hwritten, hsame]
    rfl
  · cases hwritten : readDate (Text.written text) reader.datePattern with
    | ok found =>
      obtain ⟨c, hc, hreferenced⟩ := List.any_eq_true.mp hsome
      have hfree := plain_of_readDate hz hdate hwritten c hc
      rw [hreferenced] at hfree
      cases hfree
    | error fault =>
      rw [readClause_written_error hwritten hsome]
      rfl

/-- A date without a reference in its written form, one with a reference that is refused, and two
behind names of zones: one is read in its written form, and the other one as another date. -/
theorem read_written_date_march :
    let reader : RuleReader := { catalog := .ofList [⟨1, 1, "Due"⟩] }
    let worded : RuleReader := { reader with datePattern := "%B %d, %Y" }
    let zoned : RuleReader := { reader with datePattern := "%F %Z" }
    let loose : RuleReader := { reader with datePattern := "& %Z %Y %m %d %Z" }
    let date : Calendar.Date := ⟨2024, 3, 1, by decide, by decide, by decide, by decide⟩
    let early : Calendar.Date := ⟨11, 1, 5, by decide, by decide, by decide, by decide⟩
    let late : Calendar.Date := ⟨1999, 11, 1, by decide, by decide, by decide, by decide⟩
    readDate "03/01/2024" reader.datePattern = .ok date ∧
      readDate "March 1, 2024" worded.datePattern = .ok date ∧
      readDate "2024-03-01 A,B" zoned.datePattern = .ok date ∧
      readDate "& 1999 11 01 05" loose.datePattern = .ok early ∧
      (∃ rule, reader.read "(N.Due) is\tnot before('03/01/2024')" 1 none = .ok rule ∧
        rule.clause = dateClause .before (.literal date)) ∧
      (∃ refusal, worded.read "(N.Due) is\tnot before('March 1&#44; 2024')" 1 none =
        .error refusal) ∧
      (∃ rule, zoned.read "(N.Due) is\tnot before('2024-03-01 A&#44;B')" 1 none = .ok rule ∧
        rule.clause = dateClause .before (.literal date)) ∧
      ∃ rule, loose.read "(N.Due) is\tnot before('&amp; 1999 11 01 05')" 1 none = .ok rule ∧
        rule.clause = dateClause .before (.literal late) := by
  intro reader worded zoned loose date early late
  have hplain : readDate "03/01/2024" reader.datePattern = .ok date := by decide +kernel
  have hworded : readDate "March 1, 2024" worded.datePattern = .ok date := by decide +kernel
  have hzoned : readDate "2024-03-01 A,B" zoned.datePattern = .ok date := by decide +kernel
  have hloose : readDate "& 1999 11 01 05" loose.datePattern = .ok early := by decide +kernel
  have hsame : readDate (Text.written "2024-03-01 A,B") zoned.datePattern = .ok date := by
    decide +kernel
  have hother : readDate (Text.written "& 1999 11 01 05") loose.datePattern = .ok late := by
    decide +kernel
  have hplainText : String.ofList (sampleLayout.text (Text.writeLiteral "03/01/2024".toList)) =
      "(N.Due) is\tnot before('03/01/2024')" := by decide +kernel
  have hwordedText : String.ofList (sampleLayout.text (Text.writeLiteral "March 1, 2024".toList)) =
      "(N.Due) is\tnot before('March 1&#44; 2024')" := by decide +kernel
  have hzonedText : String.ofList (sampleLayout.text (Text.writeLiteral "2024-03-01 A,B".toList)) =
      "(N.Due) is\tnot before('2024-03-01 A&#44;B')" := by decide +kernel
  have hlooseText :
      String.ofList (sampleLayout.text (Text.writeLiteral "& 1999 11 01 05".toList)) =
        "(N.Due) is\tnot before('&amp; 1999 11 01 05')" := by decide +kernel
  have hlink : reader.readLink sampleLayout.target = .ok ⟨⟨1, 1, "Due"⟩, .new⟩ := by
    decide +kernel
  have hwordedLink : worded.readLink sampleLayout.target = .ok ⟨⟨1, 1, "Due"⟩, .new⟩ := hlink
  have hzonedLink : zoned.readLink sampleLayout.target = .ok ⟨⟨1, 1, "Due"⟩, .new⟩ := hlink
  have hlooseLink : loose.readLink sampleLayout.target = .ok ⟨⟨1, 1, "Due"⟩, .new⟩ := hlink
  have hread := (read_written_date .empty (by decide) rfl sampleLayout hlink hplain 1 none).2.1
    (by decide +kernel)
  have hrefused := (read_written_date .empty (by decide) rfl sampleLayout hwordedLink hworded 1
    none).2.2 (by decide +kernel) (by decide +kernel)
  have hzone := (read_written_date .empty (by decide) rfl sampleLayout hzonedLink hzoned 1 none).1
  have hshift := (read_written_date .empty (by decide) rfl sampleLayout hlooseLink hloose 1 none).1
  rw [hplainText] at hread
  rw [hwordedText] at hrefused
  rw [hzonedText, hsame] at hzone
  rw [hlooseText, hother] at hshift
  exact ⟨hplain, hworded, hzoned, hloose, ⟨_, hread, rfl⟩, ⟨_, hrefused⟩, ⟨_, hzone, rfl⟩,
    ⟨_, hshift, rfl⟩⟩

/-- Not every date can be written as a literal: the comma of an English date is written as a
reference, which is not resolved. -/
theorem not_read_written_date_always :
    ¬ ∀ (reader : RuleReader) (text : String) (date : Calendar.Date), reader.registry.Built →
      reader.catalog.knows "OpenDate" = true → readDate text reader.datePattern = .ok date →
      ∃ rule, reader.read ("(N.OpenDate) IS BEFORE (" ++
          String.ofList (Text.writeLiteral text.toList) ++ ")") 1 none = .ok rule ∧
        rule.clause = dateClause .before (.literal date) := by
  intro h
  obtain ⟨rule, hread, -⟩ := h
    { catalog := .ofList [⟨3, 10, "OpenDate"⟩], datePattern := "%B %d, %Y" } "January 5, 2024"
    ⟨2024, 1, 5, by decide, by decide, by decide, by decide⟩ .empty (by decide +kernel)
    (by decide +kernel)
  have hrefused : (RuleReader.read
      { catalog := .ofList [⟨3, 10, "OpenDate"⟩], datePattern := "%B %d, %Y" }
      ("(N.OpenDate) IS BEFORE (" ++ String.ofList (Text.writeLiteral "January 5, 2024".toList) ++
        ")") 1 none).toOption = none := by
    decide +kernel
  rw [hread] at hrefused
  cases hrefused

end RuleReader

end Rulebook
