import Mathlib.Data.List.TakeWhile
import Mathlib.Tactic.SplitIfs
import Rulebook.Coercion
import Rulebook.Proofs.Decimal.Digits
import Rulebook.Proofs.Text.Words

/-!
# The range of dates

Every date stands between the first and the last day of the calendar, and every one of them, those
two and the years before zero included, has a text by the pattern that is used when none is given:
reading the text gives the date.
-/

namespace Rulebook.Calendar

open Decimal (isDigit Spells spells_toString length_toString_le_iff length_toString_pos)

namespace Date

/-- No month has more than 31 days. -/
theorem daysIn_le (year : Int) (month : Nat) : daysIn year month ≤ 31 := by
  unfold daysIn
  split
  case h_2 => split <;> decide
  all_goals decide

/-- The month of a date is one of the twelve. -/
theorem month_bounds (date : Date) : 1 ≤ date.month ∧ date.month ≤ 12 := by
  have hsome : 1 ≤ daysIn date.year date.month := Nat.le_trans date.day_pos date.day_le
  by_contra hout
  unfold daysIn at hsome
  split at hsome <;> omega

theorem day_bounds (date : Date) : 1 ≤ date.day ∧ date.day ≤ 31 :=
  ⟨date.day_pos, Nat.le_trans date.day_le (daysIn_le _ _)⟩

/-- The first day of the calendar is before every other one. -/
theorem first_lt_iff {date : Date} : first < date ↔ date ≠ first := by
  refine ⟨fun h heq => lt_irrefl first (heq ▸ h), fun hne => (lt_or_lt_of_ne hne).resolve_left ?_⟩
  have hyear : first.year ≤ date.year := date.first_le
  have hmonth : first.month ≤ date.month := date.month_bounds.1
  have hday : first.day ≤ date.day := date.day_bounds.1
  rintro (h | ⟨-, h | ⟨-, h⟩⟩) <;> omega

/-- The last day of the calendar is behind every other one. -/
theorem lt_last_iff {date : Date} : date < last ↔ date ≠ last := by
  refine ⟨fun h heq => lt_irrefl last (heq ▸ h), fun hne => (lt_or_lt_of_ne hne).resolve_right ?_⟩
  have hyear : date.year ≤ last.year := date.le_last
  have hmonth : date.month ≤ last.month := date.month_bounds.2
  have hday : date.day ≤ last.day := date.day_bounds.2
  rintro (h | ⟨-, h | ⟨-, h⟩⟩) <;> omega

/-- A date with one behind it is not the last day. -/
theorem ne_last_of_lt {date other : Date} (h : date < other) : date ≠ last := by
  rintro rfl
  by_cases hother : other = last
  · exact lt_irrefl last (hother ▸ h)
  · exact lt_irrefl last (lt_trans h (lt_last_iff.mpr hother))

/-- A date with one before it is not the first day. -/
theorem ne_first_of_lt {date other : Date} (h : other < date) : date ≠ first := by
  rintro rfl
  by_cases hother : other = first
  · exact lt_irrefl first (hother ▸ h)
  · exact lt_irrefl first (lt_trans (first_lt_iff.mpr hother) h)

end Date

/-- No digit is blank. -/
theorem isBlank_digit {c : Char} (h : isDigit c = true) : Text.isBlank c = false := by
  have hrange : 48 ≤ c.toNat ∧ c.toNat ≤ 57 := by
    simpa [isDigit, Char.le_def, UInt32.le_iff_toNat_le] using h
  simp only [Text.isBlank, Text.blankRanges, List.any_cons, List.any_nil, Bool.or_false,
    Bool.or_eq_false_iff, Bool.and_eq_false_imp, decide_eq_true_eq, decide_eq_false_iff_not]
  omega

/-- A run of digits is read up to its end. -/
theorem number?_run {run : List Char} {value : Nat} (h : Spells run value) (hne : run ≠ [])
    (rest : List Char) : number? run.length (run ++ rest) = some (value, rest) := by
  have hlength : ¬ run.length < 1 := Nat.not_lt.mpr (List.length_pos_of_ne_nil hne)
  rw [number?, run?, List.take_left, List.takeWhile_eq_self_iff.mpr h.isDigit, if_neg hlength,
    List.drop_left, Option.map_some, h.digits]

/-- A run of digits is read as the number of a field that is so wide. -/
theorem Field.read?_run (field : Field) {run : List Char} {value : Nat} (h : Spells run value)
    (hwidth : field.width = some run.length) (hne : run ≠ []) (rest : List Char) :
    field.read? (run ++ rest) = some ((value : Int), rest) := by
  have hread := number?_run h hne rest
  obtain ⟨c, more, rfl⟩ := List.exists_cons_of_ne_nil hne
  have hc := h.isDigit c List.mem_cons_self
  have hstart : Text.trimStart (c :: more ++ rest) = c :: more ++ rest :=
    List.dropWhile_cons_of_neg (Bool.eq_false_iff.mp (isBlank_digit hc))
  have hsign : c ≠ '-' ∧ c ≠ '+' := by
    constructor <;> rintro rfl <;> exact absurd hc (by decide)
  unfold read?
  dsimp only
  rw [hstart, hwidth, Option.getD_some]
  split
  · next heq => exact absurd (List.cons.inj heq).1 hsign.1
  · next heq => exact absurd (List.cons.inj heq).1 hsign.2
  · rw [hread, Option.map_some]

/-- Behind a sign all digits of a year are read. -/
theorem Field.read?_signed {run : List Char} {value : Nat} (h : Spells run value) (hne : run ≠ []) :
    Field.year.read? ('-' :: run) = some (-(value : Int), []) ∧
      Field.year.read? ('+' :: run) = some ((value : Int), []) := by
  have hread := number?_run h hne []
  rw [List.append_nil] at hread
  have hminus : Text.trimStart ('-' :: run) = '-' :: run := rfl
  have hplus : Text.trimStart ('+' :: run) = '+' :: run := rfl
  have hsigned : Field.year.isSigned = true := rfl
  constructor
  · simp only [read?, hsigned, hminus, hread, Option.map_some]
  · simp only [read?, hsigned, hplus, hread, Option.map_some]

/-- A number that is read for a part without one is kept, and what is behind it is read. -/
theorem readItems?_number {field : Field} {part : Part} {text rest : List Char} {value : Int}
    {parts : Parts} (hread : field.read? text = some (value, rest))
    (hparts : field.parts? value = some [(part, value)]) (hnew : parts.get? part = none)
    (more : List Item) : readItems? (.number field :: more) parts text =
      readItems? more { numbers := (part, value) :: parts.numbers } rest := by
  have hset : parts.setAll? [(part, value)] =
      some { numbers := (part, value) :: parts.numbers } := by
    simp only [Parts.setAll?, Parts.set?, hnew, Option.bind_eq_bind, Option.bind_some]
  simp only [readItems?, Item.read?, hread, hparts, hset, Option.bind_eq_bind, Option.bind_some,
    Option.pure_def]

theorem readItems?_literal (c : Char) (more : List Item) (parts : Parts) (rest : List Char) :
    readItems? (.literal c :: more) parts (c :: rest) = readItems? more parts rest := by
  simp [readItems?, Item.read?, Parts.setAll?]

namespace Date

/-- Zeros are put in front of nothing. -/
theorem toList_pushn (zeros : Nat) : ("".pushn '0' zeros).toList = List.replicate zeros '0' := by
  induction zeros with
  | zero => rfl
  | succ zeros ih =>
    have hpush : "".pushn '0' (zeros + 1) = ("".pushn '0' zeros).push '0' := rfl
    rw [hpush, String.toList_push, ih, List.replicate_succ']

/-- A number below a hundred is written with two digits. -/
theorem spells_twoDigits {number : Nat} (h : number < 100) :
    Spells (twoDigits number).toList number ∧ (twoDigits number).toList.length = 2 := by
  have hspells := spells_toString number
  have hfew : (toString number).length ≤ 2 := (length_toString_le_iff number (by decide)).mpr h
  have hone : (toString number).length ≤ 1 ↔ number < 10 :=
    length_toString_le_iff number (by decide)
  have hpos := length_toString_pos number
  unfold twoDigits
  split
  · have htext : ("0" ++ toString number).toList =
        List.replicate 1 '0' ++ (toString number).toList := String.toList_append
    rw [htext, List.length_append, List.length_replicate, String.length_toList]
    exact ⟨hspells.replicate_append 1, by omega⟩
  · rw [String.length_toList]
    exact ⟨hspells, by omega⟩

theorem spells_month (date : Date) : Spells (twoDigits date.month).toList date.month ∧
    (twoDigits date.month).toList.length = 2 :=
  spells_twoDigits (Nat.lt_of_le_of_lt date.month_bounds.2 (by decide))

theorem spells_day (date : Date) : Spells (twoDigits date.day).toList date.day ∧
    (twoDigits date.day).toList.length = 2 :=
  spells_twoDigits (Nat.lt_of_le_of_lt date.day_bounds.2 (by decide))

theorem spells_fourDigits (number : Nat) : Spells (fourDigits number).toList number := by
  rw [fourDigits, String.toList_append, toList_pushn]
  exact (spells_toString number).replicate_append _

theorem fourDigits_ne_nil (number : Nat) : (fourDigits number).toList ≠ [] := by
  have hpos := length_toString_pos number
  rw [fourDigits, String.toList_append]
  exact List.append_ne_nil_of_right_ne_nil _ (List.ne_nil_of_length_pos hpos)

/-- Up to 9999 a number is written with four digits. -/
theorem length_fourDigits {number : Nat} (h : number ≤ 9999) :
    (fourDigits number).toList.length = 4 := by
  have hle : (toString number).length ≤ 4 :=
    (length_toString_le_iff number (by decide)).mpr (Nat.lt_succ_of_le h)
  rw [fourDigits, String.toList_append, toList_pushn, List.length_append, List.length_replicate,
    String.length_toList]
  omega

/-- A year is read as it is written. -/
theorem read?_yearText (year : Int) :
    Field.year.read? (yearText year).toList = some (year, []) := by
  have hspells := spells_fourDigits year.natAbs
  obtain ⟨hminus, hplus⟩ := Field.read?_signed hspells (fourDigits_ne_nil _)
  unfold yearText
  split_ifs with hneg hsmall
  · rw [String.toList_append]
    exact hminus.trans (by rw [Int.ofNat_natAbs_of_nonpos (by omega), Int.neg_neg])
  · have hfew : year.natAbs ≤ 9999 := by omega
    have hfield := Field.read?_run .year hspells (by rw [length_fourDigits hfew]; rfl)
      (fourDigits_ne_nil _) []
    rw [List.append_nil] at hfield
    rw [hfield, Int.natAbs_of_nonneg (by omega)]
  · rw [String.toList_append]
    exact hplus.trans (by rw [Int.natAbs_of_nonneg (by omega)])

/-- A year is written with digits and a sign. -/
theorem mem_yearText {year : Int} {c : Char} (h : c ∈ (yearText year).toList) :
    isDigit c = true ∨ c = '-' ∨ c = '+' := by
  have hdigits := (spells_fourDigits year.natAbs).isDigit c
  unfold yearText at h
  split_ifs at h
  · rw [String.toList_append] at h
    exact (List.mem_cons.mp h).elim (fun hc => .inr (.inl hc)) fun hc => .inl (hdigits hc)
  · exact .inl (hdigits h)
  · rw [String.toList_append] at h
    exact (List.mem_cons.mp h).elim (fun hc => .inr (.inr hc)) fun hc => .inl (hdigits hc)

/-- A date with the month in front, as the pattern has it that is used when none is given. -/
def monthFirst (date : Date) : String :=
  twoDigits date.month ++ "/" ++ twoDigits date.day ++ "/" ++ yearText date.year

theorem toList_monthFirst (date : Date) : date.monthFirst.toList = (twoDigits date.month).toList ++
    ('/' :: ((twoDigits date.day).toList ++ ('/' :: (yearText date.year).toList))) := by
  simp [monthFirst]

/-- A date is written with digits, signs and slashes. -/
theorem mem_monthFirst {date : Date} {c : Char} (h : c ∈ date.monthFirst.toList) :
    isDigit c = true ∨ c = '-' ∨ c = '+' ∨ c = '/' := by
  rw [toList_monthFirst, List.mem_append, List.mem_cons, List.mem_append, List.mem_cons] at h
  rcases h with h | rfl | h | rfl | h
  · exact .inl (date.spells_month.1.isDigit c h)
  · simp
  · exact .inl (date.spells_day.1.isDigit c h)
  · simp
  · rcases mem_yearText h with h | rfl | rfl
    · exact .inl h
    · simp
    · simp

/-- The month, the day and the year of a date determine it. -/
theorem date?_parts (date : Date) : Parts.date?
    { numbers := [(.year, date.year), (.day, date.day), (.month, date.month)] } = some date := by
  generalize hparts : ({ numbers := [(.year, date.year), (.day, date.day), (.month, date.month)] } :
    Parts) = parts
  have hyear : resolveYear? (parts.get? .year) (parts.get? .century) (parts.get? .yearOfCentury) =
      some (some date.year) := hparts ▸ rfl
  have hweekYear : resolveYear? (parts.get? .weekYear) none (parts.get? .weekYearOfCentury) =
      some none := hparts ▸ rfl
  have hmonth : parts.get? .month = some (date.month : Int) := hparts ▸ rfl
  have hday : parts.get? .day = some (date.day : Int) := hparts ▸ rfl
  have hagrees : (parts.numbers.all fun entry => date.agrees entry.1 entry.2) = true := by
    simp [← hparts, agrees]
  simp [Parts.date?, Parts.determined?, hyear, hweekYear, hmonth, hday, hagrees, of?_parts]

/-- Every date is read as it is written. -/
theorem readDate?_monthFirst (date : Date) :
    readDate? defaultPattern date.monthFirst = some date := by
  obtain ⟨hmonthPos, hmonthLe⟩ := date.month_bounds
  obtain ⟨hdayPos, hdayLe⟩ := date.day_bounds
  have hfirst : -262143 ≤ date.year := date.first_le
  have hlast : date.year ≤ 262142 := date.le_last
  obtain ⟨hmonthRun, hmonthWidth⟩ := date.spells_month
  obtain ⟨hdayRun, hdayWidth⟩ := date.spells_day
  have hmonth := Field.read?_run .month hmonthRun (by rw [hmonthWidth]; rfl)
    (List.ne_nil_of_length_pos (by omega))
  have hday := Field.read?_run .day hdayRun (by rw [hdayWidth]; rfl)
    (List.ne_nil_of_length_pos (by omega))
  have hmonthPart : Field.month.parts? date.month = some [(.month, (date.month : Int))] :=
    if_pos (by simp only [Field.range]; omega)
  have hdayPart : Field.day.parts? date.day = some [(.day, (date.day : Int))] :=
    if_pos (by simp only [Field.range]; omega)
  have hyearPart : Field.year.parts? date.year = some [(.year, date.year)] :=
    if_pos (by simp only [Field.range]; omega)
  have hitems : items defaultPattern.toList =
      [.number .month, .literal '/', .number .day, .literal '/', .number .year] := by decide
  rw [readDate?, hitems, toList_monthFirst, readItems?_number (hmonth _) hmonthPart rfl,
    readItems?_literal, readItems?_number (hday _) hdayPart rfl, readItems?_literal,
    readItems?_number (read?_yearText _) hyearPart rfl]
  exact date.date?_parts

/-- Every date of the calendar is the one that some text stands for. -/
theorem readDate_monthFirst (date : Date) : readDate date.monthFirst defaultPattern = .ok date := by
  have hfree : ∀ c ∈ date.monthFirst.toList, Text.isBlank c = false := by
    intro c hc
    rcases mem_monthFirst hc with h | rfl | rfl | rfl
    · exact isBlank_digit h
    all_goals rfl
  rw [readDate, Text.trimmed_eq_self (Text.hasOuterBlank_of_free hfree), readDate?_monthFirst]

example : first.monthFirst = "01/01/-262143" ∧ last.monthFirst = "12/31/+262142" := by
  decide +kernel

end Date

end Rulebook.Calendar
