/-!
# Calendar dates

Dates of the Gregorian calendar carried back before its introduction, with a year zero and negative
years before it. The range of years is that of a day count in 32 bits with room for a flag. Dates
are ordered by year, month and day.
-/

namespace Rulebook.Calendar

/-- The first year of the calendar. -/
def firstYear : Int := -262143

/-- The last year of the calendar. -/
def lastYear : Int := 262142

/-- A year is a leap year when four divides it, but of the centuries only every fourth. -/
def isLeap (year : Int) : Bool :=
  year % 4 == 0 && (year % 100 != 0 || year % 400 == 0)

/-- The number of days of a month; no other number is a month. -/
def daysIn (year : Int) : (month : Nat) → Nat
  | 1 => 31
  | 2 => if isLeap year then 29 else 28
  | 3 => 31
  | 4 => 30
  | 5 => 31
  | 6 => 30
  | 7 => 31
  | 8 => 31
  | 9 => 30
  | 10 => 31
  | 11 => 30
  | 12 => 31
  | _ => 0

/-- The number of days of a year before a month. -/
def daysBefore (year : Int) : (month : Nat) → Nat
  | 0 => 0
  | month + 1 => daysBefore year month + daysIn year month

/-- The number of days of a year. -/
def daysInYear (year : Int) : Nat := if isLeap year then 366 else 365

/-- The day of the week of a day of a year, counted from zero for Monday. Days that are not in the
year are counted on. -/
def weekdayOf (year day : Int) : Int :=
  let past := year - 1
  (past * 365 + past / 4 - past / 100 + past / 400 + day - 1) % 7

/-- A day of the calendar. -/
structure Date where
  /-- The year, where zero comes before one. -/
  year : Int
  /-- The month, from one. -/
  month : Nat
  /-- The day of the month, from one. -/
  day : Nat
  /-- The year is not before the first. -/
  first_le : firstYear ≤ year
  /-- The year is not after the last. -/
  le_last : year ≤ lastYear
  /-- Days are counted from one. -/
  day_pos : 1 ≤ day
  /-- The month has the day; so it is one of the twelve months. -/
  day_le : day ≤ daysIn year month
  deriving DecidableEq, Repr

namespace Date

/-- The date with a year, month and day, if the calendar has it. -/
def of? (year : Int) (month day : Nat) : Option Date :=
  if h : (firstYear ≤ year ∧ year ≤ lastYear) ∧ (1 ≤ day ∧ day ≤ daysIn year month) then
    some ⟨year, month, day, h.1.1, h.1.2, h.2.1, h.2.2⟩
  else none

/-- The first day of the calendar. -/
def first : Date := ⟨firstYear, 1, 1, by decide, by decide, by decide, by decide⟩

/-- The last day of the calendar. -/
def last : Date := ⟨lastYear, 12, 31, by decide, by decide, by decide, by decide⟩

/-- One date comes before another when its year, month and day come first in this order. -/
def Before (left right : Date) : Prop :=
  left.year < right.year ∨
    (left.year = right.year ∧
      (left.month < right.month ∨ (left.month = right.month ∧ left.day < right.day)))

instance : LT Date := ⟨Before⟩

instance (left right : Date) : Decidable (left < right) :=
  inferInstanceAs (Decidable (left.year < right.year ∨ _))

/-- The day of the year, from one. -/
def dayOfYear (date : Date) : Nat := daysBefore date.year date.month + date.day

/-- The date with a year and a day of the year, if the year has so many days. -/
def ofDayOfYear? (year : Int) (day : Nat) : Option Date :=
  (List.range 12).findSome? fun index =>
    if daysBefore year (index + 1) < day ∧ day ≤ daysBefore year (index + 2) then
      of? year (index + 1) (day - daysBefore year (index + 1))
    else none

/-- The day of the week, counted from zero for Monday. -/
def weekday (date : Date) : Int := weekdayOf date.year date.dayOfYear

/-- The quarter of the year, from one. -/
def quarter (date : Date) : Nat := (date.month - 1) / 3 + 1

/-- The week of the year, where weeks begin with a day of the week and the days before the first of
these are in the week zero. -/
def weekFrom (date : Date) (start : Int) : Int :=
  (date.dayOfYear - (date.weekday - start) % 7 + 6) / 7

/-- The international week of a date, with the year that it is counted for: weeks begin with Monday,
and a week belongs to the year of its Thursday. -/
def internationalWeek (date : Date) : Int × Int :=
  let thursday : Int := date.dayOfYear - date.weekday + 3
  if thursday < 1 then (date.year - 1, (thursday + daysInYear (date.year - 1) - 1) / 7 + 1)
  else if daysInYear date.year < thursday then (date.year + 1, 1)
  else (date.year, (thursday - 1) / 7 + 1)

/-- The date with a year, a week that begins with a day of the week, and a day of the week. -/
def ofWeek? (start year week weekday : Int) : Option Date :=
  let first := 1 + (start - weekdayOf year 1) % 7
  ofDayOfYear? year (first + (week - 1) * 7 + (weekday - start) % 7).toNat

/-- The date with an international week of a year and a day of the week. Its first and last days may
be in the years before and behind. -/
def ofInternationalWeek? (year week weekday : Int) : Option Date :=
  let monday := 4 - weekdayOf year 4 + (week - 1) * 7
  let day := monday + weekday
  if week < 1 ∨ daysInYear year < monday + 3 then none
  else if day < 1 then ofDayOfYear? (year - 1) (day + daysInYear (year - 1)).toNat
  else if daysInYear year < day then ofDayOfYear? (year + 1) (day - daysInYear year).toNat
  else ofDayOfYear? year day.toNat

/-- A number with at least two digits. -/
def twoDigits (number : Nat) : String :=
  if number < 10 then "0" ++ toString number else toString number

/-- A number with at least four digits. -/
def fourDigits (number : Nat) : String :=
  "".pushn '0' (4 - (toString number).length) ++ toString number

/-- A year with four digits from 0 to 9999, otherwise with a sign and at least four digits. -/
def yearText (year : Int) : String :=
  if year < 0 then "-" ++ fourDigits year.natAbs
  else if year ≤ 9999 then fourDigits year.natAbs
  else "+" ++ fourDigits year.natAbs

/-- A date as year, month and day with hyphens between. -/
def text (date : Date) : String :=
  yearText date.year ++ "-" ++ twoDigits date.month ++ "-" ++ twoDigits date.day

/-- Every date is found by its parts. -/
theorem of?_parts (date : Date) : of? date.year date.month date.day = some date := by
  unfold of?
  rw [dif_pos ⟨⟨date.first_le, date.le_last⟩, date.day_pos, date.day_le⟩]

theorem lt_irrefl (date : Date) : ¬ date < date := by
  intro h
  rcases h with h | ⟨_, h | ⟨_, h⟩⟩ <;> omega

/-- Of two different dates one comes before the other. -/
theorem lt_or_lt_of_ne {left right : Date} (h : left ≠ right) : left < right ∨ right < left := by
  by_cases hy : left.year = right.year
  · by_cases hm : left.month = right.month
    · by_cases hd : left.day = right.day
      · exact absurd (by cases left; cases right; simp_all) h
      · rcases Nat.lt_or_gt_of_ne hd with hd | hd
        · exact .inl (.inr ⟨hy, .inr ⟨hm, hd⟩⟩)
        · exact .inr (.inr ⟨hy.symm, .inr ⟨hm.symm, hd⟩⟩)
    · rcases Nat.lt_or_gt_of_ne hm with hm | hm
      · exact .inl (.inr ⟨hy, .inl hm⟩)
      · exact .inr (.inr ⟨hy.symm, .inl hm⟩)
  · rcases Int.lt_or_gt_of_ne hy with hy | hy
    · exact .inl (.inl hy)
    · exact .inr (.inl hy)

/-- The order of dates is transitive. -/
theorem lt_trans {a b c : Date} (hab : a < b) (hbc : b < c) : a < c := by
  rcases hab with h₁ | ⟨h₁, h₂ | ⟨h₂, h₃⟩⟩ <;> rcases hbc with k₁ | ⟨k₁, k₂ | ⟨k₂, k₃⟩⟩
  all_goals first
    | exact .inl (by omega)
    | exact .inr ⟨by omega, .inl (by omega)⟩
    | exact .inr ⟨by omega, .inr ⟨by omega, by omega⟩⟩

end Date

end Rulebook.Calendar
