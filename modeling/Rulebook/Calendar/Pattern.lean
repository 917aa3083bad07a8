import Rulebook.Text.Letter
import Rulebook.Text.Blank
import Rulebook.Decimal.Numeral
import Rulebook.Calendar.Date

/-!
# Reading dates by a pattern

A pattern is a text in which a percent sign and a letter stand for a part of a date or of a time of
day, blanks stand for any number of blanks, and everything else for itself. Reading goes through
pattern and text once from the left and never goes back. The parts found determine the date: the
year with the month and the day of the month, with the day of the year, or with a week and the day
of the week. Parts that are given twice, and parts that the date implies, have to agree. The time of
day is read and left out.
-/

namespace Rulebook.Calendar

/-- The parts of dates and times that are kept while a text is read. -/
inductive Part where
  /-- The year. -/
  | year
  /-- The year without its last two digits. -/
  | century
  /-- The last two digits of the year. -/
  | yearOfCentury
  /-- The year of the international week. -/
  | weekYear
  /-- The last two digits of the year of the international week. -/
  | weekYearOfCentury
  /-- The quarter of the year, from one. -/
  | quarter
  /-- The month, from one. -/
  | month
  /-- The day of the month, from one. -/
  | day
  /-- The day of the year, from one. -/
  | dayOfYear
  /-- The week of the year, where weeks begin with Sunday. -/
  | sundayWeek
  /-- The week of the year, where weeks begin with Monday. -/
  | mondayWeek
  /-- The international week, from one. -/
  | week
  /-- The day of the week, counted from zero for Monday. -/
  | weekday
  /-- The half of the day, zero before noon. -/
  | halfOfDay
  /-- The hour of the half of the day, from zero. -/
  | hourOfHalf
  /-- The minute, from zero. -/
  | minute
  /-- The second, from zero, with room for a leap second. -/
  | second
  /-- The billionths of a second. -/
  | nanosecond
  /-- The seconds since the beginning of 1970. -/
  | timestamp
  /-- The seconds that a clock is ahead of universal time. -/
  | offset
  deriving DecidableEq, Repr

/-- What is written as a number. -/
inductive Field where
  /-- The year, which may have a sign and then any number of digits. -/
  | year
  /-- The year without its last two digits. -/
  | century
  /-- The last two digits of the year. -/
  | yearOfCentury
  /-- The year of the international week, which may have a sign as well. -/
  | weekYear
  /-- The last two digits of the year of the international week. -/
  | weekYearOfCentury
  /-- The quarter of the year. -/
  | quarter
  /-- The month. -/
  | month
  /-- The day of the month. -/
  | day
  /-- The day of the year. -/
  | dayOfYear
  /-- The week of the year, where weeks begin with Sunday. -/
  | sundayWeek
  /-- The week of the year, where weeks begin with Monday. -/
  | mondayWeek
  /-- The international week. -/
  | week
  /-- The day of the week, from zero for Sunday. -/
  | dayFromSunday
  /-- The day of the week, from one for Monday. -/
  | dayFromMonday
  /-- The hour of the day. -/
  | hour
  /-- The hour on a dial of twelve. -/
  | hourOfDial
  /-- The minute. -/
  | minute
  /-- The second. -/
  | second
  /-- The billionths of a second. -/
  | nanosecond
  /-- The seconds since the beginning of 1970. -/
  | timestamp
  deriving DecidableEq, Repr

namespace Field

/-- The largest number of digits of a field without sign, if there is one. -/
def width : Field → Option Nat
  | .year | .weekYear => some 4
  | .dayOfYear => some 3
  | .quarter | .dayFromSunday | .dayFromMonday => some 1
  | .nanosecond => some 9
  | .timestamp => none
  | _ => some 2

/-- A field may have a sign. -/
def isSigned : Field → Bool
  | .year | .weekYear => true
  | _ => false

/-- The least and the greatest number that a field may have. -/
def range : Field → Int × Int
  | .year | .weekYear => (-2147483648, 2147483647)
  | .century | .yearOfCentury | .weekYearOfCentury => (0, 99)
  | .quarter => (1, 4)
  | .month => (1, 12)
  | .day => (1, 31)
  | .dayOfYear => (1, 366)
  | .sundayWeek | .mondayWeek => (0, 53)
  | .week => (1, 53)
  | .dayFromSunday => (0, 6)
  | .dayFromMonday => (1, 7)
  | .hour => (0, 23)
  | .hourOfDial => (1, 12)
  | .minute => (0, 59)
  | .second => (0, 60)
  | .nanosecond => (0, 999999999)
  | .timestamp => (0, 9223372036854775807)

/-- The parts that a number gives. -/
def parts (field : Field) (value : Int) : List (Part × Int) :=
  match field with
  | .year => [(.year, value)]
  | .century => [(.century, value)]
  | .yearOfCentury => [(.yearOfCentury, value)]
  | .weekYear => [(.weekYear, value)]
  | .weekYearOfCentury => [(.weekYearOfCentury, value)]
  | .quarter => [(.quarter, value)]
  | .month => [(.month, value)]
  | .day => [(.day, value)]
  | .dayOfYear => [(.dayOfYear, value)]
  | .sundayWeek => [(.sundayWeek, value)]
  | .mondayWeek => [(.mondayWeek, value)]
  | .week => [(.week, value)]
  | .dayFromSunday => [(.weekday, (value + 6) % 7)]
  | .dayFromMonday => [(.weekday, value - 1)]
  | .hour => [(.halfOfDay, value / 12), (.hourOfHalf, value % 12)]
  | .hourOfDial => [(.hourOfHalf, value % 12)]
  | .minute => [(.minute, value)]
  | .second => [(.second, value)]
  | .nanosecond => [(.nanosecond, value)]
  | .timestamp => [(.timestamp, value)]

/-- The parts that a number gives, if it is in the range of the field. -/
def parts? (field : Field) (value : Int) : Option (List (Part × Int)) :=
  if field.range.1 ≤ value ∧ value ≤ field.range.2 then some (field.parts value) else none

end Field

/-- How the distance of a clock from universal time may be written. -/
inductive OffsetForm where
  /-- With a sign, hours and minutes. -/
  | plain
  /-- With a sign and hours at least, or as the letter `Z`. -/
  | lenient
  /-- With a sign, hours and minutes, as the letter `Z`, or as `UTC`. -/
  | universal
  deriving DecidableEq, Repr

/-- One step of a pattern. -/
inductive Item where
  /-- Any number of blanks. -/
  | blanks
  /-- A character that stands for itself. -/
  | literal (c : Char)
  /-- A number. -/
  | number (field : Field)
  /-- The first three letters of a month, and the other letters if `long` and they are there. -/
  | monthName (long : Bool)
  /-- The first three letters of a day of the week, and the other letters in the same way. -/
  | weekdayName (long : Bool)
  /-- The half of the day, `am` or `pm`. -/
  | halfOfDay
  /-- The fraction of a second, with a number of places or any; with a point it may be missing. -/
  | fraction (pointed : Bool) (places : Option Nat)
  /-- The name of a zone: everything up to the next blank. -/
  | zoneName
  /-- The distance from universal time. -/
  | offset (form : OffsetForm)
  /-- A blank or the letter `T` between the date and the time. -/
  | separator
  /-- A percent sign with characters that stand for nothing; no text fits. -/
  | unknown
  deriving DecidableEq, Repr

/-- The steps of a date that is written as month, day and year of the century. -/
def slashedDate : List Item :=
  [.number .month, .literal '/', .number .day, .literal '/', .number .yearOfCentury]

/-- The steps of a date that is written as year, month and day. -/
def hyphenedDate : List Item :=
  [.number .year, .literal '-', .number .month, .literal '-', .number .day]

/-- The steps of a time of day on a dial. -/
def clockTime (hours : Field) : List Item :=
  [.number hours, .literal ':', .number .minute, .literal ':', .number .second]

/-- The steps that a letter behind a percent sign stands for. -/
def specifier : Char → List Item
  | 'Y' => [.number .year]
  | 'C' => [.number .century]
  | 'y' => [.number .yearOfCentury]
  | 'G' => [.number .weekYear]
  | 'g' => [.number .weekYearOfCentury]
  | 'q' => [.number .quarter]
  | 'm' => [.number .month]
  | 'b' | 'h' => [.monthName false]
  | 'B' => [.monthName true]
  | 'd' | 'e' => [.number .day]
  | 'j' => [.number .dayOfYear]
  | 'U' => [.number .sundayWeek]
  | 'W' => [.number .mondayWeek]
  | 'V' => [.number .week]
  | 'a' => [.weekdayName false]
  | 'A' => [.weekdayName true]
  | 'w' => [.number .dayFromSunday]
  | 'u' => [.number .dayFromMonday]
  | 'D' | 'x' => slashedDate
  | 'F' => hyphenedDate
  | 'v' => [.number .day, .literal '-', .monthName false, .literal '-', .number .year]
  | 'H' | 'k' => [.number .hour]
  | 'I' | 'l' => [.number .hourOfDial]
  | 'P' | 'p' => [.halfOfDay]
  | 'M' => [.number .minute]
  | 'S' => [.number .second]
  | 'f' => [.number .nanosecond]
  | 's' => [.number .timestamp]
  | 'R' => [.number .hour, .literal ':', .number .minute]
  | 'T' | 'X' => clockTime .hour
  | 'r' => clockTime .hourOfDial ++ [.blanks, .halfOfDay]
  | 'c' => [.weekdayName false, .blanks, .monthName false, .blanks, .number .day, .blanks] ++
      clockTime .hour ++ [.blanks, .number .year]
  | '+' => hyphenedDate ++ .separator :: clockTime .hour ++
      [.fraction true none, .blanks, .offset .universal]
  | 'Z' => [.zoneName]
  | 'z' => [.offset .plain]
  | 'n' | 't' => [.blanks]
  | '%' => [.literal '%']
  | _ => [.unknown]

/-- The specifiers of more than one character, without the percent sign. -/
def longSpecifiers : List (String × Item) :=
  [(":z", .offset .plain), ("::z", .offset .plain), (":::z", .offset .plain),
   ("#z", .offset .lenient), (".f", .fraction true none), (".3f", .fraction true (some 3)),
   (".6f", .fraction true (some 6)), (".9f", .fraction true (some 9)),
   ("3f", .fraction false (some 3)), ("6f", .fraction false (some 6)),
   ("9f", .fraction false (some 9))]

/-- The signs that say how a number is filled up; they do not matter when it is read. -/
def isPadding (c : Char) : Bool := c == '-' || c == '_' || c == '0'

/-- Only a single number may be filled up. -/
def padded : List Item → List Item
  | [.number field] => [.number field]
  | _ => [.unknown]

/-- The steps that begin a text behind a percent sign, and how many characters stand for them. -/
def directive (text : List Char) : List Item × Nat :=
  match longSpecifiers.find? fun entry => entry.1.toList.isPrefixOf text with
  | some (spelling, item) => ([item], spelling.length)
  | none =>
    match text with
    | [] => ([.unknown], 0)
    | letter :: rest =>
      if isPadding letter then (padded (rest.head?.elim [] specifier), 2)
      else (specifier letter, 1)

/-- The steps of a pattern text behind some characters that were taken before. -/
def itemsFrom : (taken : Nat) → List Char → List Item
  | _, [] => []
  | taken + 1, _ :: rest => itemsFrom taken rest
  | 0, c :: rest =>
    if c = '%' then (directive rest).1 ++ itemsFrom (directive rest).2 rest
    else (if Text.isBlank c then .blanks else .literal c) :: itemsFrom 0 rest

/-- The steps of a pattern text. -/
def items (pattern : List Char) : List Item := itemsFrom 0 pattern

/-- The parts found so far. -/
structure Parts where
  /-- The numbers found, each part at most once. -/
  numbers : List (Part × Int) := []
  deriving Repr

/-- The year that a full year, the year without its last two digits and these two determine. They
have to agree, and beside others the full year is not negative. The last two digits alone stand for
a year between 1970 and 2069; the digits before them alone are refused. -/
def resolveYear? (year century short : Option Int) : Option (Option Int) :=
  match year, century, short with
  | year, none, none => some year
  | some year, century, short =>
    if 0 ≤ year ∧ century.getD (year / 100) = year / 100 ∧ short.getD (year % 100) = year % 100 then
      some (some year)
    else none
  | none, some century, some short => some (some (100 * century + short))
  | none, none, some short => some (some (if short < 70 then 2000 + short else 1900 + short))
  | none, some _, none => none

/-- A part with a number agrees with a date. The last two digits of a year are those of a year that
is not negative. -/
def Date.agrees (date : Date) (part : Part) (value : Int) : Bool :=
  match part with
  | .year => value == date.year
  | .century => decide (0 ≤ date.year) && value == date.year / 100
  | .yearOfCentury => decide (0 ≤ date.year) && value == date.year % 100
  | .weekYear => value == date.internationalWeek.1
  | .weekYearOfCentury =>
    decide (0 ≤ date.internationalWeek.1) && value == date.internationalWeek.1 % 100
  | .quarter => value == date.quarter
  | .month => value == date.month
  | .day => value == date.day
  | .dayOfYear => value == date.dayOfYear
  | .sundayWeek => value == date.weekFrom 6
  | .mondayWeek => value == date.weekFrom 0
  | .week => value == date.internationalWeek.2
  | .weekday => value == date.weekday
  | .halfOfDay | .hourOfHalf | .minute | .second | .nanosecond | .timestamp | .offset => true

namespace Parts

/-- The number found for a part. -/
def get? (parts : Parts) (part : Part) : Option Int := parts.numbers.lookup part

/-- Takes a number for a part, unless another one was found before. -/
def set? (parts : Parts) (part : Part) (value : Int) : Option Parts :=
  match parts.get? part with
  | none => some { numbers := (part, value) :: parts.numbers }
  | some found => if found = value then some parts else none

/-- Takes the numbers for some parts. -/
def setAll? (parts : Parts) : List (Part × Int) → Option Parts
  | [] => some parts
  | (part, value) :: more => do (← parts.set? part value).setAll? more

/-- The date that the parts determine in the first of five ways for which all parts were found. -/
def determined? (parts : Parts) (year weekYear : Option Int) : Option Date :=
  Option.join <|
    (do return Date.of? (← year) (← parts.get? .month).toNat (← parts.get? .day).toNat) <|>
    (do return Date.ofDayOfYear? (← year) (← parts.get? .dayOfYear).toNat) <|>
    (do return Date.ofWeek? 6 (← year) (← parts.get? .sundayWeek) (← parts.get? .weekday)) <|>
    (do return Date.ofWeek? 0 (← year) (← parts.get? .mondayWeek) (← parts.get? .weekday)) <|>
    (do return Date.ofInternationalWeek? (← weekYear) (← parts.get? .week) (← parts.get? .weekday))

/-- The date that the parts determine, if they determine one and agree with it. -/
def date? (parts : Parts) : Option Date := do
  let year ← resolveYear? (parts.get? .year) (parts.get? .century) (parts.get? .yearOfCentury)
  let weekYear ← resolveYear? (parts.get? .weekYear) none (parts.get? .weekYearOfCentury)
  let date ← parts.determined? year weekYear
  if parts.numbers.all fun entry => date.agrees entry.1 entry.2 then some date else none

end Parts

/-- Reads a run of digits with a least and a greatest length. -/
def run? (least most : Nat) (text : List Char) : Option (List Char × List Char) :=
  let run := (text.take most).takeWhile Decimal.isDigit
  if run.length < least then none else some (run, text.drop run.length)

/-- Reads one to `width` digits. -/
def number? (width : Nat) (text : List Char) : Option (Nat × List Char) :=
  (run? 1 width text).map fun found => (Decimal.digits found.1, found.2)

/-- Reads the number of a field behind any number of blanks. -/
def Field.read? (field : Field) (text : List Char) : Option (Int × List Char) :=
  let text := Text.trimStart text
  match field.isSigned, text with
  | true, '-' :: rest =>
    (number? rest.length rest).map fun found => (-(found.1 : Int), found.2)
  | true, '+' :: rest => (number? rest.length rest).map fun found => ((found.1 : Int), found.2)
  | _, _ =>
    (number? (field.width.getD text.length) text).map fun found => ((found.1 : Int), found.2)

/-- The names of the months, cut behind the third letter. -/
def monthNames : List (String × String) :=
  [("jan", "uary"), ("feb", "ruary"), ("mar", "ch"), ("apr", "il"), ("may", ""), ("jun", "e"),
   ("jul", "y"), ("aug", "ust"), ("sep", "tember"), ("oct", "ober"), ("nov", "ember"),
   ("dec", "ember")]

/-- The names of the days of the week, cut behind the third letter. -/
def weekdayNames : List (String × String) :=
  [("mon", "day"), ("tue", "sday"), ("wed", "nesday"), ("thu", "rsday"), ("fri", "day"),
   ("sat", "urday"), ("sun", "day")]

/-- Takes a word off the front of a text, without regard to the case of ASCII letters. -/
def dropWord? (word : String) (text : List Char) : Option (List Char) :=
  if Text.lower (text.take word.length) = word.toList then some (text.drop word.length) else none

/-- Reads one of some names: its place from zero and the rest of the text. -/
def readName? (names : List (String × String)) (long : Bool) (text : List Char) :
    Option (Nat × List Char) :=
  names.zipIdx.findSome? fun ((short, remainder), index) =>
    (dropWord? short text).map fun rest =>
      (index, if long then (dropWord? remainder rest).getD rest else rest)

/-- Reads the digits of a fraction of a second as billionths, filled up with zeros. Digits behind the
ninth are left out if the number of places is not given. -/
def readFraction? (places : Option Nat) (text : List Char) :
    Option (List (Part × Int) × List Char) := do
  let (run, rest) ← run? (places.getD 1) (places.getD 9) text
  return ([(.nanosecond, Decimal.digits (run ++ List.replicate (9 - run.length) '0'))],
    if places.isNone then rest.dropWhile Decimal.isDigit else rest)

/-- Reads a fraction behind a point, or nothing where there is no point. -/
def readPointed? (places : Option Nat) : List Char → Option (List (Part × Int) × List Char)
  | '.' :: rest => readFraction? places rest
  | text => some ([], text)

/-- Reads hours and minutes as seconds. There may be colons and blanks between them, and a lenient
reader takes hours alone at the end of the text. -/
def readDistance? (lenient : Bool) (text : List Char) : Option (Int × List Char) := do
  let (hours, rest) ← run? 2 2 text
  let rest := rest.dropWhile fun c => c == ':' || Text.isBlank c
  if lenient && rest.isEmpty then return (Decimal.digits hours * 3600, [])
  else
    let (minutes, rest) ← run? 2 2 rest
    if Decimal.digits minutes < 60 then
      return (Decimal.digits hours * 3600 + Decimal.digits minutes * 60, rest)
    else none

/-- Reads the distance from universal time behind any number of blanks. The minus sign may be the
hyphen or the sign of typography. -/
def readOffset? (form : OffsetForm) (text : List Char) : Option (Int × List Char) :=
  let text := Text.trimStart text
  match if form = .universal then dropWord? "utc" text else none with
  | some rest => some (0, rest)
  | none =>
    match text with
    | '+' :: rest => readDistance? (form = .lenient) rest
    | '-' :: rest | '−' :: rest =>
      (readDistance? (form = .lenient) rest).map fun found => (-found.1, found.2)
    | _ => if form = .plain then none else (dropWord? "z" text).map fun rest => (0, rest)

/-- Reads a blank or the letter `T`. -/
def readSeparator? : List Char → Option (List Char)
  | ' ' :: rest => some rest
  | text => dropWord? "t" text

/-- Reads the half of the day: its number from zero and the rest of the text. -/
def readHalf? (text : List Char) : Option (Int × List Char) :=
  match dropWord? "am" text with
  | some rest => some (0, rest)
  | none => (dropWord? "pm" text).map fun rest => (1, rest)

/-- Takes the text of one step off the front of a text: the parts found and the rest. -/
def Item.read? (item : Item) (text : List Char) : Option (List (Part × Int) × List Char) :=
  match item with
  | .blanks => some ([], Text.trimStart text)
  | .literal c =>
    match text with
    | d :: rest => if c = d then some ([], rest) else none
    | [] => none
  | .number field => do
    let (value, rest) ← field.read? text
    return (← field.parts? value, rest)
  | .monthName long => (readName? monthNames long text).map fun found =>
      ([(.month, (found.1 : Int) + 1)], found.2)
  | .weekdayName long => (readName? weekdayNames long text).map fun found =>
      ([(.weekday, (found.1 : Int))], found.2)
  | .halfOfDay => (readHalf? text).map fun found => ([(.halfOfDay, found.1)], found.2)
  | .fraction pointed places =>
    if pointed then readPointed? places text else readFraction? places text
  | .zoneName => some ([], text.dropWhile fun c => !Text.isBlank c)
  | .offset form => (readOffset? form text).map fun found => ([(.offset, found.1)], found.2)
  | .separator => (readSeparator? text).map fun rest => ([], rest)
  | .unknown => none

/-- Goes through the steps of a pattern; the text has to end with the pattern. -/
def readItems? : List Item → Parts → List Char → Option Parts
  | [], parts, [] => some parts
  | [], _, _ :: _ => none
  | item :: more, parts, text => do
    let (found, rest) ← item.read? text
    readItems? more (← parts.setAll? found) rest

/-- Reads a date by a pattern. Blanks around the date are part of the text. -/
def readDate? (pattern text : String) : Option Date := do
  (← readItems? (items pattern.toList) {} text.toList).date?

/-- The pattern of dates that is used when none is given: month, day and year. -/
def defaultPattern : String := "%m/%d/%Y"

/-- The steps of a date in the international form, which allows blanks behind each number. -/
def standardItems : List Item :=
  [.number .year, .blanks, .literal '-', .number .month, .blanks, .literal '-', .number .day,
   .blanks]

/-- Reads a date in the international form of year, month and day. -/
def readStandardDate? (text : String) : Option Date := do
  (← readItems? standardItems {} text.toList).date?

end Rulebook.Calendar
