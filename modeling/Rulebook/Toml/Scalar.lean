import Rulebook.Settings.Value
import Rulebook.Decimal.Numeral
import Rulebook.Calendar.Date
import Rulebook.Text.Reference

/-!
# Words of TOML that are values

A word is a truth value, a whole number of 64 bits in one of four bases, another number, or a date
or time. Underscores may stand between digits. A whole number or the whole part of another number
does not start with a zero unless it is zero. A number that is too large is refused. Dates and times
are kept as texts in their usual form.
-/

namespace Rulebook.Toml

open Rulebook.Decimal (isDigit digits splitSign)

/-- The digits of a group without its underscores, which may only stand between digits. -/
def group? (accept : Char → Bool) (text : List Char) : Option (List Char) :=
  let runs := Text.pieces (· == '_') text
  if runs.all fun run => !run.isEmpty && run.all accept then some runs.flatten else none

/-- The digits of a whole number in base ten. -/
def wholeDigits? (text : List Char) : Option (List Char) := do
  let run ← group? isDigit text
  if run.length ≠ 1 ∧ run.head? = some '0' then none else some run

/-- A whole number in the range of 64 bits with a sign. -/
def inRange? (value : Int) : Option Int :=
  if Int64.minValue.toInt ≤ value ∧ value ≤ Int64.maxValue.toInt then some value else none

/-- The value of digits in a base. -/
def inBase (base : Nat) (run : List Char) : Nat :=
  run.foldl (fun value c => value * base + (Text.digitValue? c).getD 0) 0

/-- The character is a digit of a base. -/
def isDigitOf (base : Nat) (c : Char) : Bool := (Text.digitValue? c).any fun value => value < base

/-- A whole number. -/
def whole? : List Char → Option Int
  | '0' :: 'x' :: run => (group? (isDigitOf 16) run).bind fun run => inRange? (inBase 16 run)
  | '0' :: 'o' :: run => (group? (isDigitOf 8) run).bind fun run => inRange? (inBase 8 run)
  | '0' :: 'b' :: run => (group? (isDigitOf 2) run).bind fun run => inRange? (inBase 2 run)
  | text =>
    let (negative, run) := splitSign text
    (wholeDigits? run).bind fun run =>
      inRange? (if negative then -(digits run : Int) else digits run)

/-- The power of ten of a number, behind its mark. -/
def power? (text : List Char) : Option (List Char) :=
  let (negative, run) := splitSign text
  (group? isDigit run).map fun run => if negative then '-' :: run else run

/-- A number with a point or a power of ten, without its sign, in the spelling of numerals. -/
def numeral? (text : List Char) : Option (List Char) :=
  let isMark (c : Char) : Bool := c == 'e' || c == 'E'
  let front := text.takeWhile fun c => !isMark c
  let whole := front.takeWhile (· != '.')
  let fraction? : Option (List Char) :=
    match front.dropWhile (· != '.') with
    | [] => some []
    | _ :: run => (group? isDigit run).map ('.' :: ·)
  let scale? : Option (List Char) :=
    match text.dropWhile fun c => !isMark c with
    | [] => some []
    | _ :: run => (power? run).map ('e' :: ·)
  if whole = text then none
  else do return (← wholeDigits? whole) ++ (← fraction?) ++ (← scale?)

/-- A number that is not whole. -/
def number? (text : List Char) : Option Float :=
  let (negative, run) := splitSign text
  let magnitude? : Option Float :=
    if run = ['i', 'n', 'f'] then some Decimal.infinity
    else if run = ['n', 'a', 'n'] then some Decimal.notANumber
    else do
      let value ← Decimal.read? (← numeral? run)
      if value.isInf then none else some value
  magnitude?.map fun value => if negative then -value else value

/-- A number of two digits below a bound. -/
def pair? (bound : Nat) : List Char → Option (Nat × List Char)
  | a :: b :: rest =>
    if isDigit a && isDigit b && decide (digits [a, b] < bound) then some (digits [a, b], rest)
    else none
  | _ => none

/-- A number as two digits. -/
def twoDigits (value : Nat) : List Char :=
  [Nat.digitChar (value / 10), Nat.digitChar (value % 10)]

/-- A date at the start of a text, in its usual form, and what follows it. -/
def date? (text : List Char) : Option (List Char × List Char) := do
  let year := text.take 4
  if year.length ≠ 4 ∨ !year.all isDigit then none
  match text.drop 4 with
  | '-' :: a :: b :: '-' :: c :: d :: rest =>
    let (month, _) ← pair? 13 [a, b]
    let (day, _) ← pair? 32 [c, d]
    if (Calendar.Date.of? (digits year) month day).isNone then none
    return (year ++ '-' :: twoDigits month ++ '-' :: twoDigits day, rest)
  | _ => none

/-- The fraction of a second at the start of a text: at most nine digits count, and zeros at the end
are left out, but for one. -/
def fraction? : List Char → Option (List Char × List Char)
  | '.' :: rest =>
    let run := rest.takeWhile isDigit
    if run.isEmpty then none
    else
      let kept := ((run.take 9).reverse.dropWhile (· == '0')).reverse
      some ('.' :: (if kept.isEmpty then ['0'] else kept), rest.dropWhile isDigit)
  | rest => some ([], rest)

/-- A time at the start of a text, in its usual form, and what follows it. Seconds may be left out,
and with them their fraction. -/
def time? (text : List Char) : Option (List Char × List Char) := do
  let (hour, rest) ← pair? 24 text
  match rest with
  | ':' :: rest =>
    let (minute, rest) ← pair? 60 rest
    let front := twoDigits hour ++ ':' :: twoDigits minute
    match rest with
    | ':' :: rest =>
      let (second, rest) ← pair? 61 rest
      let (fraction, rest) ← fraction? rest
      return (front ++ ':' :: twoDigits second ++ fraction, rest)
    | rest => return (front, rest)
  | _ => none

/-- The distance from universal time at the end of a text. No distance is written with a plus. -/
def offset? : List Char → Option (List Char)
  | [] => some []
  | ['Z'] | ['z'] => some ['Z']
  | [sign, a, b, ':', c, d] => do
    if sign ≠ '+' ∧ sign ≠ '-' then none
    let (hour, _) ← pair? 24 [a, b]
    let (minute, _) ← pair? 60 [c, d]
    let sign := if hour = 0 ∧ minute = 0 then '+' else sign
    return sign :: (twoDigits hour ++ ':' :: twoDigits minute)
  | _ => none

/-- A date, a time, or both, in the usual form. -/
def moment? (text : List Char) : Option (List Char) :=
  match date? text with
  | some (date, []) => some date
  | some (date, c :: rest) => do
    if c ≠ 'T' ∧ c ≠ 't' ∧ c ≠ ' ' then none
    let (time, rest) ← time? rest
    return date ++ 'T' :: time ++ (← offset? rest)
  | none =>
    match time? text with
    | some (time, []) => some time
    | _ => none

/-- The value of a word. -/
def scalar? (word : List Char) : Option Setting :=
  if word = "true".toList then some (.bool true)
  else if word = "false".toList then some (.bool false)
  else
    match whole? word with
    | some value => some (.whole value)
    | none =>
      match number? word with
      | some value => some (.number value)
      | none => (moment? word).map fun text => .text (String.ofList text)

end Rulebook.Toml
