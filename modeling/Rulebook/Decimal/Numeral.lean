import Rulebook.Text.Letter

/-!
# Decimal numerals

A numeral is an optional sign followed by `inf`, `infinity` or `nan` in any case, or by digits with
an optional point and an optional power of ten. At least one digit stands on one side of the point.
Digits are the ten of ASCII; separators between digits are not part of a numeral. The number read is
the binary64 value nearest to the numeral, a tie going to the even one, and infinity beyond the
range.
-/

namespace Rulebook.Decimal

/-- The characters `0` to `9`. -/
def isDigit (c : Char) : Bool := decide ('0' ≤ c) && decide (c ≤ '9')

/-- The value of a run of digits after digits of value `start`. -/
def digitsFrom (start : Nat) (digits : List Char) : Nat :=
  digits.foldl (fun value c => value * 10 + (c.toNat - '0'.toNat)) start

/-- The value of a run of digits. -/
def digits (text : List Char) : Nat := digitsFrom 0 text

/-- A sign in front of a numeral is taken off; `true` means minus. -/
def splitSign : List Char → Bool × List Char
  | '-' :: rest => (true, rest)
  | '+' :: rest => (false, rest)
  | text => (false, text)

/-- The power of ten behind a numeral: nothing, or `e` with a whole number. -/
def exponent? : List Char → Option Int
  | [] => some 0
  | c :: rest =>
    if c = 'e' ∨ c = 'E' then
      let (negative, run) := splitSign rest
      if run ≠ [] ∧ run.all isDigit then
        some (if negative then -(digits run : Int) else digits run)
      else none
    else none

/-- The digits before the point, the digits after it, and what follows them. -/
def splitPoint (text : List Char) : List Char × List Char × List Char :=
  match text.dropWhile isDigit with
  | '.' :: rest => (text.takeWhile isDigit, rest.takeWhile isDigit, rest.dropWhile isDigit)
  | rest => (text.takeWhile isDigit, [], rest)

/-- The binary64 value nearest to `mantissa · 10 ^ power`. -/
def scaled (mantissa : Nat) (power : Int) : Float :=
  Float.ofScientific mantissa (decide (power < 0)) power.natAbs

/-- Reads a numeral without sign that is written with digits. -/
def positional? (text : List Char) : Option Float :=
  let (whole, fraction, rest) := splitPoint text
  if whole = [] ∧ fraction = [] then none
  else (exponent? rest).map fun power =>
    scaled (digits (whole ++ fraction)) (power - fraction.length)

/-- Positive infinity. -/
def infinity : Float := 1.0 / 0.0

/-- The value that is no number. -/
def notANumber : Float := 0.0 / 0.0

/-- Reads a numeral without sign. -/
def magnitude? (text : List Char) : Option Float :=
  match Text.lower text with
  | ['i', 'n', 'f'] => some infinity
  | ['i', 'n', 'f', 'i', 'n', 'i', 't', 'y'] => some infinity
  | ['n', 'a', 'n'] => some notANumber
  | _ => positional? text

/-- Reads a numeral; nothing may stand before or behind it. -/
def read? (text : List Char) : Option Float :=
  let (negative, rest) := splitSign text
  (magnitude? rest).map fun value => if negative then -value else value

/-- The whole part of a number as a decimal numeral. Numbers beyond the range of signed 64-bit
integers give the nearest end of the range, and the value that is no number gives zero. -/
def wholePart (value : Float) : String := toString value.toModel.toInt64.toInt

end Rulebook.Decimal
