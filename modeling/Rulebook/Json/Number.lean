import Rulebook.Json.Basic
import Rulebook.Decimal.Numeral

/-!
# Numbers of JSON

A number is an optional minus, digits without a leading zero, an optional fraction and an optional
power of ten. A count is spelled with digits alone. A binary64 value is read from the digits that
fit into 64 bits, later digits counting as zeros, and one multiplication or division by a power of
ten; so a number with many digits may be off the nearest value in the last place, and a number that
is too large is refused.
-/

namespace Rulebook.Json

open Rulebook.Decimal

/-- The parts of a number as they are spelled. -/
structure NumberParts where
  /-- A minus stands in front. -/
  negative : Bool
  /-- The digits before the point. -/
  whole : List Char
  /-- The digits behind the point, if there is one. -/
  fraction : Option (List Char)
  /-- The power of ten, if one is given: a minus sign and digits. -/
  power : Option (Bool × List Char)

/-- The characters that numbers are spelled with. -/
def isNumberChar (c : Char) : Bool :=
  isDigit c || c == '-' || c == '+' || c == '.' || c == 'e' || c == 'E'

/-- The power of ten at the end of a number. -/
def powerParts? : List Char → Option (Option (Bool × List Char))
  | [] => some none
  | c :: rest =>
    if c = 'e' ∨ c = 'E' then
      let (negative, run) := splitSign rest
      if run ≠ [] ∧ run.all isDigit then some (some (negative, run)) else none
    else none

/-- The parts of a number behind its sign. -/
def unsignedParts? (negative : Bool) (text : List Char) : Option NumberParts :=
  let whole := text.takeWhile isDigit
  if whole = [] ∨ (whole.length ≠ 1 ∧ whole.head? = some '0') then none
  else
    match text.dropWhile isDigit with
    | '.' :: rest =>
      let fraction := rest.takeWhile isDigit
      if fraction = [] then none
      else (powerParts? (rest.dropWhile isDigit)).map fun power =>
        ⟨negative, whole, some fraction, power⟩
    | rest => (powerParts? rest).map fun power => ⟨negative, whole, none, power⟩

/-- The parts of a number, if the text is one. -/
def numberParts? : List Char → Option NumberParts
  | '-' :: rest => unsignedParts? true rest
  | text => unsignedParts? false text

/-- Appends digits to a number as long as it stays below `2 ^ 64`: the number and the digits that
are left. -/
def appendDigits (value : Nat) : List Char → Nat × List Char
  | [] => (value, [])
  | c :: rest =>
    if value * 10 + (c.toNat - '0'.toNat) < UInt64.size then
      appendDigits (value * 10 + (c.toNat - '0'.toNat)) rest
    else (value, c :: rest)

/-- A power of ten as a binary64 value. -/
def tenTo (power : Nat) : Float := Float.ofScientific 1 false power

/-- A value times a power of ten, in steps that the range of powers admits. -/
def scaleByTen (value : Float) (power : Int) : Option Float :=
  if 308 < power then (if value == 0.0 then some value else none)
  else if 0 ≤ power then
    let scaled := value * tenTo power.toNat
    if scaled.isInf then none else some scaled
  else if -308 ≤ power then some (value / tenTo (-power).toNat)
  else
    let smaller := value / tenTo 308
    if -616 ≤ power then some (smaller / tenTo (-power - 308).toNat)
    else some (smaller / tenTo 308)

/-- The binary64 value of a number without its sign. -/
def NumberParts.magnitude? (parts : NumberParts) : Option Float :=
  let (significand, dropped) := appendDigits 0 parts.whole
  match parts.fraction, parts.power with
  | none, none =>
    if dropped = [] then some (Float.ofNat significand)
    else scaleByTen (Float.ofNat significand) dropped.length
  | fraction, power =>
    let fraction := fraction.getD []
    let (significand, left) := appendDigits significand fraction
    let start : Int := dropped.length - (fraction.length - left.length)
    match power with
    | none => scaleByTen (Float.ofNat significand) start
    | some (negative, run) =>
      let amount := digits run
      if Int32.maxValue.toInt < amount then
        if significand ≠ 0 ∧ !negative then none else some 0.0
      else
        scaleByTen (Float.ofNat significand) (if negative then start - amount else start + amount)

/-- The binary64 value of a number. -/
def float? : Json → Option Float
  | .number spelling => do
    let parts ← numberParts? spelling.toList
    let value ← parts.magnitude?
    return if parts.negative then -value else value
  | _ => none

/-- A whole number of 64 bits with a sign. A zero with a minus is none. -/
def int64? : Json → Option Int
  | .number spelling => do
    let parts ← numberParts? spelling.toList
    let value : Int := if parts.negative then -(digits parts.whole : Int) else digits parts.whole
    if parts.fraction.isSome ∨ parts.power.isSome ∨ (parts.negative ∧ value = 0) then none
    else if Int64.minValue.toInt ≤ value ∧ value ≤ Int64.maxValue.toInt then some value
    else none
  | _ => none

/-- A number that is spelled with digits alone. -/
def nat? : Json → Option Nat
  | .number spelling => do
    let parts ← numberParts? spelling.toList
    if parts.negative ∨ parts.fraction.isSome ∨ parts.power.isSome then none
    else some (digits parts.whole)
  | _ => none

/-- A count of 32 bits. -/
def uint32? (value : Json) : Option UInt32 :=
  value.nat?.bind fun count => if count < UInt32.size then some count.toUInt32 else none

/-- A count of 64 bits. -/
def uint64? (value : Json) : Option UInt64 :=
  value.nat?.bind fun count => if count < UInt64.size then some count.toUInt64 else none

/-- The value that is a count. -/
def ofNat (count : Nat) : Json := .number (toString count)

end Rulebook.Json
