import Rulebook.Decimal.Numeral

/-!
# The shortest numeral of a number

A binary64 value stands for all real numbers that round to it. Among the grids of the powers of ten
the coarsest one with a point in that interval is taken, and on it the point that is nearest to the
value; of two that are equally near, the upper one. So the numeral has the fewest digits that read
back as the value. It is written without a power of ten.
-/

namespace Rulebook.Decimal

/-- The interval of the real numbers that round to a positive value. The value and the two ends are
numerators over a common denominator. -/
structure Interval where
  /-- The lower end. -/
  low : Nat
  /-- The value. -/
  middle : Nat
  /-- The upper end. -/
  high : Nat
  /-- The common denominator. -/
  scale : Nat
  /-- The ends belong to the interval. -/
  closed : Bool
  deriving Repr, DecidableEq

namespace Interval

/-- The interval of a positive value with the given bits. Half a unit in the last place lies on each
side, but a quarter below a power of two, where the units get smaller. -/
def ofBits (bits : UInt64) : Interval :=
  let field := ((bits >>> 52) &&& 0x7FF).toNat
  let fraction := (bits &&& 0xFFFFFFFFFFFFF).toNat
  let mantissa := if field = 0 then fraction else (1 <<< 52) + fraction
  let power : Int := if field = 0 then -1074 else (field : Int) - 1075
  let below := if fraction = 0 ∧ 1 < field then 1 else 2
  let unit := 1 <<< power.toNat
  { low := (4 * mantissa - below) * unit
    middle := 4 * mantissa * unit
    high := (4 * mantissa + 2) * unit
    scale := 4 <<< (-power).toNat
    closed := mantissa % 2 == 0 }

/-- The number `digits · 10 ^ power` lies in the interval. -/
def contains (interval : Interval) (digits : Nat) (power : Int) : Bool :=
  let point := digits * Nat.pow 10 power.toNat * interval.scale
  let stretch := Nat.pow 10 (-power).toNat
  (decide (interval.low * stretch < point) && decide (point < interval.high * stretch)) ||
    (interval.closed && (point == interval.low * stretch || point == interval.high * stretch))

/-- The digits of the point on the grid of a power of ten that lies in the interval and is nearest
to the value. -/
def onGrid? (interval : Interval) (power : Int) : Option Nat :=
  let value := interval.middle * Nat.pow 10 (-power).toNat
  let step := interval.scale * Nat.pow 10 power.toNat
  let lower := value / step
  let upper := lower + 1
  if interval.contains lower power && (!interval.contains upper power ||
      decide (2 * value < (lower + upper) * step)) then some lower
  else if interval.contains upper power then some upper
  else none

/-- The digits and the power of ten of the shortest numeral. -/
def shortest (interval : Interval) : Nat × Int :=
  let grids : List Int := (List.range 1384).map fun (place : Nat) => 309 - (place : Int)
  (grids.findSome? fun power => (interval.onGrid? power).map fun found => (found, power)).getD
    (0, 0)

end Interval

/-- The numeral of `digits · 10 ^ power` without a power of ten. -/
def positional (digits : Nat) (power : Int) : List Char :=
  let run := Nat.toDigits 10 digits
  if 0 ≤ power then run ++ List.replicate power.toNat '0'
  else
    let places := (-power).toNat
    let padded := List.replicate (places + 1 - run.length) '0' ++ run
    padded.take (padded.length - places) ++ '.' :: padded.drop (padded.length - places)

/-- The shortest numeral of a value that reads back as the value. -/
def text (value : Float) : String :=
  if value.isNaN then "NaN"
  else
    let sign := if value.toBits >>> 63 = 1 then "-" else ""
    if value.isInf then sign ++ "inf"
    else if value == 0.0 then sign ++ "0"
    else
      let (digits, power) := (Interval.ofBits value.toBits).shortest
      sign ++ String.ofList (positional digits power)

end Rulebook.Decimal
