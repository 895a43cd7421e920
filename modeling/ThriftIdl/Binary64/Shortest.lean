import ThriftIdl.Binary64.Basic

/-!
# Shortest decimals

Every double is the closest one to a whole interval of real numbers. Its shortest decimal is the
multiple of the greatest power of ten that has a multiple in this interval; of two such multiples it
is the closer one, and the even one if both are equally close.
-/

namespace ThriftIdl

/-- A decimal number `digits * 10 ^ exponent`. -/
structure Decimal where
  digits : Nat
  exponent : Int
  deriving DecidableEq, Repr

namespace Binary64

/--
The magnitude of a number and the interval of the reals that round to it, all three as numerators
over one denominator. The ends belong to the interval if the significand is even.
-/
structure Interval where
  lower : Nat
  middle : Nat
  upper : Nat
  denominator : Nat
  closed : Bool

/--
The interval of a positive number. The next double below a power of two is half as far away as the
next one above.
-/
def interval (number : Binary64) : Interval :=
  let atPowerOfTwo := number.fractionField = 0 && 1 < number.exponentField
  let exponent := number.exponent - 2
  let factor := scale 2 exponent
  { lower := (4 * number.significand - if atPowerOfTwo then 1 else 2) * factor
    middle := 4 * number.significand * factor
    upper := (4 * number.significand + 2) * factor
    denominator := scale 2 (-exponent)
    closed := number.significand % 2 = 0 }

namespace Interval

/-- The interval stretched so that the multiples of a power of ten become those of a number. -/
def stretch (interval : Interval) (power : Int) : Interval :=
  let factor := scale 10 (-power)
  { interval with
    lower := interval.lower * factor
    middle := interval.middle * factor
    upper := interval.upper * factor
    denominator := interval.denominator * scale 10 power }

/-- Whether a whole number lies in the interval. -/
def contains (interval : Interval) (whole : Nat) : Bool :=
  let numerator := whole * interval.denominator
  (interval.lower < numerator && numerator < interval.upper)
    || (interval.closed && (numerator = interval.lower || numerator = interval.upper))

/-- The whole number of the interval closest to its middle, if it holds one. -/
def closest? (interval : Interval) : Option Nat :=
  let below := interval.middle / interval.denominator
  let excess := interval.middle % interval.denominator
  match interval.contains below, interval.contains (below + 1) with
  | false, false => none
  | true, false => some below
  | false, true => some (below + 1)
  | true, true =>
    if 2 * excess < interval.denominator then some below
    else if interval.denominator < 2 * excess then some (below + 1)
    else some (if below % 2 = 0 then below else below + 1)

/-- The decimal in an interval with the greatest power of ten, among so many from the given one. -/
def coarsest (interval : Interval) : Nat → Int → Decimal
  | 0, power => ⟨0, power⟩
  | attempts + 1, power =>
    match (interval.stretch power).closest? with
    | some digits => ⟨digits, power⟩
    | none => interval.coarsest attempts (power - 1)

end Interval

/--
The shortest decimal of a finite nonzero number without its sign. No double exceeds `10 ^ 309`, and
`10 ^ (-342)` is finer than the interval of any double.
-/
def shortest (number : Binary64) : Decimal := number.interval.coarsest 652 309

end Binary64

end ThriftIdl
