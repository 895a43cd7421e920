import ThriftIdl.Binary64.Rounding

/-!
# Arithmetic without signs

Sums and quotients of doubles that are finite and not negative. The exact result is a quotient of
natural numbers; the double closest to it is the result.
-/

namespace ThriftIdl

namespace Binary64

/-- The numerator of the magnitude of a finite number, over `magnitudeDenominator`. -/
def magnitudeNumerator (number : Binary64) : Nat := number.significand * scale 2 number.exponent

/-- The denominator of the magnitude of a finite number; it is a power of two. -/
def magnitudeDenominator (number : Binary64) : Nat := scale 2 (-number.exponent)

/-- The double closest to a natural number. -/
def ofNat (number : Nat) : Binary64 := ofQuotient false number 1

/-- The double closest to the sum of two magnitudes. -/
def sum (first second : Binary64) : Binary64 :=
  ofQuotient false
    (first.magnitudeNumerator * second.magnitudeDenominator
      + second.magnitudeNumerator * first.magnitudeDenominator)
    (first.magnitudeDenominator * second.magnitudeDenominator)

/-- The double closest to the quotient of a magnitude by one that is not zero. -/
def quotient (dividend divisor : Binary64) : Binary64 :=
  ofQuotient false (dividend.magnitudeNumerator * divisor.magnitudeDenominator)
    (dividend.magnitudeDenominator * divisor.magnitudeNumerator)

/-- Whether one magnitude is at most another: encodings of magnitudes are in their order. -/
def atMost (first second : Binary64) : Bool := first.magnitudeBits ≤ second.magnitudeBits

end Binary64

end ThriftIdl
