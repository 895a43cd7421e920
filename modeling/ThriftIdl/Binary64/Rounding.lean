import ThriftIdl.Binary64.Basic

/-!
# Rounding to binary floating point

The double closest to a quotient of natural numbers. A quotient halfway between two doubles goes to
the one with the even significand; one beyond the largest double becomes infinite.
-/

namespace ThriftIdl

/-- A quotient of natural numbers, to the nearest integer, and to the even one of two nearest. -/
def roundQuotient (numerator denominator : Nat) : Nat :=
  let quotient := numerator / denominator
  let remainder := numerator % denominator
  if 2 * remainder > denominator then quotient + 1
  else if 2 * remainder = denominator && quotient % 2 = 1 then quotient + 1
  else quotient

namespace Binary64

/-- The encoding of infinity. -/
def infinityBits : Nat := 2047 * exponentWeight

/-- An exponent that leaves the quotient 53 or 54 binary digits, or fewer if it is subnormal. -/
def firstExponent (numerator denominator : Nat) : Int :=
  max (-1074) ((numerator.log2 : Int) - denominator.log2 - 53)

/-- The denominator of a quotient over a power of two; a negative exponent leaves it as it is. -/
def scaledDenominator (denominator : Nat) (exponent : Int) : Nat := denominator * scale 2 exponent

/-- The numerator of a quotient over a power of two; a positive exponent leaves it as it is. -/
def scaledNumerator (numerator : Nat) (exponent : Int) : Nat := numerator * scale 2 (-exponent)

/-- The exponent for which the scaled quotient lies below `2 ^ 53`. -/
def roundingExponent (numerator denominator : Nat) : Int :=
  let exponent := firstExponent numerator denominator
  if 2 * exponentWeight * scaledDenominator denominator exponent
      ≤ scaledNumerator numerator exponent then exponent + 1
  else exponent

/--
The encoding of the double closest to a positive quotient. The significand and the exponent share
one number: a significand that rounds up to `2 ^ 53` carries into the exponent field.
-/
def roundedBits (numerator denominator : Nat) : Nat :=
  let exponent := roundingExponent numerator denominator
  let significand := roundQuotient (scaledNumerator numerator exponent)
    (scaledDenominator denominator exponent)
  min infinityBits ((exponent + 1074).toNat * exponentWeight + significand)

/-- The double closest to a quotient with the given sign. -/
def ofQuotient (negative : Bool) (numerator denominator : Nat) : Binary64 :=
  ofMagnitudeBits negative
    (if numerator = 0 then 0 else roundedBits numerator denominator)

/-- The double closest to an integer. -/
def ofInt (number : Int) : Binary64 := ofQuotient (number < 0) number.natAbs 1

/--
The double closest to `digits * 10 ^ exponent`, where `count` is the number of digits. Values far
outside the range are decided by their order of magnitude alone, so huge exponents cost nothing.
-/
def ofDecimal (negative : Bool) (digits count : Nat) (exponent : Int) : Binary64 :=
  if digits = 0 then ofMagnitudeBits negative 0
  else if 310 < exponent then ofMagnitudeBits negative infinityBits
  else if exponent + count < -330 then ofMagnitudeBits negative 0
  else ofQuotient negative (digits * scale 10 exponent) (scale 10 (-exponent))

end Binary64

end ThriftIdl
