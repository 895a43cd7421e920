import ThriftIdl.Proofs.Binary64.Value

/-!
# Rounding toward zero

Whether a number is whole can be told without its exact value. The bits of its fraction that stand
for its fractional part are cleared, which rounds the number toward zero, and what is left is
subtracted from the number. The subtraction rounds, but never to zero: two different numbers differ
by at least the smallest positive number. So the difference is zero exactly if the number is whole.

The conversion to an integer of 64 bits rounds toward zero as well, and clamps what is out of range.
It is exact for a whole number of smaller magnitude than `2 ^ 63`.
-/

namespace ThriftIdl

namespace Binary64

/-! ### Operations -/

/-- The number rounded toward zero: the bits of its fraction below the point are cleared. -/
def truncated (number : Binary64) : Binary64 :=
  ofMagnitudeBits number.negative <|
    if number.exponentField < 1023 then 0
    else number.magnitudeBits - number.magnitudeBits % scale 2 (1075 - number.exponentField)

/-- The numerator of the value of a finite number, over `magnitudeDenominator`. -/
def numerator (number : Binary64) : Int :=
  if number.negative then -(number.magnitudeNumerator : Int) else number.magnitudeNumerator

/-- The numerator of the exact difference of two finite numbers, over both denominators. -/
def differenceNumerator (first second : Binary64) : Int :=
  first.numerator * second.magnitudeDenominator - second.numerator * first.magnitudeDenominator

/-- The double closest to the difference of two finite numbers of the same sign. -/
def difference (first second : Binary64) : Binary64 :=
  let exact := differenceNumerator first second
  ofQuotient (exact < 0) exact.natAbs (first.magnitudeDenominator * second.magnitudeDenominator)

/-- What is left of a finite number without the number rounded toward zero. -/
def fractionalPart (number : Binary64) : Binary64 := number.difference number.truncated

/-- Whether a number equals zero, as both zeros do. -/
def isZero (number : Binary64) : Bool := number.magnitudeBits == 0

/-- `2 ^ 63`, the first number beyond the integers of 64 bits. -/
def int64Bound : Binary64 := ofNat 9223372036854775808

/--
The conversion to an integer of 64 bits. It rounds toward zero and clamps what is out of range;
undefined numbers become zero.
-/
def toInt64 (number : Binary64) : Int64 :=
  if number.isFinite then
    .ofInt (max Int64.minValue.toInt
      (min Int64.maxValue.toInt (number.numerator.tdiv number.magnitudeDenominator)))
  else if number.fractionField != 0 then 0
  else if number.negative then .minValue
  else .maxValue

/-! ### Encodings of magnitudes -/

section Encoding

variable {negative : Bool} {bits : Nat}

theorem toNat_ofMagnitudeBits (inRange : bits < signWeight) :
    (ofMagnitudeBits negative bits).bits.toNat = if negative then signWeight + bits else bits := by
  rw [ofMagnitudeBits, UInt64.toNat_ofNat']
  apply Nat.mod_eq_of_lt
  rw [signWeight] at inRange ⊢
  split_ifs <;> omega

theorem magnitudeBits_ofMagnitudeBits (inRange : bits < signWeight) :
    (ofMagnitudeBits negative bits).magnitudeBits = bits := by
  rw [magnitudeBits, toNat_ofMagnitudeBits inRange]
  split_ifs
  · rw [Nat.add_mod_left, Nat.mod_eq_of_lt inRange]
  · exact Nat.mod_eq_of_lt inRange

theorem negative_ofMagnitudeBits (inRange : bits < signWeight) :
    (ofMagnitudeBits negative bits).negative = negative := by
  rw [Binary64.negative, toNat_ofMagnitudeBits inRange]
  cases negative with
  | true => exact decide_eq_true (Nat.le_add_right _ _)
  | false => exact decide_eq_false (Nat.not_le.2 inRange)

end Encoding

/-! ### The difference -/

theorem le_roundQuotient {numerator denominator : Nat} :
    numerator / denominator ≤ roundQuotient numerator denominator := by
  unfold roundQuotient
  dsimp only
  split_ifs <;> omega

theorem le_roundingExponent (numerator denominator : Nat) :
    -1074 ≤ roundingExponent numerator denominator := by
  unfold roundingExponent firstExponent
  dsimp only
  split_ifs <;> omega

/-- No quotient from the smallest positive number on is rounded to zero. -/
theorem roundedBits_pos {numerator denominator : Nat} (positive : 0 < denominator)
    (large : denominator ≤ numerator * scale 2 1074) : 0 < roundedBits numerator denominator := by
  have exponent := le_roundingExponent numerator denominator
  unfold roundedBits
  dsimp only
  refine Nat.lt_min.2 ⟨by decide, ?_⟩
  rcases exponent.eq_or_lt with least | larger
  · rw [← least]
    have quotient : 0 < numerator * scale 2 1074 / (denominator * scale 2 (-1074)) := by
      have one : scale 2 (-1074) = 1 := rfl
      rw [one, mul_one]
      exact Nat.div_pos large positive
    exact Nat.add_pos_right _ (quotient.trans_le le_roundQuotient)
  · have field : 0 < (roundingExponent numerator denominator + 1074).toNat := by omega
    exact Nat.add_pos_left (Nat.mul_pos field (by decide)) _

theorem isZero_ofQuotient {negative : Bool} {numerator denominator : Nat}
    (positive : 0 < denominator) (large : numerator ≠ 0 → denominator ≤ numerator * scale 2 1074) :
    (ofQuotient negative numerator denominator).isZero = true ↔ numerator = 0 := by
  have inRange : (if numerator = 0 then 0 else roundedBits numerator denominator) < signWeight := by
    split_ifs
    · decide
    · exact (Nat.min_le_left _ _).trans_lt (by decide)
  rw [isZero, beq_iff_eq, ofQuotient, magnitudeBits_ofMagnitudeBits inRange]
  split_ifs with zero
  · exact iff_of_true rfl zero
  · exact iff_of_false (roundedBits_pos positive (large zero)).ne' zero

variable (number first second : Binary64)

theorem magnitudeDenominator_le : number.magnitudeDenominator ≤ scale 2 1074 := by
  refine Nat.le_of_dvd (scale_pos _) (scale_dvd_scale ?_)
  unfold exponent
  split_ifs <;> omega

/-- One of two denominators divides the other, so it divides the numerator of the difference. -/
theorem denominators_le (differ : differenceNumerator first second ≠ 0) :
    first.magnitudeDenominator * second.magnitudeDenominator ≤
      (differenceNumerator first second).natAbs * scale 2 1074 := by
  have le_of_dvd : ∀ divisor : Nat, divisor ∣ first.magnitudeDenominator →
      divisor ∣ second.magnitudeDenominator →
      divisor ≤ (differenceNumerator first second).natAbs := by
    intro divisor divides otherDivides
    refine Nat.le_of_dvd (Int.natAbs_pos.2 differ) (Int.natCast_dvd.1 ?_)
    exact ((Int.natCast_dvd_natCast.2 otherDivides).mul_left _).sub
      ((Int.natCast_dvd_natCast.2 divides).mul_left _)
  rcases le_total (-first.exponent) (-second.exponent) with coarser | finer
  · exact Nat.mul_le_mul (le_of_dvd _ dvd_rfl (scale_dvd_scale coarser))
      second.magnitudeDenominator_le
  · rw [mul_comm]
    exact Nat.mul_le_mul (le_of_dvd _ (scale_dvd_scale finer) dvd_rfl)
      first.magnitudeDenominator_le

theorem value_eq_div : number.value = (number.numerator : ℚ) / number.magnitudeDenominator := by
  rw [value, magnitude_eq_div, numerator]
  split_ifs
  · rw [Int.cast_neg, Int.cast_natCast, neg_div]
  · rw [Int.cast_natCast]

theorem differenceNumerator_eq_zero_iff :
    differenceNumerator first second = 0 ↔ first.value = second.value := by
  rw [value_eq_div, value_eq_div, div_eq_div_iff first.magnitudeDenominator_ne_zero
    second.magnitudeDenominator_ne_zero, differenceNumerator, sub_eq_zero]
  exact_mod_cast Iff.rfl

/-- The rounded difference of two numbers is zero only if they are equal. -/
theorem isZero_difference_iff :
    (difference first second).isZero = true ↔ first.value = second.value := by
  rw [← differenceNumerator_eq_zero_iff, ← Int.natAbs_eq_zero]
  refine isZero_ofQuotient (Nat.mul_pos first.magnitudeDenominator_pos
    second.magnitudeDenominator_pos) fun differ => ?_
  exact denominators_le first second (Int.natAbs_ne_zero.1 differ)

/-! ### Rounding toward zero -/

theorem exponent_of_normal (normal : number.exponentField ≠ 0) :
    number.exponent = (number.exponentField : Int) - 1075 := if_neg normal

theorem magnitudeBits_lt : number.magnitudeBits < signWeight := Nat.mod_lt _ (by decide)

theorem add_sub_mod {unit front rest : Nat} (divides : unit ∣ front) :
    front + rest - (front + rest) % unit = front + (rest - rest % unit) := by
  have same : (front + rest) % unit = rest % unit := by
    rw [Nat.add_mod, Nat.mod_eq_zero_of_dvd divides, Nat.zero_add, Nat.mod_mod]
  rw [same, Nat.add_sub_assoc (Nat.mod_le _ _)]

theorem fields_of_magnitudeBits_eq {number : Binary64} {field fraction : Nat}
    (bits : number.magnitudeBits = field * exponentWeight + fraction)
    (inRange : fraction < exponentWeight) :
    number.exponentField = field ∧ number.fractionField = fraction := by
  rw [exponentField, fractionField, bits, exponentWeight] at *
  omega

section Large

variable {number} (large : 1023 ≤ number.exponentField)

include large

theorem scale_eq_magnitudeDenominator :
    scale 2 (1075 - number.exponentField) = number.magnitudeDenominator := by
  rw [magnitudeDenominator, exponent_of_normal number (by omega), neg_sub]

theorem magnitudeDenominator_dvd : number.magnitudeDenominator ∣ exponentWeight := by
  have weight : exponentWeight = scale 2 52 := rfl
  rw [weight, magnitudeDenominator, exponent_of_normal number (by omega)]
  exact scale_dvd_scale (by omega)

theorem magnitudeBits_truncated : number.truncated.magnitudeBits =
    number.exponentField * exponentWeight
      + (number.fractionField - number.fractionField % number.magnitudeDenominator) := by
  rw [truncated, if_neg (Nat.not_lt.2 large), scale_eq_magnitudeDenominator large,
    magnitudeBits_ofMagnitudeBits ((Nat.sub_le _ _).trans_lt number.magnitudeBits_lt),
    magnitudeBits_eq, add_sub_mod ((magnitudeDenominator_dvd large).mul_left _)]

theorem fields_truncated : number.truncated.exponentField = number.exponentField ∧
    number.truncated.fractionField =
      number.fractionField - number.fractionField % number.magnitudeDenominator :=
  fields_of_magnitudeBits_eq (magnitudeBits_truncated large)
    ((Nat.sub_le _ _).trans_lt number.fractionField_lt)

theorem significand_truncated : number.truncated.significand =
    number.significand - number.significand % number.magnitudeDenominator := by
  obtain ⟨field, fraction⟩ := fields_truncated large
  have normal : number.exponentField ≠ 0 := by omega
  rw [significand, significand, field, if_neg normal, if_neg normal, fraction,
    add_sub_mod (magnitudeDenominator_dvd large)]

theorem exponent_truncated : number.truncated.exponent = number.exponent := by
  rw [exponent, exponent, (fields_truncated large).1]

theorem magnitudeNumerator_truncated : number.truncated.magnitudeNumerator =
    number.magnitudeNumerator / number.magnitudeDenominator * number.magnitudeDenominator := by
  rw [magnitudeNumerator, significand_truncated large, exponent_truncated large,
    magnitudeNumerator]
  -- either there are no bits to clear, or the significand is the numerator
  rcases le_total 0 number.exponent with whole | fractional
  · have one : number.magnitudeDenominator = 1 := scale_of_nonpos (by omega)
    rw [one, Nat.mod_one, Nat.sub_zero, Nat.div_one, mul_one]
  · rw [scale_of_nonpos fractional, mul_one, mul_one, Nat.div_mul_self_eq_mod_sub_self]

end Large

/-- The number rounded toward zero has the whole part of its magnitude. -/
theorem magnitude_truncated : number.truncated.magnitude =
    (number.magnitudeNumerator / number.magnitudeDenominator : Nat) := by
  rw [magnitude_eq_natCast_iff]
  by_cases small : number.exponentField < 1023
  · have below : number.magnitude < 2 ^ (0 : Int) :=
      (magnitude_lt_iff (by decide)).2 (by omega)
    have denominator : (0 : ℚ) < number.magnitudeDenominator :=
      Nat.cast_pos.2 number.magnitudeDenominator_pos
    rw [zpow_zero, magnitude_eq_div, div_lt_one denominator, Nat.cast_lt] at below
    have bits : number.truncated.magnitudeBits = 0 := by
      rw [truncated, if_pos small, magnitudeBits_ofMagnitudeBits (by decide)]
    obtain ⟨field, fraction⟩ : number.truncated.exponentField = 0 ∧
        number.truncated.fractionField = 0 :=
      fields_of_magnitudeBits_eq (by rw [bits, Nat.zero_mul]) (by decide)
    rw [Nat.div_eq_of_lt below, Nat.zero_mul, magnitudeNumerator, significand, if_pos field,
      fraction, Nat.zero_mul]
  · have large := Nat.not_lt.1 small
    have denominator : number.truncated.magnitudeDenominator = number.magnitudeDenominator := by
      rw [magnitudeDenominator, magnitudeDenominator, exponent_truncated large]
    rw [magnitudeNumerator_truncated large, denominator]

theorem negative_truncated : number.truncated.negative = number.negative := by
  apply negative_ofMagnitudeBits
  split_ifs
  · decide
  · exact (Nat.sub_le _ _).trans_lt number.magnitudeBits_lt

theorem isZero_fractionalPart_iff :
    number.fractionalPart.isZero = true ↔ ∃ whole : Int, number.value = whole := by
  rw [fractionalPart, isZero_difference_iff]
  constructor
  · intro same
    exact ⟨_, same.trans (value_of_magnitude number.magnitude_truncated)⟩
  · rintro ⟨whole, exact⟩
    have magnitude := magnitude_eq_natAbs exact
    have quotient : number.magnitudeNumerator / number.magnitudeDenominator = whole.natAbs := by
      rw [magnitude_eq_natCast_iff.1 magnitude]
      exact Nat.mul_div_cancel _ number.magnitudeDenominator_pos
    rw [value, value, negative_truncated, magnitude_truncated, quotient, magnitude]

/-! ### The bound and the conversion -/

theorem atMost_int64Bound_iff : int64Bound.atMost number = true ↔ 2 ^ 63 ≤ number.magnitude := by
  have bound : int64Bound.magnitudeBits = 1086 * exponentWeight := by decide +kernel
  have below := @magnitude_lt_iff number 63 (by decide)
  rw [zpow_ofNat] at below
  have fraction := number.fractionField_lt
  rw [← not_lt, below, atMost, decide_eq_true_eq, bound, magnitudeBits_eq]
  unfold exponentWeight at *
  omega

/-- A whole number is converted to the integer that it is, if this has 64 bits. -/
theorem toInt_toInt64 {number : Binary64} {whole : Int} (finite : number.isFinite = true)
    (exact : number.value = whole) (lower : -2 ^ 63 ≤ whole) (upper : whole < 2 ^ 63) :
    number.toInt64.toInt = whole := by
  have numerator : number.numerator = whole * number.magnitudeDenominator := by
    rw [value_eq_div, div_eq_iff number.magnitudeDenominator_ne_zero] at exact
    exact_mod_cast exact
  have towardZero : number.numerator.tdiv number.magnitudeDenominator = whole := by
    rw [numerator]
    exact Int.mul_tdiv_cancel _ (Int.natCast_ne_zero.2 number.magnitudeDenominator_pos.ne')
  have inRange : max Int64.minValue.toInt (min Int64.maxValue.toInt whole) = whole := by
    have least : Int64.minValue.toInt = -2 ^ 63 := rfl
    have greatest : Int64.maxValue.toInt = 2 ^ 63 - 1 := rfl
    rw [least, greatest]
    omega
  rw [toInt64, if_pos finite, towardZero, inRange, Int64.toInt_ofInt_of_le lower upper]

end Binary64

end ThriftIdl
