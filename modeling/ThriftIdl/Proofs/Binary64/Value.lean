import Mathlib
import ThriftIdl.Binary64.Arithmetic

/-!
# Values of doubles

The format of a double says what each of its encodings stands for: one bit is the sign, eleven bits
are the exponent, and fifty-two bits are the fraction. `Binary64.datum` reads an encoding in this
way and gives the exact value of a finite number as a rational one.

A significand times a power of two is the same value, and so is a quotient of two natural numbers,
of which one is a power of two. Whether the value is a whole number is then a matter of division.
-/

namespace ThriftIdl

theorem scale_div_scale (exponent : Int) :
    (scale 2 exponent : ℚ) / scale 2 (-exponent) = 2 ^ exponent := by
  have power : ∀ exponent : Int, (scale 2 exponent : ℚ) = 2 ^ exponent.toNat :=
    fun exponent => Nat.cast_pow 2 exponent.toNat
  rw [power, power]
  rcases Int.le_total 0 exponent with positive | negative
  · have noDenominator : (-exponent).toNat = 0 := by omega
    rw [noDenominator, pow_zero, div_one, ← zpow_natCast, Int.toNat_of_nonneg positive]
  · have noNumerator : exponent.toNat = 0 := by omega
    have denominator : ((-exponent).toNat : Int) = -exponent := by omega
    rw [noNumerator, pow_zero, one_div, ← zpow_natCast, denominator, zpow_neg, inv_inv]

theorem scale_pos (exponent : Int) : 0 < scale 2 exponent := Nat.two_pow_pos _

theorem scale_of_nonpos {exponent : Int} (nonpos : exponent ≤ 0) : scale 2 exponent = 1 := by
  rw [scale, Int.toNat_of_nonpos nonpos]

theorem scale_dvd_scale {exponent larger : Int} (le : exponent ≤ larger) :
    scale 2 exponent ∣ scale 2 larger :=
  Nat.pow_dvd_pow 2 (Int.toNat_le_toNat le)

namespace Binary64

/-! ### The format -/

/-- What an encoding stands for. -/
inductive Datum where
  | undefined
  | infinite (negative : Bool)
  | finite (value : ℚ)
  deriving DecidableEq

/-- The sign bit. -/
def signBit (number : Binary64) : Bool := number.bits.toBitVec.msb

/-- The eleven bits of the exponent. -/
def exponentBits (number : Binary64) : BitVec 11 := number.bits.toBitVec.extractLsb' 52 11

/-- The fifty-two bits of the fraction. -/
def fractionBits (number : Binary64) : BitVec 52 := number.bits.toBitVec.extractLsb' 0 52

/-- The fraction, which is less than one. -/
def fraction (number : Binary64) : ℚ := number.fractionBits.toNat / 2 ^ 52

/-- The factor that the sign stands for. -/
def signFactor (number : Binary64) : ℚ := if number.signBit then -1 else 1

/--
What an encoding stands for. The greatest exponent is that of the infinities and of the undefined
numbers; the least one is that of the subnormal numbers, which have no one in front of the fraction.
-/
def datum (number : Binary64) : Datum :=
  if number.exponentBits = 2047 then
    if number.fractionBits = 0 then .infinite number.signBit else .undefined
  else if number.exponentBits = 0 then
    .finite (number.signFactor * 2 ^ (-1022 : Int) * number.fraction)
  else
    .finite (number.signFactor * 2 ^ ((number.exponentBits.toNat : Int) - 1023)
      * (1 + number.fraction))

example : datum ⟨0xC002000000000000⟩ = .finite (-9 / 4) := by decide +kernel

variable (number : Binary64)

/-! ### The fields as numbers -/

theorem signBit_eq : number.signBit = number.negative := BitVec.msb_eq_decide _

theorem toNat_exponentBits : number.exponentBits.toNat = number.exponentField := by
  have inRange := number.bits.toNat_lt
  rw [exponentBits, BitVec.extractLsb'_toNat, UInt64.toNat_toBitVec, Nat.shiftRight_eq_div_pow,
    exponentField, magnitudeBits, exponentWeight, signWeight]
  omega

theorem toNat_fractionBits : number.fractionBits.toNat = number.fractionField := by
  rw [fractionBits, BitVec.extractLsb'_toNat, UInt64.toNat_toBitVec, Nat.shiftRight_zero,
    fractionField, magnitudeBits, exponentWeight, signWeight]
  omega

theorem fractionField_lt : number.fractionField < exponentWeight := Nat.mod_lt _ (by decide)

theorem magnitudeBits_eq :
    number.magnitudeBits = number.exponentField * exponentWeight + number.fractionField :=
  (Nat.div_add_mod' number.magnitudeBits exponentWeight).symm

theorem exponentBits_eq_iff {bits : BitVec 11} :
    number.exponentBits = bits ↔ number.exponentField = bits.toNat := by
  rw [← BitVec.toNat_inj, toNat_exponentBits]

theorem isFinite_iff : number.isFinite = true ↔ number.exponentField ≠ 2047 := bne_iff_ne

theorem significand_lt : number.significand < 2 * exponentWeight := by
  have fraction := number.fractionField_lt
  unfold significand
  split_ifs <;> omega

/-! ### The value of a finite number -/

/-- The value of a finite number without its sign. -/
def magnitude : ℚ := number.significand * 2 ^ number.exponent

/-- The value of a finite number. -/
def value : ℚ := if number.negative then -number.magnitude else number.magnitude

theorem magnitude_eq_div :
    number.magnitude = (number.magnitudeNumerator : ℚ) / number.magnitudeDenominator := by
  rw [magnitude, ← scale_div_scale, magnitudeNumerator, magnitudeDenominator, Nat.cast_mul,
    mul_div_assoc]

theorem magnitude_nonneg : 0 ≤ number.magnitude := by
  rw [magnitude_eq_div]
  positivity

theorem magnitudeDenominator_pos : 0 < number.magnitudeDenominator := scale_pos _

theorem magnitudeDenominator_ne_zero : (number.magnitudeDenominator : ℚ) ≠ 0 :=
  Nat.cast_ne_zero.2 number.magnitudeDenominator_pos.ne'

theorem signFactor_mul (magnitude : ℚ) :
    number.signFactor * magnitude = if number.negative then -magnitude else magnitude := by
  rw [signFactor, signBit_eq, ite_mul, neg_one_mul, one_mul]

/-- A finite encoding stands for its significand times its power of two. -/
theorem datum_of_isFinite (finite : number.isFinite = true) :
    number.datum = .finite number.value := by
  have notGreatest : ¬number.exponentBits = 2047 := by
    rw [exponentBits_eq_iff]
    exact number.isFinite_iff.1 finite
  have least : number.exponentBits = 0 ↔ number.exponentField = 0 := number.exponentBits_eq_iff
  have fraction : number.fraction = (number.fractionField : ℚ) / 2 ^ 52 := by
    rw [Binary64.fraction, toNat_fractionBits]
  have split : ∀ (exponent : Int) (factor : ℚ),
      (2 : ℚ) ^ (exponent + 52) * (factor / 2 ^ 52) = factor * 2 ^ exponent := by
    intro exponent factor
    rw [zpow_add₀ two_ne_zero]
    norm_num
    ring
  rw [datum, if_neg notGreatest, value, ← signFactor_mul, magnitude, significand, exponent]
  simp only [least]
  split_ifs with subnormal
  · rw [fraction, mul_assoc, ← split]
    norm_num
  · have one : 1 + number.fraction =
        ((exponentWeight + number.fractionField : Nat) : ℚ) / 2 ^ 52 := by
      rw [fraction, Nat.cast_add, add_div]
      norm_num [exponentWeight]
    rw [one, mul_assoc, ← split, toNat_exponentBits]
    ring_nf

theorem datum_of_not_isFinite (notFinite : number.isFinite = false) :
    number.datum = .undefined ∨ ∃ negative, number.datum = .infinite negative := by
  have greatest : number.exponentBits = 2047 := by
    rw [exponentBits_eq_iff]
    by_contra other
    exact absurd (number.isFinite_iff.2 other) (by simp [notFinite])
  rw [datum, if_pos greatest]
  split_ifs
  · exact .inr ⟨_, rfl⟩
  · exact .inl rfl

variable {number}

theorem datum_eq_finite_iff {exact : ℚ} :
    number.datum = .finite exact ↔ number.isFinite = true ∧ number.value = exact := by
  cases finite : number.isFinite with
  | true => rw [datum_of_isFinite number finite, Datum.finite.injEq, eq_self, true_and]
  | false =>
      rcases number.datum_of_not_isFinite finite with datum | ⟨negative, datum⟩ <;> simp [datum]

theorem isFinite_eq_false_iff :
    number.isFinite = false ↔
      number.datum = .undefined ∨ ∃ negative, number.datum = .infinite negative := by
  refine ⟨number.datum_of_not_isFinite, fun notFinite => ?_⟩
  by_contra finite
  rw [Bool.not_eq_false] at finite
  rw [number.datum_of_isFinite finite] at notFinite
  simp at notFinite

/-! ### Whole numbers -/

theorem magnitude_eq_natCast_iff {whole : Nat} :
    number.magnitude = whole ↔ number.magnitudeNumerator = whole * number.magnitudeDenominator := by
  rw [magnitude_eq_div, div_eq_iff number.magnitudeDenominator_ne_zero]
  exact_mod_cast Iff.rfl

theorem wholeMagnitude?_eq_some_iff {whole : Nat} :
    number.wholeMagnitude? = some whole ↔ number.magnitude = whole := by
  rw [magnitude_eq_natCast_iff]
  change (if number.magnitudeNumerator % number.magnitudeDenominator = 0 then
    some (number.magnitudeNumerator / number.magnitudeDenominator) else none) = some whole ↔ _
  rw [Option.ite_none_right_eq_some, Option.some_inj]
  constructor
  · rintro ⟨divides, rfl⟩
    exact (Nat.div_mul_cancel (Nat.dvd_of_mod_eq_zero divides)).symm
  · intro whole
    rw [whole]
    exact ⟨Nat.mul_mod_left _ _, Nat.mul_div_cancel _ number.magnitudeDenominator_pos⟩

theorem value_of_magnitude {whole : Nat} (isWhole : number.magnitude = whole) :
    number.value = ((if number.negative then -(whole : Int) else whole : Int) : ℚ) := by
  rw [value, isWhole]
  split_ifs
  · rw [Int.cast_neg, Int.cast_natCast]
  · rw [Int.cast_natCast]

theorem abs_value : |number.value| = number.magnitude := by
  unfold value
  split_ifs
  · rw [abs_neg, abs_of_nonneg number.magnitude_nonneg]
  · exact abs_of_nonneg number.magnitude_nonneg

theorem magnitude_eq_natAbs {whole : Int} (exact : number.value = whole) :
    number.magnitude = whole.natAbs := by
  rw [← abs_value, exact, Nat.cast_natAbs, Int.cast_abs]

theorem toInt?_of_isFinite (finite : number.isFinite = true) :
    number.toInt? = number.wholeMagnitude?.map fun magnitude : Nat =>
      if number.negative then -(magnitude : Int) else magnitude := by
  rw [toInt?, if_pos finite]
  cases number.wholeMagnitude? <;> rfl

/-- The integer of a number is its exact value, if this is a whole number. -/
theorem toInt?_eq_some_iff {whole : Int} :
    number.toInt? = some whole ↔ number.datum = .finite whole := by
  rw [datum_eq_finite_iff]
  cases finite : number.isFinite with
  | false => simp [toInt?, finite]
  | true =>
      rw [toInt?_of_isFinite finite, Option.map_eq_some_iff, eq_self, true_and]
      constructor
      · rintro ⟨magnitude, isWhole, rfl⟩
        exact value_of_magnitude (wholeMagnitude?_eq_some_iff.1 isWhole)
      · intro exact
        have magnitude := magnitude_eq_natAbs exact
        refine ⟨whole.natAbs, wholeMagnitude?_eq_some_iff.2 magnitude, ?_⟩
        exact Rat.intCast_injective ((value_of_magnitude magnitude).symm.trans exact)

/-- The exponent alone tells on which side of a power of two a number is. -/
theorem magnitude_lt_iff {power : Int} (normal : -1021 ≤ power) :
    number.magnitude < 2 ^ power ↔ (number.exponentField : Int) < power + 1023 := by
  have split : (2 : ℚ) ^ power = exponentWeight * 2 ^ (power - 52) := by
    rw [zpow_sub₀ two_ne_zero]
    norm_num [exponentWeight]
    ring
  constructor
  · contrapose!
    intro large
    have isNormal : number.exponentField ≠ 0 := by omega
    have significand : exponentWeight ≤ number.significand := by
      rw [Binary64.significand, if_neg isNormal]
      exact Nat.le_add_right _ _
    have exponent : power - 52 ≤ number.exponent := by
      rw [Binary64.exponent, if_neg isNormal]
      omega
    calc (2 : ℚ) ^ power = exponentWeight * 2 ^ (power - 52) := split
      _ ≤ number.significand * 2 ^ number.exponent := by
        gcongr
        norm_num
  · intro small
    have significand : (number.significand : ℚ) < (2 * exponentWeight : Nat) :=
      Nat.cast_lt.2 number.significand_lt
    have exponent : number.exponent ≤ power - 53 := by
      unfold Binary64.exponent
      split_ifs <;> omega
    calc number.magnitude ≤ number.significand * 2 ^ (power - 53) := by
          unfold magnitude
          gcongr
          norm_num
      _ < (2 * exponentWeight : Nat) * 2 ^ (power - 53) := by gcongr
      _ = 2 ^ power := by
          have next : power - 52 = power - 53 + 1 := by omega
          rw [split, next, zpow_add_one₀ two_ne_zero, Nat.cast_mul]
          ring

end Binary64

end ThriftIdl
