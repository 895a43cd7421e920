import ThriftIdl.Json.OfDocument
import ThriftIdl.Proofs.Binary64.Truncation
import ThriftIdl.Proofs.Json.Compact

/-!
# Doubles in JSON

A whole double of smaller magnitude than `2 ^ 63` is written like the integer that it is: its text
is the decimal numeral of its exact value, without a fraction, an exponent or rounding. Every other
finite double has a text with a decimal point or an exponent, and only infinities and undefined
numbers are written as null. So the text alone tells these three cases apart.

Whole numbers can be told by their exact values or by floating-point arithmetic: by a comparison of
the fractional part with zero and of the magnitude with the bound, and then a conversion to an
integer. The JSON form is the same.
-/

namespace ThriftIdl

/-! ### Numerals of integers -/

namespace Numeral

theorem digits_eq_toDigits (number : Nat) : digits number = Nat.toDigits 10 number := by
  have digit : ∀ number < 10, Char.ofNat (48 + number) = Nat.digitChar number := by decide
  fun_induction digits number with
  | case1 number small => rw [Nat.toDigits_of_lt_base small, digit number small]
  | case2 number large ih =>
      rw [Nat.toDigits_of_base_le (by decide) (Nat.not_lt.1 large), ih,
        digit _ (Nat.mod_lt _ (by decide))]

theorem ofInt_eq_toString (number : Int) : ofInt number = toString number := by
  have ofNat_eq : ∀ number : Nat, ofNat number = number.repr :=
    fun number => congrArg String.ofList (digits_eq_toDigits number)
  cases number with
  | ofNat number => exact ofNat_eq number
  | negSucc number =>
      rw [ofInt, if_pos (Int.negSucc_lt_zero number)]
      exact congrArg ("-" ++ ·) (ofNat_eq (number + 1))

end Numeral

/-! ### Numerals of other numbers -/

namespace Json

/-- Whether a text has a decimal point or the letter of an exponent. -/
def HasMark (text : String) : Prop := '.' ∈ text.toList ∨ 'e' ∈ text.toList

theorem hasMark_append {first second : String} :
    HasMark (first ++ second) ↔ HasMark first ∨ HasMark second := by
  simp only [HasMark, String.toList_append, List.mem_append]
  exact or_or_or_comm

theorem hasMark_positional (digits : List Char) (exponent : Int) :
    HasMark (positional digits exponent) := by
  unfold positional
  dsimp only
  split_ifs
  · exact hasMark_append.2 (.inr (.inl (by decide)))
  · exact hasMark_append.2 (.inl (hasMark_append.2 (.inr (.inl (by decide)))))
  · exact hasMark_append.2 (.inl (.inl (by decide)))

theorem hasMark_decimal (number : Decimal) (large : Bool) : HasMark (decimal number large) := by
  unfold decimal
  dsimp only
  split_ifs
  · exact hasMark_append.2 (.inl (hasMark_append.2 (.inr (.inr (by decide)))))
  · exact hasMark_append.2 (.inl (hasMark_append.2 (.inr (.inr (by decide)))))
  · exact hasMark_positional _ _

/-- The numeral of a finite double has a decimal point or an exponent. -/
theorem hasMark_numeral {number : Binary64} (finite : number.isFinite = true) :
    HasMark (numeral number) := by
  have notInfinite : ¬(!number.isFinite) = true := by simp [finite]
  rw [numeral, if_neg notInfinite]
  by_cases zero : number.significand = 0
  · rw [if_pos zero]
    split_ifs
    · exact .inl (by decide)
    · exact .inl (by decide)
  · rw [if_neg zero]
    exact hasMark_append.2 (.inr (hasMark_decimal _ _))

theorem not_hasMark_ofInt (number : Int) : ¬HasMark (Numeral.ofInt number) := by
  have notDigit : ∀ mark : Char, mark.isDigit = false → mark ≠ '-' →
      mark ∉ (Numeral.ofInt number).toList := by
    intro mark notDigit notMinus mem
    have noDigits : mark ∉ Numeral.digits number.natAbs := by
      intro mem
      rw [isDigit_of_mem_digits mem] at notDigit
      cases notDigit
    rw [toList_ofInt] at mem
    split_ifs at mem
    · exact noDigits (List.mem_of_ne_of_mem notMinus mem)
    · exact noDigits mem
  rintro (point | letter)
  · exact notDigit '.' rfl (by decide) point
  · exact notDigit 'e' rfl (by decide) letter

end Json

/-! ### The JSON form of a double -/

namespace Binary64

/--
The JSON form of a number by floating-point arithmetic: an integer if the number is finite, its
fractional part is zero and its magnitude is below `2 ^ 63`.
-/
def toJsonByTruncation (number : Binary64) : Json :=
  if number.isFinite && number.fractionalPart.isZero && !int64Bound.atMost number then
    .int number.toInt64.toInt
  else if number.isFinite then .real number
  else .null

/-- Whether a number is a whole one with a magnitude below `2 ^ 63`. -/
def IsShortInteger (number : Binary64) : Prop :=
  ∃ whole : Int, number.datum = .finite whole ∧ |whole| < 2 ^ 63

/-- The three forms of a double in JSON, and when it has which. -/
inductive JsonForm (number : Binary64) : Json → Prop where
  | null (notFinite : number.isFinite = false) : JsonForm number .null
  | int {whole : Int} (exact : number.datum = .finite whole) (inRange : |whole| < 2 ^ 63) :
      JsonForm number (.int whole)
  | real (finite : number.isFinite = true) (other : ¬number.IsShortInteger) :
      JsonForm number (.real number)

variable {number : Binary64}

theorem toJson_of_not_isFinite (notFinite : number.isFinite = false) : number.toJson = .null := by
  rw [toJson, notFinite]
  rfl

theorem natAbs_lt_signWeight_iff {whole : Int} : whole.natAbs < signWeight ↔ |whole| < 2 ^ 63 := by
  rw [Int.abs_eq_natAbs, signWeight]
  omega

theorem toJson_of_whole {whole : Int} (exact : number.datum = .finite whole)
    (inRange : |whole| < 2 ^ 63) : number.toJson = .int whole := by
  have notInfinite : ¬(!number.isFinite) = true := by simp [(datum_eq_finite_iff.1 exact).1]
  rw [toJson, if_neg notInfinite, toInt?_eq_some_iff.2 exact]
  exact if_pos (natAbs_lt_signWeight_iff.2 inRange)

theorem toJson_of_not_whole (finite : number.isFinite = true)
    (other : ¬number.IsShortInteger) : number.toJson = .real number := by
  have notInfinite : ¬(!number.isFinite) = true := by simp [finite]
  rw [toJson, if_neg notInfinite]
  cases isWhole : number.toInt? with
  | none => rfl
  | some whole =>
      refine if_neg fun inRange => other ⟨whole, toInt?_eq_some_iff.1 isWhole, ?_⟩
      exact natAbs_lt_signWeight_iff.1 inRange

theorem jsonForm_toJson (number : Binary64) : number.JsonForm number.toJson := by
  cases finite : number.isFinite with
  | false =>
      rw [toJson_of_not_isFinite finite]
      exact .null finite
  | true =>
      by_cases isWhole : number.IsShortInteger
      · rcases isWhole with ⟨whole, exact, inRange⟩
        rw [toJson_of_whole exact inRange]
        exact .int exact inRange
      · rw [toJson_of_not_whole finite isWhole]
        exact .real finite isWhole

theorem toJson_eq_null_iff : number.toJson = .null ↔ number.isFinite = false := by
  refine ⟨fun isNull => ?_, toJson_of_not_isFinite⟩
  have form := number.jsonForm_toJson
  rw [isNull] at form
  cases form with
  | null notFinite => exact notFinite

theorem toJson_eq_int_iff {whole : Int} :
    number.toJson = .int whole ↔ number.datum = .finite whole ∧ |whole| < 2 ^ 63 := by
  refine ⟨fun isInt => ?_, fun ⟨exact, inRange⟩ => toJson_of_whole exact inRange⟩
  have form := number.jsonForm_toJson
  rw [isInt] at form
  cases form with
  | int exact inRange => exact ⟨exact, inRange⟩

/-! ### Floating-point arithmetic -/

theorem passes_iff (finite : number.isFinite = true) :
    (number.fractionalPart.isZero && !int64Bound.atMost number) = true ↔
      number.IsShortInteger := by
  rw [Bool.and_eq_true, isZero_fractionalPart_iff, Bool.not_eq_true', ← Bool.not_eq_true,
    atMost_int64Bound_iff, not_le, ← exists_and_right]
  refine exists_congr fun whole => ?_
  rw [datum_eq_finite_iff, finite, eq_self, true_and]
  refine and_congr_right fun exact => ?_
  rw [← abs_value, exact]
  exact_mod_cast Iff.rfl

theorem toJsonByTruncation_eq (number : Binary64) : number.toJsonByTruncation = number.toJson := by
  unfold toJsonByTruncation
  cases finite : number.isFinite with
  | false => exact (toJson_of_not_isFinite finite).symm
  | true =>
      rw [Bool.true_and]
      by_cases isWhole : number.IsShortInteger
      · rw [if_pos ((passes_iff finite).2 isWhole)]
        rcases isWhole with ⟨whole, exact, inRange⟩
        rcases abs_lt.1 inRange with ⟨lower, upper⟩
        rw [toJson_of_whole exact inRange,
          toInt_toInt64 finite (datum_eq_finite_iff.1 exact).2 lower.le upper]
      · rw [if_neg (mt (passes_iff finite).1 isWhole), if_pos rfl,
          toJson_of_not_whole finite isWhole]

/-! ### Texts -/

/-- A text without a point and without an exponent tells which JSON value a double is. -/
theorem compact_toJson_eq_iff {json : Json} (exact : json.Exact)
    (noMark : ¬Json.HasMark json.compact) :
    number.toJson.compact = json.compact ↔ number.toJson = json := by
  refine ⟨fun same => ?_, congrArg Json.compact⟩
  have form := number.jsonForm_toJson
  generalize number.toJson = written at form same ⊢
  cases form with
  | null => exact Json.Exact.null.compact_inj exact same
  | int => exact (Json.Exact.int _).compact_inj exact same
  | real finite =>
      rw [Json.compact] at same
      exact absurd (Json.hasMark_numeral finite) (same ▸ noMark)

theorem pretty_toJson (number : Binary64) : number.toJson.pretty = number.toJson.compact := by
  have form := number.jsonForm_toJson
  generalize number.toJson = written at form ⊢
  cases form with
  | null => rfl
  | int => rfl
  | real => rfl

end Binary64

/--
The text of a double is null exactly if the double is infinite or undefined. It is the decimal
numeral of an integer exactly if this integer is the value of the double and its magnitude is below
`2 ^ 63`, and so it is the text of an integer that has the same value. The layout makes no
difference, and neither does it if whole numbers are told by floating-point arithmetic.
-/
theorem Value.doubles_exact (number : Binary64) :
    let json := (Value.double number).toJson
    json = number.toJsonByTruncation ∧ json.pretty = json.compact ∧
      (json.compact = "null" ↔
        number.datum = .undefined ∨ ∃ negative, number.datum = .infinite negative) ∧
      (∀ whole : Int, json.compact = toString whole ↔
        number.datum = .finite whole ∧ |whole| < 2 ^ 63) ∧
      ∀ integer : Int64, json.compact = (Value.int integer).toJson.compact ↔
        number.datum = .finite integer.toInt ∧ |integer.toInt| < 2 ^ 63 := by
  intro json
  have isInt : ∀ whole : Int, json.compact = (Json.int whole).compact ↔
      number.datum = .finite whole ∧ |whole| < 2 ^ 63 := by
    intro whole
    have noMark : ¬Json.HasMark (Json.int whole).compact := Json.not_hasMark_ofInt whole
    exact (Binary64.compact_toJson_eq_iff (.int whole) noMark).trans Binary64.toJson_eq_int_iff
  refine ⟨number.toJsonByTruncation_eq.symm, number.pretty_toJson, ?_, fun whole => ?_,
    fun integer => isInt integer.toInt⟩
  · have noMark : ¬Json.HasMark Json.null.compact := by simp [Json.HasMark, Json.compact]
    rw [← Binary64.isFinite_eq_false_iff, ← Binary64.toJson_eq_null_iff]
    exact Binary64.compact_toJson_eq_iff .null noMark
  · rw [← Numeral.ofInt_eq_toString]
    exact isInt whole

/-- Negative zero, and the least double above `-2 ^ 63`. -/
example : (Value.double ⟨0x8000000000000000⟩).toJson.compact = "0" ∧
    (Value.double ⟨0xC3DFFFFFFFFFFFFF⟩).toJson.compact = "-9223372036854774784" := by
  decide +kernel

end ThriftIdl
