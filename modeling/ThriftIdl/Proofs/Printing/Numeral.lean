import ThriftIdl.Proofs.Grammar.Integers
import ThriftIdl.Proofs.Printing.Printer

/-!
# Numerals

The decimal numeral of an integer is read back as that integer, both where any number may stand and
where only an integer may: none of the other forms of a number fits digits without a point, an
exponent or the letter of a hexadecimal literal.
-/

namespace ThriftIdl

open Rule

namespace Numeral

theorem utf8EncodeChar_digit : ∀ digit < 10,
    String.utf8EncodeChar (Char.ofNat (48 + digit)) = [UInt8.ofNat (48 + digit)] ∧
      Byte.isDigit (UInt8.ofNat (48 + digit)) = true ∧
        Byte.digitValue (UInt8.ofNat (48 + digit)) = digit := by
  decide

theorem value_append_singleton (base : Nat) (front : List UInt8) (byte : UInt8) :
    value base (front ++ [byte]) = value base front * base + Byte.digitValue byte := by
  simp [value]

/-- The digits of a number stand for it. -/
theorem isNumeral_digits (number : Nat) :
    IsNumeral number ((digits number).flatMap String.utf8EncodeChar) := by
  fun_induction digits number with
  | case1 number small =>
      rcases utf8EncodeChar_digit number small with ⟨encoded, isDigit, value⟩
      simp only [List.flatMap_cons, List.flatMap_nil, List.append_nil, encoded]
      exact ⟨List.cons_ne_nil _ _, by simpa using isDigit, by simpa [Numeral.value] using value⟩
  | case2 number notSmall ih =>
      rcases utf8EncodeChar_digit (number % 10) (Nat.mod_lt number (by decide)) with
        ⟨encoded, isDigit, value⟩
      simp only [List.flatMap_append, List.flatMap_cons, List.flatMap_nil, List.append_nil, encoded]
      refine ⟨by simp, fun byte mem => ?_, ?_⟩
      · rcases List.mem_append.1 mem with earlier | last
        · exact ih.areDigits byte earlier
        · rwa [List.mem_singleton.1 last]
      · rw [value_append_singleton, ih.value, value]
        omega

theorem isNumeral_ofNat (number : Nat) : IsNumeral number (Utf8.encode (ofNat number)) := by
  simpa [ofNat, Utf8.encode] using isNumeral_digits number

/-- An integer is written as its magnitude, with a minus sign in front if it is negative. -/
theorem encode_ofInt (number : Int) :
    ∃ digits, IsNumeral number.natAbs digits ∧
      (0 ≤ number ∧ Utf8.encode (ofInt number) = digits ∨
        number < 0 ∧ Utf8.encode (ofInt number) = Byte.minus :: digits) := by
  refine ⟨_, isNumeral_ofNat number.natAbs, ?_⟩
  unfold ofInt
  split_ifs with negative
  · exact .inr ⟨negative, by rw [Utf8.encode_append]; rfl⟩
  · exact .inl ⟨Int.not_lt.1 negative, rfl⟩

end Numeral

/-- Whether bytes are the decimal numeral of an integer, with its sign if it is negative. -/
def Denotes (number : Int64) (bytes : List UInt8) : Prop :=
  ∃ digits, IsNumeral number.toInt.natAbs digits ∧
    (0 ≤ number.toInt ∧ bytes = digits ∨ number.toInt < 0 ∧ bytes = Byte.minus :: digits)

namespace Denotes

variable {number : Int64} {bytes tail : List UInt8}

theorem spellsDecimal (denotes : Denotes number bytes) : SpellsDecimal number.toInt bytes := by
  rcases denotes with ⟨digits, numeral, ⟨positive, rfl⟩ | ⟨negative, rfl⟩⟩
  · rw [← Int.natAbs_of_nonneg positive]
    exact .plain numeral
  · have magnitude : number.toInt = -(number.toInt.natAbs : Int) := by omega
    rw [magnitude]
    exact .minus numeral

/-- No gap begins with a numeral. -/
theorem rest_append (denotes : Denotes number bytes) (tail : List UInt8) :
    Gap.rest (bytes ++ tail) = bytes ++ tail :=
  denotes.spellsDecimal.rest_append tail

theorem int64?_eq (denotes : Denotes number bytes) : Lexeme.int64? bytes = some number := by
  have range : Int64.minValue.toInt ≤ number.toInt ∧ number.toInt ≤ Int64.maxValue.toInt :=
    ⟨Int64.le_toInt number, Int64.toInt_le number⟩
  rw [denotes.spellsDecimal.int64?_eq, if_pos range, Int64.ofInt_toInt]

/-- A numeral is read as a number. -/
theorem read_number (denotes : Denotes number bytes) (stops : Stops Byte.isIdentifier tail) :
    Grammar.number.read (bytes ++ tail) = some (.int number, Gap.rest tail) := by
  apply denotes.spellsDecimal.read_number _ stops
  rw [denotes.int64?_eq]
  rfl

/-- A numeral is read as an integer. -/
theorem read_integer (denotes : Denotes number bytes) (stops : Stops Byte.isIdentifier tail) :
    Grammar.integer.read (bytes ++ tail) = some (number, Gap.rest tail) :=
  denotes.spellsDecimal.read_integer denotes.int64?_eq stops

end Denotes

theorem denotes_integer (number : Int64) : Denotes number (Utf8.encode (Print.integer number)) :=
  Numeral.encode_ofInt number.toInt

end ThriftIdl
