import ThriftIdl.Proofs.Grammar.Lexical
import ThriftIdl.Proofs.Grammar.Words

/-!
# Literals of integers

An integer is written in decimal digits behind an optional sign of either kind, or in hexadecimal
digits behind an optional minus sign, a zero and a letter. This module says what each form of a
number makes of such literals.

The forms differ in how they treat the byte behind the digits that they take. A decimal integer must
not be followed by the letter of a hexadecimal literal, but a number in plain notation may be: where
a hexadecimal literal has too many bits, its zero is a number of its own.
-/

namespace ThriftIdl

open Rule

/-- Whether bytes are digits that stand for a number in base ten. -/
structure IsNumeral (magnitude : Nat) (digits : List UInt8) : Prop where
  notEmpty : digits ≠ []
  areDigits : ∀ byte ∈ digits, Byte.isDigit byte = true
  value : Numeral.value 10 digits = magnitude

namespace IsNumeral

variable {magnitude : Nat} {digits tail : List UInt8}

theorem exists_cons (numeral : IsNumeral magnitude digits) :
    ∃ first others, digits = first :: others ∧ Byte.isDigit first = true := by
  rcases List.exists_cons_of_ne_nil numeral.notEmpty with ⟨first, others, rfl⟩
  exact ⟨first, others, rfl, numeral.areDigits first (by simp)⟩

theorem takeWhile_eq (numeral : IsNumeral magnitude digits) {accepts : UInt8 → Bool}
    (digit : ∀ byte, Byte.isDigit byte = true → accepts byte = true) :
    digits.takeWhile accepts = digits :=
  List.takeWhile_eq_self_iff.2 fun byte mem => digit byte (numeral.areDigits byte mem)

theorem dropWhile_eq (numeral : IsNumeral magnitude digits) {accepts : UInt8 → Bool}
    (digit : ∀ byte, Byte.isDigit byte = true → accepts byte = true) :
    digits.dropWhile accepts = [] :=
  List.dropWhile_eq_nil_iff.2 fun byte mem => digit byte (numeral.areDigits byte mem)

/-- No sign stands in front of a digit. -/
theorem signLength_eq (numeral : IsNumeral magnitude digits) (isSign : UInt8 → Bool)
    (notDigit : ∀ byte, Byte.isDigit byte = true → isSign byte = false) :
    Lexeme.signLength isSign digits = 0 := by
  rcases numeral.exists_cons with ⟨first, others, rfl, isDigit⟩
  simp [Lexeme.signLength, notDigit first isDigit]

theorem opensHexadecimal_append (numeral : IsNumeral magnitude digits)
    (stops : Stops Byte.isHexMark tail) : Lexeme.opensHexadecimal (digits ++ tail) = false := by
  rcases numeral.exists_cons with ⟨first, others, rfl, -⟩
  have noMark : (others ++ tail).head?.any Byte.isHexMark = false := by
    rw [stops.any_head?_append]
    cases others with
    | nil => rfl
    | cons second rest =>
        have isDigit := numeral.areDigits second (by simp)
        grind [Byte.isDigit, Byte.isHexMark]
  rw [Lexeme.opensHexadecimal, List.cons_append, List.drop_one, List.tail_cons, noMark,
    Bool.and_false]

theorem dot_not_mem (numeral : IsNumeral magnitude digits) : Byte.dot ∉ digits := fun mem =>
  absurd (numeral.areDigits _ mem) (by decide)

theorem any_isDigit (numeral : IsNumeral magnitude digits) :
    digits.any Byte.isDigit = true := by
  rcases numeral.exists_cons with ⟨first, others, rfl, isDigit⟩
  simp [isDigit]

/-- Digits are the mantissa of a decimal literal that has no point. -/
theorem mantissa?_eq (numeral : IsNumeral magnitude digits) :
    Binary64.mantissa? digits = some (digits, 0) := by
  simp [Binary64.mantissa?, numeral.takeWhile_eq, numeral.dropWhile_eq, numeral.notEmpty]

end IsNumeral

/--
Whether bytes neither go on with the digits of an integer in front of them, nor turn this integer
into a part of another number.
-/
structure EndsNumber (bytes : List UInt8) : Prop where
  digit : Stops Byte.isDigit bytes
  other : Stops Lexeme.continuesNumber bytes

namespace EndsNumber

variable {bytes : List UInt8}

theorem of_stops (stops : Stops Byte.isIdentifier bytes) : EndsNumber bytes := by
  refine ⟨stops.mono fun _ => Byte.isIdentifier_of_isDigit, stops.mono fun byte continued => ?_⟩
  grind [Lexeme.continuesNumber, Byte.isExponentMark, Byte.isHexMark, Byte.isIdentifier,
    Byte.isLetter]

theorem numeral (ends : EndsNumber bytes) : Stops Byte.isNumeral bytes := by
  rcases ends with ⟨digit, other⟩
  cases bytes with
  | nil => exact stops_nil _
  | cons byte tail =>
      rw [stops_cons] at digit other ⊢
      grind [Lexeme.continuesNumber, Byte.isNumeral]

theorem hexMark (ends : EndsNumber bytes) : Stops Byte.isHexMark bytes :=
  ends.other.mono fun byte mark => by simp [Lexeme.continuesNumber, mark]

theorem exponentMark (ends : EndsNumber bytes) : Stops Byte.isExponentMark bytes :=
  ends.other.mono fun byte mark => by simp [Lexeme.continuesNumber, mark]

end EndsNumber

/-! ### Decimal literals -/

/-- Whether bytes are the decimal literal of an integer: digits behind an optional sign. -/
inductive SpellsDecimal : Int → List UInt8 → Prop where
  | plain {magnitude : Nat} {digits : List UInt8} (numeral : IsNumeral magnitude digits) :
      SpellsDecimal magnitude digits
  | plus {magnitude : Nat} {digits : List UInt8} (numeral : IsNumeral magnitude digits) :
      SpellsDecimal magnitude (Byte.plus :: digits)
  | minus {magnitude : Nat} {digits : List UInt8} (numeral : IsNumeral magnitude digits) :
      SpellsDecimal (-magnitude) (Byte.minus :: digits)

namespace SpellsDecimal

variable {integer : Int} {bytes tail : List UInt8}

/-- No gap begins with a decimal literal. -/
theorem rest_append (spells : SpellsDecimal integer bytes) (tail : List UInt8) :
    Gap.rest (bytes ++ tail) = bytes ++ tail := by
  cases spells with
  | plain numeral =>
      rcases numeral.exists_cons with ⟨first, others, rfl, isDigit⟩
      have letter := Byte.isScope_of_isIdentifier (Byte.isIdentifier_of_isDigit isDigit)
      exact Gap.rest_barrier (Byte.isBarrier_of_isScope letter) _
  | plus numeral => exact Gap.rest_barrier rfl _
  | minus numeral => exact Gap.rest_barrier rfl _

/-- The digits behind the sign stand for the integer. -/
theorem int64?_eq (spells : SpellsDecimal integer bytes) :
    Lexeme.int64? bytes = if Int64.minValue.toInt ≤ integer ∧ integer ≤ Int64.maxValue.toInt then
      some (Int64.ofInt integer) else none := by
  have value : (if bytes.head? = some Byte.minus then
      -(Numeral.value 10 (bytes.drop (Lexeme.signLength Byte.isSign bytes)) : Int)
        else Numeral.value 10 (bytes.drop (Lexeme.signLength Byte.isSign bytes))) = integer := by
    cases spells with
    | plain numeral =>
        have noSign := numeral.signLength_eq Byte.isSign (by grind [Byte.isDigit, Byte.isSign])
        have notMinus : bytes.head? ≠ some Byte.minus := by
          rcases numeral.exists_cons with ⟨first, others, rfl, isDigit⟩
          rintro ⟨⟩
          exact absurd isDigit (by decide)
        rw [if_neg notMinus, noSign, List.drop_zero, numeral.value]
    | plus numeral => exact congrArg Nat.cast numeral.value
    | minus numeral => exact congrArg (fun magnitude : Nat => -(magnitude : Int)) numeral.value
  simp only [Lexeme.int64?, value]

/-- A decimal literal is the text of a double. -/
theorem exists_ofLiteral?_eq (spells : SpellsDecimal integer bytes) :
    ∃ double, Binary64.ofLiteral? bytes = some double := by
  have digit : ∀ byte, Byte.isDigit byte = true → (!Byte.isExponentMark byte) = true := by
    grind [Byte.isDigit, Byte.isExponentMark]
  cases spells with
  | plain numeral =>
      have unsigned : bytes.head?.any Byte.isSign = false := by
        rcases numeral.exists_cons with ⟨first, others, rfl, isDigit⟩
        grind [Byte.isDigit, Byte.isSign]
      simp [Binary64.ofLiteral?, unsigned, numeral.takeWhile_eq digit, numeral.dropWhile_eq digit,
        numeral.mantissa?_eq]
  | plus numeral =>
      simp [Binary64.ofLiteral?, Byte.isSign, numeral.takeWhile_eq digit,
        numeral.dropWhile_eq digit, numeral.mantissa?_eq]
  | minus numeral =>
      simp [Binary64.ofLiteral?, Byte.isSign, numeral.takeWhile_eq digit,
        numeral.dropWhile_eq digit, numeral.mantissa?_eq]

/-- No other form of a number takes any of a decimal literal. -/
theorem hexadecimal_append (spells : SpellsDecimal integer bytes) (ends : EndsNumber tail) :
    Lexeme.hexadecimal (bytes ++ tail) = Lexeme.malformed "hexadecimal literal" 0 := by
  cases spells with
  | plain numeral =>
      have noSign := numeral.signLength_eq (· == Byte.minus) (by grind [Byte.isDigit])
      simp [Lexeme.hexadecimal, Lexeme.signLength_append numeral.notEmpty, noSign,
        numeral.opensHexadecimal_append ends.hexMark]
  | plus numeral => rfl
  | @minus _ digits numeral =>
      have sign : Lexeme.signLength (· == Byte.minus) (Byte.minus :: (digits ++ tail)) = 1 := rfl
      simp [Lexeme.hexadecimal, sign, numeral.opensHexadecimal_append ends.hexMark]

theorem scientific_append (spells : SpellsDecimal integer bytes) (ends : EndsNumber tail) :
    Lexeme.scientific (bytes ++ tail) = Lexeme.malformed "scientific-notation literal" 0 := by
  have digit : ∀ byte, Byte.isDigit byte = true → Byte.isNumeral byte = true := by
    grind [Byte.isNumeral]
  have noExponent : tail.head?.any Byte.isExponentMark = false := ends.exponentMark
  cases spells with
  | plain numeral =>
      have noSign := numeral.signLength_eq (· == Byte.minus) (by grind [Byte.isDigit])
      simp [Lexeme.scientific, Lexeme.signLength_append numeral.notEmpty, noSign,
        ends.numeral.takeWhile_append, numeral.takeWhile_eq digit, noExponent]
  | plus numeral => rfl
  | @minus _ digits numeral =>
      have sign : Lexeme.signLength (· == Byte.minus) (Byte.minus :: (digits ++ tail)) = 1 := rfl
      simp [Lexeme.scientific, sign, ends.numeral.takeWhile_append, numeral.takeWhile_eq digit,
        Nat.add_comm 1, noExponent]

/-- A sign of either kind is passed over as one. -/
theorem exists_split (spells : SpellsDecimal integer bytes) :
    ∃ sign digits magnitude, bytes = sign ++ digits ∧ IsNumeral magnitude digits ∧
      ∀ tail, Lexeme.signLength Byte.isSign (sign ++ digits ++ tail) = sign.length := by
  cases spells with
  | plain numeral =>
      refine ⟨[], _, _, rfl, numeral, fun tail => ?_⟩
      exact (Lexeme.signLength_append numeral.notEmpty).trans
        (numeral.signLength_eq Byte.isSign (by grind [Byte.isDigit, Byte.isSign]))
  | plus numeral => exact ⟨[Byte.plus], _, _, rfl, numeral, fun tail => rfl⟩
  | minus numeral => exact ⟨[Byte.minus], _, _, rfl, numeral, fun tail => rfl⟩

/-- In plain notation the whole literal is one number. -/
theorem decimal_append (spells : SpellsDecimal integer bytes) (ends : EndsNumber tail)
    {value : Value} (number : ((Lexeme.int64? bytes).map Value.int).or
      ((Binary64.ofLiteral? bytes).map Value.double) = some value) :
    Lexeme.decimal (bytes ++ tail) = .found value bytes.length := by
  have digit : ∀ byte, Byte.isDigit byte = true → Byte.isNumeral byte = true := by
    grind [Byte.isNumeral]
  rcases spells.exists_split with ⟨sign, digits, magnitude, rfl, numeral, ofSign⟩
  have body : ((sign ++ digits ++ tail).drop sign.length).takeWhile Byte.isNumeral = digits := by
    rw [List.append_assoc, List.drop_left, ends.numeral.takeWhile_append,
      numeral.takeWhile_eq digit]
  simp only [Lexeme.decimal, ofSign, body, ← List.length_append, List.take_left]
  simp [numeral.dot_not_mem, numeral.any_isDigit, number]

theorem integer_append (spells : SpellsDecimal integer bytes) (ends : EndsNumber tail) :
    Lexeme.integer (bytes ++ tail) = match Lexeme.int64? bytes with
      | some number => .found number bytes.length
      | none => Lexeme.malformed "integer literal within 64 bits" bytes.length := by
  have noOther : tail.head?.any Lexeme.continuesNumber = false := ends.other
  rcases spells.exists_split with ⟨sign, digits, magnitude, rfl, numeral, ofSign⟩
  have body : ((sign ++ digits ++ tail).drop sign.length).takeWhile Byte.isDigit = digits := by
    rw [List.append_assoc, List.drop_left, ends.digit.takeWhile_append,
      numeral.takeWhile_eq fun _ => id]
  simp only [Lexeme.integer, ofSign, body, ← List.length_append, List.take_left, List.drop_left,
    noOther]
  cases Lexeme.int64? (sign ++ digits) <;> simp [numeral.notEmpty]

/-- A decimal literal is read as a number, and as nothing but a number in plain notation. -/
theorem read_number (spells : SpellsDecimal integer bytes) {value : Value}
    (number : ((Lexeme.int64? bytes).map Value.int).or
      ((Binary64.ofLiteral? bytes).map Value.double) = some value)
    (stops : Stops Byte.isIdentifier tail) :
    Grammar.number.read (bytes ++ tail) = some (value, Gap.rest tail) := by
  have ends := EndsNumber.of_stops stops
  have notHexadecimal : (Rule.token Token.hexadecimal).read (bytes ++ tail) = none :=
    Token.read_eq_none_iff.2 ⟨_, _, _, spells.hexadecimal_append ends⟩
  have notScientific : (Rule.token Token.scientific).read (bytes ++ tail) = none :=
    Token.read_eq_none_iff.2 ⟨_, _, _, spells.scientific_append ends⟩
  have decimal : (Rule.token Token.decimal).read (bytes ++ tail) = some (value, Gap.rest tail) :=
    Token.read_eq_some_iff.2 ⟨_, spells.decimal_append ends number, by rw [List.drop_left]⟩
  refine (read_oneOf_of_none (read_map_of_none notHexadecimal)).trans ?_
  refine (read_oneOf_of_none (read_map_of_none notScientific)).trans ?_
  exact read_oneOf_of_some decimal

/-- Where only an integer may stand, a decimal literal of 64 bits is read. -/
theorem read_integer (spells : SpellsDecimal integer bytes) {number : Int64}
    (fits : Lexeme.int64? bytes = some number) (stops : Stops Byte.isIdentifier tail) :
    Grammar.integer.read (bytes ++ tail) = some (number, Gap.rest tail) := by
  have ends := EndsNumber.of_stops stops
  have notHexadecimal : (Rule.token Token.hexadecimal).read (bytes ++ tail) = none :=
    Token.read_eq_none_iff.2 ⟨_, _, _, spells.hexadecimal_append ends⟩
  have found := spells.integer_append ends
  rw [fits] at found
  have decimal : (Rule.token Token.integer).read (bytes ++ tail) = some (number, Gap.rest tail) :=
    Token.read_eq_some_iff.2 ⟨_, found, by rw [List.drop_left]⟩
  exact (read_oneOf_of_none notHexadecimal).trans (read_oneOf_of_some decimal)

end SpellsDecimal

namespace Lexeme

variable {bytes : List UInt8}

theorem exists_sign (bytes : List UInt8) :
    ∃ sign unsigned, bytes = sign ++ unsigned ∧ signLength Byte.isSign bytes = sign.length ∧
      (sign = [] ∨ sign = [Byte.plus] ∨ sign = [Byte.minus]) := by
  cases bytes with
  | nil => exact ⟨[], [], rfl, rfl, .inl rfl⟩
  | cons byte unsigned =>
      cases isSign : Byte.isSign byte with
      | false => exact ⟨[], byte :: unsigned, rfl, by simp [signLength, isSign], .inl rfl⟩
      | true =>
          refine ⟨[byte], unsigned, rfl, by simp [signLength, isSign], .inr ?_⟩
          simpa [Byte.isSign] using isSign

/-- Where an integer is found, a decimal literal of 64 bits stands that nothing continues. -/
theorem exists_spellsDecimal_of_integer {number : Int64} {length : Nat}
    (found : integer bytes = .found number length) :
    ∃ literal tail value, bytes = literal ++ tail ∧ length = literal.length ∧
      SpellsDecimal value literal ∧ EndsNumber tail ∧ int64? literal = some number := by
  rcases exists_sign bytes with ⟨sign, unsigned, rfl, ofSign, isSign⟩
  let digits := unsigned.takeWhile Byte.isDigit
  let tail := unsigned.dropWhile Byte.isDigit
  have split : sign ++ unsigned = sign ++ digits ++ tail := by
    rw [List.append_assoc, List.takeWhile_append_dropWhile]
  simp only [integer, ofSign, List.drop_left, malformed] at found
  rw [split, ← List.length_append, List.take_left, List.drop_left] at found
  split at found
  · cases found
  · next notEmpty =>
      split at found
      · cases found
      · next noOther =>
          split at found
          · next fits =>
              cases found
              have numeral : IsNumeral (Numeral.value 10 digits) digits :=
                ⟨mt List.isEmpty_iff.2 notEmpty, fun byte => List.mem_takeWhile_imp, rfl⟩
              have ends : EndsNumber tail :=
                ⟨stops_dropWhile Byte.isDigit unsigned, Bool.eq_false_iff.2 noOther⟩
              rcases isSign with rfl | rfl | rfl
              · exact ⟨digits, tail, _, split, rfl, .plain numeral, ends, fits⟩
              · exact ⟨_, tail, _, split, rfl, .plus numeral, ends, fits⟩
              · exact ⟨_, tail, _, split, rfl, .minus numeral, ends, fits⟩
          · cases found

end Lexeme

/-! ### Hexadecimal literals -/

/-- The sign in front of a literal, if it has one. -/
def minusSign (negative : Bool) : List UInt8 := if negative then [Byte.minus] else []

theorem signLength_minusSign {isSign : UInt8 → Bool} (minus : isSign Byte.minus = true)
    (zero : isSign Byte.zero = false) (negative : Bool) (tail : List UInt8) :
    Lexeme.signLength isSign (minusSign negative ++ Byte.zero :: tail) =
      (minusSign negative).length := by
  cases negative <;> simp [minusSign, Lexeme.signLength, minus, zero]

theorem int64?_minusSign (negative : Bool) :
    Lexeme.int64? (minusSign negative ++ [Byte.zero]) = some 0 := by
  cases negative <;> decide

/-- Whether bytes are the letter of a hexadecimal literal and digits that stand for a magnitude. -/
inductive IsHexWord : Nat → List UInt8 → Prop where
  | intro {mark : UInt8} {digits : List UInt8} (isMark : Byte.isHexMark mark = true)
      (notEmpty : digits ≠ []) (areDigits : ∀ byte ∈ digits, Byte.isHexDigit byte = true) :
      IsHexWord (Numeral.value 16 digits) (mark :: digits)

/-- The magnitude of a hexadecimal literal as a word in two's complement, negated behind a sign. -/
def wordOf (negative : Bool) (magnitude : Nat) : Int64 :=
  if negative then -(Int64.ofNat magnitude) else Int64.ofNat magnitude

namespace IsHexWord

variable {magnitude : Nat} {word tail : List UInt8}

theorem unique (isWord : IsHexWord magnitude word) {other : Nat} (otherWord : IsHexWord other word) :
    magnitude = other := by
  cases isWord
  cases otherWord
  rfl

/-- The letter and the digits can be a name. -/
theorem areLetters (isWord : IsHexWord magnitude word) :
    ∀ byte ∈ word, Byte.isIdentifier byte = true := by
  cases isWord with
  | intro isMark notEmpty areDigits =>
      intro byte mem
      rcases List.mem_cons.1 mem with rfl | later
      · exact Byte.isIdentifier_of_isHexMark isMark
      · exact Byte.isIdentifier_of_isHexDigit (areDigits byte later)

theorem notEmpty (isWord : IsHexWord magnitude word) : word ≠ [] := by
  cases isWord
  exact List.cons_ne_nil _ _

/-- No number begins with the letter. -/
theorem stops_opensNumber (isWord : IsHexWord magnitude word) (tail : List UInt8) :
    Stops Grammar.opensNumber (word ++ tail) := by
  cases isWord with
  | intro isMark notEmpty areDigits =>
      refine stops_cons.2 ?_
      grind [Byte.isHexMark, Grammar.opensNumber, Byte.isSign, Byte.isNumeral, Byte.isDigit,
        Byte.isExponentMark]

/-- A hexadecimal literal is found with its digits, unless they have too many bits. -/
theorem hexadecimal_append (isWord : IsHexWord magnitude word) (negative : Bool)
    (stops : Stops Byte.isIdentifier tail) :
    Lexeme.hexadecimal (minusSign negative ++ Byte.zero :: word ++ tail) =
      if Lexeme.wordRange ≤ magnitude then
        Lexeme.malformed "hexadecimal literal of at most 64 bits"
          (minusSign negative ++ Byte.zero :: word).length
      else .found (wordOf negative magnitude) (minusSign negative ++ Byte.zero :: word).length := by
  rw [Lexeme.hexadecimal_append (by simp) stops]
  cases isWord with
  | @intro mark digits isMark notEmpty areDigits =>
      have whole : digits.takeWhile Byte.isHexDigit = digits :=
        List.takeWhile_eq_self_iff.2 areDigits
      have opens : Lexeme.opensHexadecimal (Byte.zero :: mark :: digits) = true := by
        simp [Lexeme.opensHexadecimal, isMark]
      have sign := @signLength_minusSign (· == Byte.minus) rfl rfl negative (mark :: digits)
      have word : (if (minusSign negative).length = 1 then
          -(Int64.ofNat (Numeral.value 16 digits)) else Int64.ofNat (Numeral.value 16 digits)) =
            wordOf negative (Numeral.value 16 digits) := by
        cases negative <;> rfl
      have behind : (minusSign negative ++ Byte.zero :: mark :: digits).drop
          ((minusSign negative).length + 2) = digits := by
        rw [List.drop_length_add_append]
        rfl
      have length : (minusSign negative ++ Byte.zero :: mark :: digits).length =
          (minusSign negative).length + 2 + digits.length := by
        rw [List.length_append, List.length_cons, List.length_cons]
        omega
      rw [length]
      simp [Lexeme.hexadecimal, sign, opens, behind, whole, notEmpty, word]

theorem scientific_append (isWord : IsHexWord magnitude word) (negative : Bool)
    (stops : Stops Byte.isIdentifier tail) :
    Lexeme.scientific (minusSign negative ++ Byte.zero :: word ++ tail) =
      Lexeme.malformed "scientific-notation literal" 0 := by
  rw [Lexeme.scientific_append (by simp) stops]
  cases isWord with
  | @intro mark digits isMark notEmpty areDigits =>
      have notNumeral : Byte.isNumeral mark = false := by
        grind [Byte.isHexMark, Byte.isNumeral, Byte.isDigit]
      have notExponent : Byte.isExponentMark mark = false := by
        grind [Byte.isHexMark, Byte.isExponentMark]
      have zero : Byte.isNumeral Byte.zero = true := rfl
      have sign := @signLength_minusSign (· == Byte.minus) rfl rfl negative (mark :: digits)
      simp [Lexeme.scientific, sign, zero, notNumeral, notExponent]

/-- In plain notation only the zero of a hexadecimal literal is a number. -/
theorem decimal_append (isWord : IsHexWord magnitude word) (negative : Bool)
    (stops : Stops Byte.isIdentifier tail) :
    Lexeme.decimal (minusSign negative ++ Byte.zero :: word ++ tail) =
      .found (.int 0) (minusSign negative).length.succ := by
  rw [Lexeme.decimal_append (by simp) stops]
  cases isWord with
  | @intro mark digits isMark notEmpty areDigits =>
      have notNumeral : Byte.isNumeral mark = false := by
        grind [Byte.isHexMark, Byte.isNumeral, Byte.isDigit]
      have zero : Byte.isNumeral Byte.zero = true := rfl
      have digit : Byte.isDigit Byte.zero = true := rfl
      have noDot : Byte.dot ≠ Byte.zero := by decide
      have sign := @signLength_minusSign Byte.isSign rfl rfl negative (mark :: digits)
      have number := int64?_minusSign negative
      simp [Lexeme.decimal, sign, zero, notNumeral, List.take_length_add_append, number, digit,
        noDot]

/-- No gap begins with the letter. -/
theorem rest_append (isWord : IsHexWord magnitude word) (tail : List UInt8) :
    Gap.rest (word ++ tail) = word ++ tail := by
  cases isWord with
  | intro isMark notEmpty areDigits =>
      have letter := Byte.isScope_of_isIdentifier (Byte.isIdentifier_of_isHexMark isMark)
      exact Gap.rest_barrier (Byte.isBarrier_of_isScope letter) _

/-- A hexadecimal literal of 64 bits is read as a number. -/
theorem read_number (isWord : IsHexWord magnitude word) (negative : Bool)
    (fits : magnitude < Lexeme.wordRange) (stops : Stops Byte.isIdentifier tail) :
    Grammar.number.read (minusSign negative ++ Byte.zero :: word ++ tail) =
      some (.int (wordOf negative magnitude), Gap.rest tail) := by
  have found := isWord.hexadecimal_append negative stops
  rw [if_neg (Nat.not_le.2 fits)] at found
  have number : (Rule.token Token.hexadecimal).read
      (minusSign negative ++ Byte.zero :: word ++ tail) =
        some (wordOf negative magnitude, Gap.rest tail) :=
    Token.read_eq_some_iff.2 ⟨_, found, by rw [List.drop_left]⟩
  exact read_oneOf_of_some (read_map_of_some number)

/-- Of a hexadecimal literal with more bits only the zero is read as a number. -/
theorem read_number_of_overlong (isWord : IsHexWord magnitude word) (negative : Bool)
    (beyond : Lexeme.wordRange ≤ magnitude) (stops : Stops Byte.isIdentifier tail) :
    Grammar.number.read (minusSign negative ++ Byte.zero :: word ++ tail) =
      some (.int 0, word ++ tail) := by
  have missing := isWord.hexadecimal_append negative stops
  rw [if_pos beyond] at missing
  have missingToo := isWord.scientific_append negative stops
  have found := isWord.decimal_append negative stops
  have behind : (minusSign negative ++ Byte.zero :: word ++ tail).drop
      (minusSign negative).length.succ = word ++ tail := by simp
  generalize minusSign negative ++ Byte.zero :: word ++ tail = bytes at *
  have notHexadecimal : (Rule.token Token.hexadecimal).read bytes = none :=
    Token.read_eq_none_iff.2 ⟨_, _, _, missing⟩
  have notScientific : (Rule.token Token.scientific).read bytes = none :=
    Token.read_eq_none_iff.2 ⟨_, _, _, missingToo⟩
  have decimal : (Rule.token Token.decimal).read bytes = some (.int 0, word ++ tail) :=
    Token.read_eq_some_iff.2 ⟨_, found, by rw [behind, isWord.rest_append]⟩
  refine (read_oneOf_of_none (read_map_of_none notHexadecimal)).trans ?_
  refine (read_oneOf_of_none (read_map_of_none notScientific)).trans ?_
  exact read_oneOf_of_some decimal

end IsHexWord

end ThriftIdl
