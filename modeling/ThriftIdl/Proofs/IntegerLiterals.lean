import ThriftIdl.Proofs.Grammar.Consumption
import ThriftIdl.Proofs.IntegerLists

/-!
# Literals of integers are exact

A literal may have any number of digits, but an integer has 64 bits. A hexadecimal literal writes
these bits, so it is read up to a multiple of `2 ^ 64` if its magnitude has no more of them. A
decimal literal writes a number, so it is read as this number or not at all; as a value, it then is
a double.
-/

namespace ThriftIdl

open Rule

/-- The integer that a sign and a magnitude stand for. -/
def withSign (negative : Bool) (magnitude : Nat) : Int :=
  if negative then -(magnitude : Int) else magnitude

/-- A word in two's complement stands for the integer up to a multiple of `2 ^ 64`. -/
theorem toInt_wordOf_modEq (negative : Bool) (magnitude : Nat) :
    (wordOf negative magnitude).toInt ≡ withSign negative magnitude [ZMOD 2 ^ 64] := by
  have ofMagnitude : (Int64.ofNat magnitude).toInt ≡ magnitude [ZMOD 2 ^ 64] := by
    rw [Int64.toInt_ofNat']
    exact Int.bmod_emod
  cases negative with
  | false => exact ofMagnitude
  | true =>
      refine Int.ModEq.trans ?_ ofMagnitude.neg
      rw [wordOf, if_pos rfl, Int64.toInt_neg]
      exact Int.bmod_emod

variable {state : State} {literal tail : List UInt8}

theorem SpellsHexadecimal.readsToken {negative : Bool} {magnitude : Nat} {word : List UInt8}
    (spells : SpellsHexadecimal negative magnitude word literal)
    (front : state.cursor.remaining = literal ++ tail) (stops : Stops Byte.isIdentifier tail)
    (fits : magnitude < Lexeme.wordRange) :
    (Rule.token .hexadecimal).run.ReadsToken state literal (wordOf negative magnitude) := by
  rcases spells with ⟨isWord, rfl⟩
  have found := isWord.hexadecimal_append negative stops
  rw [if_neg (Nat.not_le.2 fits)] at found
  have picks : (Rule.token Token.hexadecimal).PicksToken _ _ _ := picksToken_token found
  exact picks.readsToken front

theorem SpellsHexadecimal.fails {negative : Bool} {magnitude : Nat} {word : List UInt8}
    (spells : SpellsHexadecimal negative magnitude word literal)
    (front : state.cursor.remaining = literal ++ tail) (stops : Stops Byte.isIdentifier tail)
    (beyond : Lexeme.wordRange ≤ magnitude) : (Rule.token .hexadecimal).run.Fails state := by
  rcases spells with ⟨isWord, rfl⟩
  have missing := isWord.hexadecimal_append negative stops
  rw [if_pos beyond, ← front] at missing
  exact fails_of_read (Token.read_eq_none_iff.2 ⟨_, _, _, missing⟩)

namespace SpellsDecimal

variable {integer : Int}

theorem int64?_eq_some (spells : SpellsDecimal integer literal) (lower : -2 ^ 63 ≤ integer)
    (upper : integer < 2 ^ 63) : Lexeme.int64? literal = some (Int64.ofInt integer) := by
  have range : Int64.minValue.toInt ≤ integer ∧ integer ≤ Int64.maxValue.toInt :=
    ⟨lower, Int.le_sub_one_of_lt upper⟩
  rw [spells.int64?_eq, if_pos range]

theorem int64?_eq_none (spells : SpellsDecimal integer literal)
    (beyond : ¬(-2 ^ 63 ≤ integer ∧ integer < 2 ^ 63)) : Lexeme.int64? literal = none := by
  have notRange : ¬(Int64.minValue.toInt ≤ integer ∧ integer ≤ Int64.maxValue.toInt) :=
    fun range => beyond ⟨range.1, Int.lt_of_le_sub_one range.2⟩
  rw [spells.int64?_eq, if_neg notRange]

end SpellsDecimal

/--
An integer literal that no name continues is read exactly or not at all. The form for hexadecimal
integers has a value exactly if the magnitude is below `2 ^ 64`, and then it is the integer up to a
multiple of `2 ^ 64`. The form for decimal integers has a value exactly if the integer has 64 bits,
and then it is the integer. As a constant value a decimal literal is the same integer there, and
elsewhere it is a double. Whatever has a value takes the literal and the longest gap behind it.
-/
theorem integerLiterals_exact (state : State) (literal tail : List UInt8)
    (front : state.cursor.remaining = literal ++ tail) (stops : Stops Byte.isIdentifier tail) :
    (∀ negative magnitude word, SpellsHexadecimal negative magnitude word literal →
      if magnitude < 2 ^ 64 then
        ∃ number : Int64, number.toInt ≡ withSign negative magnitude [ZMOD 2 ^ 64] ∧
          (Rule.token .hexadecimal).run.ReadsToken state literal number
      else (Rule.token .hexadecimal).run.Fails state) ∧
    ∀ integer, SpellsDecimal integer literal →
      if -2 ^ 63 ≤ integer ∧ integer < 2 ^ 63 then
        ∃ number : Int64, number.toInt = integer ∧
          (Rule.token .integer).run.ReadsToken state literal number ∧
          ∀ room, (Grammar.value (room + 1)).run.ReadsToken state literal (.int number)
      else
        (Rule.token .integer).run.Fails state ∧
        ∃ double, Binary64.ofLiteral? literal = some double ∧
          ∀ room, (Grammar.value (room + 1)).run.ReadsToken state literal (.double double) := by
  constructor
  · intro negative magnitude word spells
    split_ifs with fits
    · exact ⟨_, toInt_wordOf_modEq negative magnitude, spells.readsToken front stops fits⟩
    · exact spells.fails front stops (Nat.not_lt.1 fits)
  · intro integer spells
    have ends := EndsNumber.of_stops stops
    have recognized := spells.integer_append ends
    split_ifs with range
    · have fits := spells.int64?_eq_some range.1 range.2
      have exactly : (Int64.ofInt integer).toInt = integer :=
        Int64.toInt_ofInt_of_le range.1 range.2
      rw [fits] at recognized
      have number : (Rule.token Token.integer).PicksToken (literal ++ tail) (Int64.ofInt integer)
          literal.length := picksToken_token recognized
      refine ⟨_, exactly, number.readsToken front, fun room => ?_⟩
      exact (spells.picks_value ends (by rw [fits]; rfl)).readsToken front
    · have misfit := spells.int64?_eq_none range
      rw [misfit, ← front] at recognized
      rcases spells.exists_ofLiteral?_eq with ⟨double, nearest⟩
      refine ⟨fails_of_read (Token.read_eq_none_iff.2 ⟨_, _, _, recognized⟩), double, nearest,
        fun room => ?_⟩
      exact (spells.picks_value ends (by rw [misfit, nearest]; rfl)).readsToken front

/--
The magnitude `2 ^ 63` behind a minus sign is the least integer in either base. Behind a plus sign
it is no integer in base ten.
-/
theorem integerLiterals_exact_least :
    let hexadecimal := State.startAt (Utf8.encode "-0x08000000000000000;") 0
    let decimal := State.startAt (Utf8.encode "+9223372036854775808") 0
    (∃ number : Int64, number.toInt ≡ -2 ^ 63 [ZMOD 2 ^ 64] ∧
      (Rule.token .hexadecimal).run.ReadsToken hexadecimal
        (Utf8.encode "-0x08000000000000000") number) ∧
    (Rule.token .integer).run.Fails decimal := by
  intro hexadecimal decimal
  have magnitude : Numeral.value 16 (Utf8.encode "08000000000000000") = 2 ^ 63 := by
    decide +kernel
  have isWord : IsHexWord (2 ^ 63) (Utf8.encode "x08000000000000000") :=
    magnitude ▸ IsHexWord.intro rfl (by decide +kernel) (by decide +kernel)
  have numeral : IsNumeral (2 ^ 63) (Utf8.encode "9223372036854775808") :=
    ⟨by decide +kernel, by decide +kernel, by decide +kernel⟩
  have least := (integerLiterals_exact hexadecimal (Utf8.encode "-0x08000000000000000")
    (Utf8.encode ";") (by decide +kernel) rfl).1 true (2 ^ 63) _ ⟨isWord, by decide +kernel⟩
  have beyond := (integerLiterals_exact decimal (Utf8.encode "+9223372036854775808") []
    (by decide +kernel) (stops_nil _)).2 (2 ^ 63) (.plus numeral)
  rw [if_pos (by decide)] at least
  rw [if_neg (by decide)] at beyond
  exact ⟨least, beyond.1⟩

end ThriftIdl
