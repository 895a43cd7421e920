import ThriftIdl.Proofs.Grammar.Integers
import ThriftIdl.Proofs.Printing.Values

/-!
# Lists of integers

The separators of a list are optional, so a literal that is not taken as a whole does not end the
list: what is left of it may be an item of its own. This happens to one kind of literal. A number in
plain notation looks at nothing behind its digits, so of a hexadecimal literal with more than 64 bits
it takes the zero, and the letter with its digits is a reference.

Every other literal of an integer is one item. A list is read to its end in either case.
-/

namespace ThriftIdl

open Rule

/-- Whether bytes are a hexadecimal literal, with the given letter and digits for a magnitude. -/
def SpellsHexadecimal (negative : Bool) (magnitude : Nat) (word bytes : List UInt8) : Prop :=
  IsHexWord magnitude word ∧ bytes = minusSign negative ++ Byte.zero :: word

/-- Whether bytes are a literal of an integer, in either base. -/
def IsIntegerLiteral (bytes : List UInt8) : Prop :=
  (∃ negative magnitude word, SpellsHexadecimal negative magnitude word bytes) ∨
    ∃ integer, SpellsDecimal integer bytes

/-- Whether bytes are a hexadecimal literal with more than 64 bits. -/
def IsOverlong (bytes : List UInt8) : Prop :=
  ∃ negative magnitude word, SpellsHexadecimal negative magnitude word bytes ∧
    Lexeme.wordRange ≤ magnitude

/-- The items that a literal of an integer is read as. -/
inductive IntegerItems : List UInt8 → List Value → Prop where
  | hexadecimal {negative : Bool} {magnitude : Nat} {word bytes : List UInt8}
      (spells : SpellsHexadecimal negative magnitude word bytes)
      (fits : magnitude < Lexeme.wordRange) :
      IntegerItems bytes [.int (wordOf negative magnitude)]
  | overlong {negative : Bool} {magnitude : Nat} {word bytes : List UInt8}
      (spells : SpellsHexadecimal negative magnitude word bytes)
      (beyond : Lexeme.wordRange ≤ magnitude) :
      IntegerItems bytes [.int 0, .reference [Utf8.text word]]
  | integer {integer : Int} {bytes : List UInt8} (spells : SpellsDecimal integer bytes)
      (lower : Int64.minValue.toInt ≤ integer) (upper : integer ≤ Int64.maxValue.toInt) :
      IntegerItems bytes [.int (Int64.ofInt integer)]
  | double {integer : Int} {bytes : List UInt8} {double : Binary64}
      (spells : SpellsDecimal integer bytes)
      (beyond : integer < Int64.minValue.toInt ∨ Int64.maxValue.toInt < integer)
      (nearest : Binary64.ofLiteral? bytes = some double) : IntegerItems bytes [.double double]

variable {bytes tail rest : List UInt8} {room : Nat}

/-! ### One literal -/

theorem exists_integerItems (literal : IsIntegerLiteral bytes) :
    ∃ values, IntegerItems bytes values := by
  rcases literal with ⟨negative, magnitude, word, spells⟩ | ⟨integer, spells⟩
  · rcases Nat.lt_or_ge magnitude Lexeme.wordRange with fits | beyond
    · exact ⟨_, .hexadecimal spells fits⟩
    · exact ⟨_, .overlong spells beyond⟩
  · by_cases range : Int64.minValue.toInt ≤ integer ∧ integer ≤ Int64.maxValue.toInt
    · exact ⟨_, .integer spells range.1 range.2⟩
    · rcases spells.exists_ofLiteral?_eq with ⟨double, nearest⟩
      exact ⟨_, .double spells (by omega) nearest⟩

theorem SpellsHexadecimal.unique {negative other : Bool} {magnitude otherMagnitude : Nat}
    {word otherWord : List UInt8} (spells : SpellsHexadecimal negative magnitude word bytes)
    (otherSpells : SpellsHexadecimal other otherMagnitude otherWord bytes) :
    magnitude = otherMagnitude := by
  rcases spells with ⟨isWord, rfl⟩
  rcases otherSpells with ⟨isOther, same⟩
  have sameWord : word = otherWord := by
    have differ : Byte.minus ≠ Byte.zero := by decide
    cases negative <;> cases other <;> simp [minusSign, differ, differ.symm] at same <;> exact same
  subst sameWord
  exact isWord.unique isOther

/-- No literal is written in both bases. -/
theorem SpellsDecimal.not_spellsHexadecimal {integer : Int} (spells : SpellsDecimal integer bytes)
    {negative : Bool} {magnitude : Nat} {word : List UInt8} :
    ¬SpellsHexadecimal negative magnitude word bytes := by
  rintro ⟨⟨isMark, notEmpty, areDigits⟩, same⟩
  rename_i mark digits
  have notDigit : ¬Byte.isDigit mark = true := by grind [Byte.isHexMark, Byte.isDigit]
  have mem : mark ∈ bytes := by simp [same]
  cases spells with
  | plain numeral => exact notDigit (numeral.areDigits mark mem)
  | plus numeral =>
      have notZero : Byte.plus ≠ Byte.zero := by decide
      have notMinus : Byte.plus ≠ Byte.minus := by decide
      cases negative <;> simp [minusSign, notZero, notMinus] at same
  | minus numeral =>
      rcases List.mem_cons.1 mem with rfl | later
      · cases isMark
      · exact notDigit (numeral.areDigits mark later)

/-- A literal is read as one item, unless it is overlong. -/
theorem IntegerItems.length_eq {values : List Value} (items : IntegerItems bytes values) :
    IsOverlong bytes ∧ values.length = 2 ∨ ¬IsOverlong bytes ∧ values.length = 1 := by
  cases items with
  | hexadecimal spells fits =>
      refine .inr ⟨?_, rfl⟩
      rintro ⟨_, _, _, otherSpells, beyond⟩
      rw [← spells.unique otherSpells] at beyond
      exact Nat.not_le.2 fits beyond
  | overlong spells beyond => exact .inl ⟨⟨_, _, _, spells, beyond⟩, rfl⟩
  | integer spells _ _ =>
      refine .inr ⟨?_, rfl⟩
      rintro ⟨_, _, _, otherSpells, -⟩
      exact spells.not_spellsHexadecimal otherSpells
  | double spells _ _ =>
      refine .inr ⟨?_, rfl⟩
      rintro ⟨_, _, _, otherSpells, -⟩
      exact spells.not_spellsHexadecimal otherSpells

/-- The letter and the digits of a hexadecimal literal are read as a reference. -/
theorem IsHexWord.spellsValue {magnitude : Nat} {word : List UInt8}
    (isWord : IsHexWord magnitude word) (ends : EndsValue tail) :
    SpellsValue (room + 1) (.reference [Utf8.text word]) (word ++ tail) (Gap.rest tail) := by
  have letters := isWord.areLetters
  have encoded : Utf8.encode (Utf8.text word) = word :=
    Utf8.encode_text (Utf8.valid_of_ascii fun byte mem =>
      Byte.ascii_of_isScope (Byte.isScope_of_isIdentifier (letters byte mem)))
  have name : IsName (Utf8.text word) := by
    constructor
    · rw [encoded]
      exact isWord.notEmpty
    · rwa [encoded]
  have spells : SpellsReference [Utf8.text word] (word ++ tail) (Gap.rest tail) := by
    refine .intro ⟨name, tail, ?_, ends.noName, rfl⟩ (.nil _) (read_mark_bind_eq_none ends.noDot)
    rw [encoded]
  have notWord : ∀ other, (Utf8.encode other).head?.any Byte.isHexMark = false →
      [Utf8.text word].head? ≠ some other := by
    intro other noMark same
    rw [← Option.some.inj same, encoded] at noMark
    cases isWord with
    | intro isMark _ _ => rw [List.head?_cons, Option.any_some, isMark] at noMark; cases noMark
  exact .reference spells (Grammar.read_number_eq_none (isWord.stops_opensNumber tail))
    (notWord "true" (by decide)) (notWord "false" (by decide))

/-- In front of a separator, or of the closing bracket, a literal is read as its items. -/
theorem IntegerItems.repeats {values : List Value} (items : IntegerItems bytes values)
    (ends : EndsValue tail) (separator : SpellsSeparator (Gap.rest tail) rest) :
    Repeats (Separated (SpellsValue (room + 1))) (bytes ++ tail) values rest := by
  cases items with
  | @hexadecimal negative _ _ _ spells fits =>
      rcases spells with ⟨isWord, rfl⟩
      have number := isWord.read_number negative fits ends.noName
      exact .cons ⟨_, .number number, separator⟩ (.nil rest)
  | @overlong negative _ word _ spells beyond =>
      rcases spells with ⟨isWord, rfl⟩
      have zero := isWord.read_number_of_overlong negative beyond ends.noName
      have noSeparator : Stops Byte.isSeparator (word ++ tail) := by
        cases isWord with
        | intro isMark _ _ => exact stops_cons.2 (by grind [Byte.isHexMark, Byte.isSeparator])
      exact .cons ⟨_, .number zero, .absent noSeparator⟩
        (.cons ⟨_, isWord.spellsValue ends, separator⟩ (.nil rest))
  | @integer integer _ spells lower upper =>
      have fits := spells.int64?_eq
      rw [if_pos ⟨lower, upper⟩] at fits
      have number : Grammar.number.read (bytes ++ tail) =
          some (.int (Int64.ofInt integer), Gap.rest tail) :=
        spells.read_number (by rw [fits]; rfl) ends.noName
      exact .cons ⟨_, .number number, separator⟩ (.nil rest)
  | @double _ _ double spells beyond nearest =>
      have fits := spells.int64?_eq
      rw [if_neg (by omega)] at fits
      have number : Grammar.number.read (bytes ++ tail) = some (.double double, Gap.rest tail) :=
        spells.read_number (by rw [fits, nearest]; rfl) ends.noName
      exact .cons ⟨_, .number number, separator⟩ (.nil rest)

/-- No gap begins with a literal of an integer. -/
theorem IsIntegerLiteral.rest_append (literal : IsIntegerLiteral bytes) (tail : List UInt8) :
    Gap.rest (bytes ++ tail) = bytes ++ tail := by
  rcases literal with ⟨negative, _, _, -, rfl⟩ | ⟨integer, spells⟩
  · cases negative
    · exact Gap.rest_barrier rfl _
    · exact Gap.rest_barrier rfl _
  · exact spells.rest_append tail

/-! ### Lists -/

/-- Between brackets, literals with commas between them are read as the items of each of them. -/
theorem repeats_integers {literals : List String} {pieces : List (List Value)}
    (ofLiterals : List.Forall₂ (fun literal piece => IsIntegerLiteral (Utf8.encode literal) ∧
      IntegerItems (Utf8.encode literal) piece) literals pieces) :
    Gap.rest (Utf8.encode (", ".intercalate literals) ++ [Byte.closeBracket]) =
        Utf8.encode (", ".intercalate literals) ++ [Byte.closeBracket] ∧
      Repeats (Separated (SpellsValue (room + 1)))
        (Utf8.encode (", ".intercalate literals) ++ [Byte.closeBracket]) pieces.flatten
        [Byte.closeBracket] := by
  induction ofLiterals with
  | nil => exact ⟨rfl, .nil _⟩
  | @cons literal piece literals pieces first ofOthers ih =>
      rcases first with ⟨isLiteral, items⟩
      rw [List.flatten_cons]
      cases ofOthers with
      | nil =>
          rw [String.intercalate_singleton]
          refine ⟨isLiteral.rest_append _, ?_⟩
          have ends : EndsValue [Byte.closeBracket] := endsValue_cons rfl rfl []
          have noSeparator : SpellsSeparator (Gap.rest [Byte.closeBracket]) [Byte.closeBracket] :=
            .absent rfl
          exact (items.repeats ends noSeparator).append (.nil _)
      | @cons next _ others _ _ _ =>
          rw [String.intercalate_cons_cons, Utf8.encode_append, Utf8.encode_append,
            List.append_assoc, List.append_assoc]
          refine ⟨isLiteral.rest_append _, ?_⟩
          rcases ih with ⟨settled, repeats⟩
          have comma := spellsSeparator_comma
            (Utf8.encode (", ".intercalate (next :: others)) ++ [Byte.closeBracket])
          rw [settled] at comma
          exact (items.repeats (endsValue_cons rfl rfl _) comma).append repeats

/-- There are as many items as literals exactly if no literal is overlong. -/
theorem length_flatten_eq_iff {literals : List String} {pieces : List (List Value)}
    (ofLiterals : List.Forall₂ (fun literal piece => IntegerItems (Utf8.encode literal) piece)
      literals pieces) :
    literals.length ≤ pieces.flatten.length ∧
      (pieces.flatten.length = literals.length ↔
        ∀ literal ∈ literals, ¬IsOverlong (Utf8.encode literal)) := by
  induction ofLiterals with
  | nil => simp
  | cons first _ ih =>
      rcases ih with ⟨le, iff⟩
      rw [List.forall_mem_cons, ← iff, List.flatten_cons, List.length_append, List.length_cons]
      rcases first.length_eq with ⟨overlong, two⟩ | ⟨notOverlong, one⟩
      · simp only [overlong, not_true_eq_false, false_and, iff_false]
        omega
      · simp only [notOverlong, not_false_eq_true, true_and]
        omega

namespace Grammar

/--
A list of integer literals is read to its end, and in place of each literal stand its own items: an
integer, or a double for a decimal literal beyond 64 bits, or a zero and a reference for a
hexadecimal literal beyond 64 bits. So the list has one item for each literal exactly if there is no
literal of the last kind.
-/
theorem run_value_integers {literals : List String}
    (integers : ∀ literal ∈ literals, IsIntegerLiteral (Utf8.encode literal)) :
    ∃ pieces after,
      List.Forall₂ (fun literal piece => IntegerItems (Utf8.encode literal) piece) literals pieces ∧
      (Grammar.value maxNesting).run
          (State.startAt (Utf8.encode ("[" ++ ", ".intercalate literals ++ "]")) 0) =
        .done (.list pieces.flatten) after ∧
      after.cursor.atEnd = true ∧
      (pieces.flatten.length = literals.length ↔
        ∀ literal ∈ literals, ¬IsOverlong (Utf8.encode literal)) := by
  obtain ⟨pieces, ofLiterals⟩ : ∃ pieces, List.Forall₂ (fun literal piece =>
      IsIntegerLiteral (Utf8.encode literal) ∧ IntegerItems (Utf8.encode literal) piece)
        literals pieces := by
    induction literals with
    | nil => exact ⟨[], .nil⟩
    | cons first others ih =>
        rcases List.forall_mem_cons.1 integers with ⟨isLiteral, areLiterals⟩
        rcases exists_integerItems isLiteral with ⟨piece, items⟩
        rcases ih areLiterals with ⟨pieces, ofOthers⟩
        exact ⟨piece :: pieces, .cons ⟨isLiteral, items⟩ ofOthers⟩
  have items := ofLiterals.imp fun _ _ both => both.2
  rcases @repeats_integers 62 _ _ ofLiterals with ⟨settled, repeats⟩
  have spells : SpellsValue maxNesting (.list pieces.flatten)
      (Utf8.encode ("[" ++ ", ".intercalate literals ++ "]")) [] := by
    have opening : SpellsMark Byte.openBracket
        (Utf8.encode ("[" ++ ", ".intercalate literals ++ "]"))
        (Utf8.encode (", ".intercalate literals) ++ [Byte.closeBracket]) := by
      refine ⟨_, ?_, settled.symm⟩
      rw [Utf8.encode_append, Utf8.encode_append, List.append_assoc]
      rfl
    exact .list opening repeats ⟨[], rfl, rfl⟩
  generalize Utf8.encode ("[" ++ ", ".intercalate literals ++ "]") = bytes at spells ⊢
  have found : (Grammar.value maxNesting).read (State.startAt bytes 0).cursor.remaining = _ :=
    read_value_iff.2 spells
  rcases exists_run_of_read found with ⟨after, ran, remaining, -⟩
  exact ⟨pieces, after, items, ran, List.isEmpty_iff.2 remaining, (length_flatten_eq_iff items).2⟩

/-- The last of three literals has one bit too many. -/
theorem run_value_integers_overlong :
    (∀ literal ∈ ["-0x1F", "+9223372036854775808", "0x10000000000000000"],
      IsIntegerLiteral (Utf8.encode literal)) ∧
    ∃ pieces after,
      List.Forall₂ (fun literal piece => IntegerItems (Utf8.encode literal) piece)
        ["-0x1F", "+9223372036854775808", "0x10000000000000000"] pieces ∧
      (Grammar.value maxNesting).run (State.startAt
          (Utf8.encode "[-0x1F, +9223372036854775808, 0x10000000000000000]") 0) =
        .done (.list pieces.flatten) after ∧
      after.cursor.atEnd = true ∧ pieces.flatten.length ≠ 3 := by
  have first : IsIntegerLiteral (Utf8.encode "-0x1F") := by
    refine .inl ⟨true, _, [0x78, 0x31, 0x46], .intro rfl ?_ ?_, ?_⟩ <;> decide +kernel
  have second : IsIntegerLiteral (Utf8.encode "+9223372036854775808") := by
    have plus : Utf8.encode "+9223372036854775808" =
        Byte.plus :: Utf8.encode "9223372036854775808" := by decide +kernel
    rw [plus]
    exact .inr ⟨_, .plus ⟨by decide +kernel, by decide +kernel, rfl⟩⟩
  have overlong : IsOverlong (Utf8.encode "0x10000000000000000") := by
    have word : IsHexWord _ (0x78 :: Utf8.encode "10000000000000000") :=
      .intro rfl (by decide +kernel) (by decide +kernel)
    exact ⟨false, _, _, ⟨word, by decide +kernel⟩, by decide +kernel⟩
  have third : IsIntegerLiteral (Utf8.encode "0x10000000000000000") := by
    rcases overlong with ⟨negative, magnitude, word, spells, -⟩
    exact .inl ⟨negative, magnitude, word, spells⟩
  have integers : ∀ literal ∈ ["-0x1F", "+9223372036854775808", "0x10000000000000000"],
      IsIntegerLiteral (Utf8.encode literal) := by
    simp only [List.forall_mem_cons]
    exact ⟨first, second, third, by simp⟩
  rcases run_value_integers integers with ⟨pieces, after, items, ran, atEnd, length⟩
  refine ⟨integers, pieces, after, items, ran, atEnd, fun three => ?_⟩
  exact length.1 three _ (by simp) overlong

/-- A list of one literal with one bit too many has two items. -/
theorem exists_split_integer :
    ∃ literals : List String, literals ≠ [] ∧
      (∀ literal ∈ literals, IsIntegerLiteral (Utf8.encode literal)) ∧
      ∃ items after, (Grammar.value maxNesting).run
          (State.startAt (Utf8.encode ("[" ++ ", ".intercalate literals ++ "]")) 0) =
        .done (.list items) after ∧ items.length ≠ literals.length := by
  have integers : ∀ literal ∈ ["0x10000000000000000"],
      IsIntegerLiteral (Utf8.encode literal) := by
    have word : IsHexWord _ (0x78 :: Utf8.encode "10000000000000000") :=
      .intro rfl (by decide +kernel) (by decide +kernel)
    intro literal mem
    rcases List.mem_singleton.1 mem with rfl
    exact .inl ⟨false, _, _, word, by decide +kernel⟩
  have value : ((Grammar.value maxNesting).run (State.startAt
      (Utf8.encode ("[" ++ ", ".intercalate ["0x10000000000000000"] ++ "]")) 0)).result.toOption =
      some (.list [.int 0, .reference ["x10000000000000000"]]) := by decide +kernel
  refine ⟨["0x10000000000000000"], by simp, integers, ?_⟩
  cases ran : (Grammar.value maxNesting).run (State.startAt
      (Utf8.encode ("[" ++ ", ".intercalate ["0x10000000000000000"] ++ "]")) 0) with
  | failed failure after => rw [ran] at value; cases value
  | done item after =>
      rw [ran] at value
      cases value
      exact ⟨_, after, rfl, by simp⟩

end Grammar

end ThriftIdl
