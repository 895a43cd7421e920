import ThriftIdl.Proofs.Trace.Gap

/-!
# Tokens step by step

A token that is not quoted consists of ASCII bytes that end no line, so it may be passed over in any
parts and cut out as text. Quoted text may hold any bytes; the quotes are where it can be cut.
-/

namespace ThriftIdl

variable {source : List UInt8} {start : Nat} {α : Type}

namespace State

/-- Moves on by that many bytes, or to the end of the source if fewer remain. -/
def bump (state : State) (count : Nat) : State := state.mapCursor (Cursor.bump · count)

variable (state : State) (count more : Nat)

@[simp]
theorem remaining_bump : (state.bump count).cursor.remaining = state.cursor.remaining.drop count :=
  rfl

@[simp]
theorem bump_bump : (state.bump count).bump more = state.bump (count + more) := by
  simp only [bump, mapCursor, Cursor.bump, Mark.bump_bump]

theorem bump_zero : state.bump 0 = state := by
  simp [bump, mapCursor, Cursor.bump, Mark.bump, Position.advance]

theorem offset_bump {count : Nat} (fits : count ≤ state.cursor.remaining.length) :
    (state.bump count).cursor.offset = state.cursor.offset + count :=
  congrArg Position.offset (Mark.position_bump fits)

end State

/-- How the reading of a token ends. -/
def Lexeme.ending (lexeme : Lexeme α) (state : State) : Outcome α :=
  match lexeme with
  | .found value length => .done value ((state.bump length).mapCursor Cursor.skipGap)
  | .missing kind expected understood => Action.fail kind expected (state.bump understood)

theorem Action.take_eq (token : Token α) (state : State) :
    take token state = (token.recognize state.cursor.remaining).ending state := by
  unfold take Lexeme.ending
  cases token.recognize state.cursor.remaining <;> rfl

/-! ### Bytes of tokens -/

/-- Whether bytes begin with that many ASCII bytes that end no line. -/
structure InlineFront (bytes : List UInt8) (count : Nat) : Prop where
  fits : count ≤ bytes.length
  inline : ∀ byte ∈ bytes.take count, Byte.isInline byte = true

namespace InlineFront

variable {bytes : List UInt8} {count more : Nat} {accepts : UInt8 → Bool}

theorem ascii (front : InlineFront bytes count) : ∀ byte ∈ bytes.take count, byte < 0x80 := by
  intro byte mem
  have inline := front.inline byte mem
  grind [Byte.isInline]

theorem add (front : InlineFront bytes count) (others : InlineFront (bytes.drop count) more) :
    InlineFront bytes (count + more) := by
  have fits := front.fits
  have fitsLater := others.fits
  rw [List.length_drop] at fitsLater
  refine ⟨by omega, fun byte mem => ?_⟩
  rw [List.take_add] at mem
  rcases List.mem_append.1 mem with mem | mem
  · exact front.inline byte mem
  · exact others.inline byte mem

theorem takeWhile (inline : ∀ byte, accepts byte = true → Byte.isInline byte = true)
    (bytes : List UInt8) : InlineFront bytes (bytes.takeWhile accepts).length := by
  have isFront := List.takeWhile_prefix accepts (l := bytes)
  refine ⟨isFront.length_le, fun byte mem => ?_⟩
  rw [← List.prefix_iff_eq_take.1 isFront] at mem
  exact inline byte (List.mem_takeWhile_imp mem)

theorem signLength (inline : ∀ byte, accepts byte = true → Byte.isInline byte = true)
    (bytes : List UInt8) : InlineFront bytes (Lexeme.signLength accepts bytes) := by
  refine ⟨Lexeme.signLength_le accepts bytes, fun byte mem => ?_⟩
  cases bytes with
  | nil => simp at mem
  | cons first rest =>
      unfold Lexeme.signLength at mem
      split_ifs at mem with isSign
      · simp only [List.take_succ_cons, List.take_zero, List.mem_singleton] at mem
        subst mem
        exact inline byte isSign
      · simp at mem

theorem one (found : bytes.head?.any accepts = true)
    (inline : ∀ byte, accepts byte = true → Byte.isInline byte = true) : InlineFront bytes 1 := by
  cases bytes with
  | nil => cases found
  | cons byte rest => exact ⟨by simp, by simpa using inline byte found⟩

end InlineFront

namespace Byte

theorem isInline_of_isScope {byte : UInt8} (letter : isScope byte = true) :
    isInline byte = true := by
  grind [isInline, isScope, isIdentifier, isDigit, isLetter, isLineEnd]

theorem isInline_of_isIdentifier {byte : UInt8} (letter : isIdentifier byte = true) :
    isInline byte = true :=
  isInline_of_isScope (isScope_of_isIdentifier letter)

theorem isInline_of_isSign {byte : UInt8} (sign : isSign byte = true) : isInline byte = true := by
  grind [isInline, isSign, isLineEnd]

theorem isInline_of_isQuote {byte : UInt8} (quote : isQuote byte = true) :
    isInline byte = true := by
  grind [isInline, isQuote, isLineEnd]

end Byte

namespace Procedure

variable {state : State} {count : Nat}

/-! ### Parts of tokens -/

theorem performs_bump_inline (sound : state.Sound source start)
    (front : InlineFront state.cursor.remaining count) :
    (bump count).Performs source start state (.done () (state.bump count)) :=
  performs_bump sound front.fits (.bump_inline front.inline)

theorem sound_bump (sound : state.Sound source start)
    (front : InlineFront state.cursor.remaining count) : (state.bump count).Sound source start :=
  (performs_bump_inline sound front).sound sound

/-- The letters just passed over are cut out as text. -/
theorem performs_textFrom_bump (sound : state.Sound source start)
    (front : InlineFront state.cursor.remaining count) (notEmpty : 0 < count) :
    (textFrom state.cursor.offset).Performs source start (state.bump count)
      (.done (Utf8.text (state.cursor.remaining.take count)) (state.bump count)) := by
  have soundAfter := sound_bump sound front
  have ascii := front.ascii
  have length : (state.cursor.remaining.take count).length = count :=
    List.length_take_of_le front.fits
  have offset := state.offset_bump front.fits
  have between : source.drop state.cursor.offset =
      state.cursor.remaining.take count ++ (state.bump count).cursor.remaining := by
    rw [State.remaining_bump, List.take_append_drop, sound.remaining]
  have boundary : Utf8.isBoundary source state.cursor.offset = true := by
    obtain ⟨byte, rest, head⟩ : ∃ byte rest, state.cursor.remaining = byte :: rest :=
      List.exists_cons_of_length_pos (Nat.lt_of_lt_of_le notEmpty front.fits)
    refine sound.isBoundary_of_head head (ascii byte ?_)
    rw [head, List.take_cons notEmpty]
    exact List.mem_cons_self
  have boundaryAfter : Utf8.isBoundary source (state.bump count).cursor.offset = true := by
    have notNil : state.cursor.remaining.take count ≠ [] := by
      rw [← List.length_pos_iff, length]
      exact notEmpty
    have passed : source.take (state.bump count).cursor.offset =
        source.take state.cursor.offset ++ (state.cursor.remaining.take count).dropLast ++
          [(state.cursor.remaining.take count).getLast notNil] := by
      rw [List.append_assoc, List.dropLast_append_getLast, offset, List.take_add, sound.remaining]
    exact soundAfter.isBoundary_of_last passed (ascii _ (List.getLast_mem notNil))
  exact performs_textFrom soundAfter between (by rw [length, offset]) boundary boundaryAfter

/-- A token that was passed over ends with the gap behind it. -/
theorem performs_found {value : α} (passed : (state.bump count).Sound source start) :
    (do skipGap; return value : Procedure α).Performs source start (state.bump count)
      ((Lexeme.found value count).ending state) :=
  (performs_skipGap passed).bind (performs_pure _ _)

theorem performs_missing_here (expected : String) (state : State) :
    (missing expected : Procedure α).Performs source start state
      ((Lexeme.malformed expected 0).ending state) := by
  have failed := @performs_fail source start α state .lexical (.description expected)
  rwa [← state.bump_zero] at failed

theorem performs_missing (expected : String) :
    (missing expected : Procedure α).Performs source start (state.bump count)
      ((Lexeme.malformed expected count).ending state) :=
  performs_fail _ _ _

/-! ### Words and marks -/

theorem performs_word (sound : state.Sound source start) {accepts : UInt8 → Bool}
    (inline : ∀ byte, accepts byte = true → Byte.isInline byte = true) (expected : String) :
    (word accepts expected).Performs source start state
      ((Lexeme.word accepts expected state.cursor.remaining).ending state) := by
  have front := InlineFront.takeWhile inline state.cursor.remaining
  have letters :=
    List.prefix_iff_eq_take.1 (List.takeWhile_prefix accepts (l := state.cursor.remaining))
  refine (performs_offset state).bind ((performs_remaining sound).bind ?_)
  unfold Lexeme.word
  simp only [← List.length_eq_zero_iff, List.isEmpty_iff]
  split_ifs with none
  · exact performs_missing_here expected state
  · have cut := performs_textFrom_bump sound front (Nat.pos_of_ne_zero none)
    rw [← letters] at cut
    exact (performs_bump_inline sound front).bind
      (cut.bind (performs_found (sound_bump sound front)))

theorem performs_keyword (sound : state.Sound source start) {text : String}
    (letters : ∀ byte ∈ Utf8.encode text, Byte.isIdentifier byte = true) :
    (keyword text).Performs source start state
      ((Lexeme.keyword text state.cursor.remaining).ending state) := by
  refine (performs_remaining sound).bind ?_
  unfold Lexeme.keyword
  simp only [List.head?_drop]
  split_ifs with matched
  · have isFront := List.isPrefixOf_iff_prefix.1 (Bool.and_eq_true _ _ ▸ matched).1
    have front : InlineFront state.cursor.remaining (Utf8.encode text).length := by
      refine ⟨isFront.length_le, fun byte mem => ?_⟩
      rw [← List.prefix_iff_eq_take.1 isFront] at mem
      exact Byte.isInline_of_isIdentifier (letters byte mem)
    exact (performs_bump_inline sound front).bind (performs_found (sound_bump sound front))
  · have failed := @performs_fail source start String state .lexical (.keyword text)
    rwa [← state.bump_zero] at failed

theorem performs_mark (sound : state.Sound source start) {expected : UInt8}
    (inline : Byte.isInline expected = true) :
    (mark expected).Performs source start state
      ((Lexeme.mark expected state.cursor.remaining).ending state) := by
  refine (performs_peekAhead sound 0).bind ?_
  unfold Lexeme.mark
  rw [List.head?_eq_getElem?]
  split_ifs with matched
  · have front : InlineFront state.cursor.remaining 1 := by
      refine @InlineFront.one _ (· == expected) ?_ ?_
      · simp [List.head?_eq_getElem?, matched]
      · simpa using inline
    exact (performs_bump_inline sound front).bind (performs_skipGap (sound_bump sound front))
  · have failed := @performs_fail source start Unit state .structural (.byte expected)
    rwa [← state.bump_zero] at failed

theorem performs_separator (sound : state.Sound source start) :
    separator.Performs source start state (Action.separator state) := by
  have head : state.cursor.peek = state.cursor.remaining.head? := List.head?_eq_getElem?.symm
  refine (performs_peekAhead sound 0).bind ?_
  unfold Action.separator
  rw [head, ← List.head?_eq_getElem?]
  split_ifs with isThere
  · have front : InlineFront state.cursor.remaining 1 := by
      refine InlineFront.one isThere fun byte isSeparator => ?_
      grind [Byte.isInline, Byte.isSeparator, Byte.isLineEnd]
    exact (performs_bump_inline sound front).bind (performs_found (sound_bump sound front))
  · exact performs_pure _ _

/-! ### Numbers -/

/-- The letters just passed over are cut out as text and looked at as bytes again. -/
theorem performs_textFrom_encoded (sound : state.Sound source start)
    (front : InlineFront state.cursor.remaining count) (notEmpty : 0 < count) {letters : List UInt8}
    (same : state.cursor.remaining.take count = letters) :
    (textFrom state.cursor.offset).Performs source start (state.bump count)
        (.done (Utf8.text letters) (state.bump count)) ∧
      Utf8.encode (Utf8.text letters) = letters := by
  subst same
  exact ⟨performs_textFrom_bump sound front notEmpty,
    Utf8.encode_text (Utf8.valid_of_ascii front.ascii)⟩

/-- The sign, the zero and the letter in front of hexadecimal digits. -/
theorem inlineFront_hexadecimal {bytes : List UInt8} {sign : Nat} (front : InlineFront bytes sign)
    (opens : (bytes[sign]? == some Byte.zero && bytes[sign + 1]?.any Byte.isHexMark) = true) :
    InlineFront bytes (sign + 2) := by
  rw [Bool.and_eq_true, beq_iff_eq] at opens
  have zeroFront : InlineFront (bytes.drop sign) 1 := by
    refine @InlineFront.one _ (· == Byte.zero) ?_ (fun byte isZero => ?_)
    · simp [List.head?_drop, opens.1]
    · grind [Byte.isInline, Byte.isLineEnd]
  have letterFront : InlineFront (bytes.drop (sign + 1)) 1 := by
    refine .one (List.head?_drop ▸ opens.2) fun byte isMark => ?_
    exact Byte.isInline_of_isIdentifier (Byte.isIdentifier_of_isHexMark isMark)
  exact (front.add zeroFront).add letterFront

theorem performs_hexadecimal (sound : state.Sound source start) :
    hexadecimal.Performs source start state
      ((Lexeme.hexadecimal state.cursor.remaining).ending state) := by
  refine (performs_remaining sound).bind ?_
  unfold Lexeme.hexadecimal
  have signFront : InlineFront state.cursor.remaining
      (Lexeme.signLength (· == Byte.minus) state.cursor.remaining) := by
    refine .signLength (fun byte isMinus => ?_) _
    grind [Byte.isInline, Byte.isLineEnd]
  generalize Lexeme.signLength (· == Byte.minus) state.cursor.remaining = sign at signFront ⊢
  simp only [Lexeme.opensHexadecimal, List.head?_drop, List.drop_drop]
  cases opens : state.cursor.remaining[sign]? == some Byte.zero &&
      state.cursor.remaining[sign + 1]?.any Byte.isHexMark with
  | false =>
      simp only [Bool.false_eq_true, if_false]
      exact performs_missing_here _ state
  | true =>
      have openFront := inlineFront_hexadecimal signFront opens
      have digitFront := InlineFront.takeWhile (fun byte isDigit =>
        Byte.isInline_of_isIdentifier (Byte.isIdentifier_of_isHexDigit isDigit))
        (state.bump (sign + 2)).cursor.remaining
      have soundOpen := sound_bump sound openFront
      have letters := List.prefix_iff_eq_take.1 (List.takeWhile_prefix Byte.isHexDigit
        (l := (state.bump (sign + 2)).cursor.remaining))
      simp only [if_true]
      refine (performs_slice openFront.fits state).bind
        ((performs_bump_inline sound openFront).bind ?_)
      simp only [State.remaining_bump] at digitFront letters
      generalize (state.cursor.remaining.drop (sign + 2)).takeWhile Byte.isHexDigit = digits
        at digitFront letters ⊢
      by_cases none : digits = []
      · simp only [none, List.length_nil, List.isEmpty_nil, if_true]
        exact performs_missing _
      · have notEmpty : 0 < digits.length := List.length_pos_iff.2 none
        have passed := sound_bump soundOpen digitFront
        rcases performs_textFrom_encoded soundOpen digitFront notEmpty letters.symm with ⟨cut, same⟩
        simp only [List.isEmpty_iff, none, Nat.ne_of_gt notEmpty, if_false]
        refine (performs_offset _).bind ((performs_bump_inline soundOpen digitFront).bind
          (cut.bind ?_))
        rw [State.bump_bump] at passed ⊢
        rw [same]
        by_cases tooLarge : Lexeme.wordRange ≤ Numeral.value 16 digits
        · simp only [if_pos tooLarge]
          exact performs_missing _
        · simp only [if_neg tooLarge]
          exact performs_found passed

theorem performs_scientific (sound : state.Sound source start) :
    scientific.Performs source start state
      ((Lexeme.scientific state.cursor.remaining).ending state) := by
  refine (performs_offset state).bind ((performs_remaining sound).bind ?_)
  unfold Lexeme.scientific
  have signFront : InlineFront state.cursor.remaining
      (Lexeme.signLength (· == Byte.minus) state.cursor.remaining) := by
    refine .signLength (fun byte isMinus => ?_) _
    grind [Byte.isInline, Byte.isLineEnd]
  generalize Lexeme.signLength (· == Byte.minus) state.cursor.remaining = sign at signFront ⊢
  refine (performs_slice signFront.fits state).bind ?_
  have mantissaFront := signFront.add (.takeWhile (fun byte isNumeral =>
    Byte.isInline_of_isIdentifier (Byte.isIdentifier_of_isNumeral isNumeral)) _)
  simp only [List.head?_drop]
  generalize sign + ((state.cursor.remaining.drop sign).takeWhile Byte.isNumeral).length = letter
    at mantissaFront ⊢
  cases opens : state.cursor.remaining[letter]?.any Byte.isExponentMark with
  | false =>
      simp only [Bool.false_eq_true, if_false]
      exact performs_missing_here _ state
  | true =>
      have letterFront := mantissaFront.add (.one (List.head?_drop ▸ opens) fun byte isMark =>
        Byte.isInline_of_isIdentifier (Byte.isIdentifier_of_isExponentMark isMark))
      have digitFront := InlineFront.takeWhile (fun byte isDigit =>
        Byte.isInline_of_isIdentifier (Byte.isIdentifier_of_isDigit isDigit))
        (state.bump (letter + 1)).cursor.remaining
      have whole := letterFront.add digitFront
      simp only [if_true]
      refine (performs_slice letterFront.fits state).bind
        ((performs_bump_inline sound letterFront).bind ?_)
      simp only [State.remaining_bump] at digitFront whole
      generalize (state.cursor.remaining.drop (letter + 1)).takeWhile Byte.isDigit = digits
        at digitFront whole ⊢
      by_cases none : digits = []
      · simp only [none, List.length_nil, List.isEmpty_nil, if_true]
        exact performs_missing _
      · have notEmpty : 0 < digits.length := List.length_pos_iff.2 none
        have passed := sound_bump sound whole
        rcases performs_textFrom_encoded sound whole (by omega) rfl with ⟨cut, same⟩
        simp only [List.isEmpty_iff, none, Nat.ne_of_gt notEmpty, if_false]
        refine (performs_bump_inline (sound_bump sound letterFront) digitFront).bind ?_
        rw [State.bump_bump]
        refine cut.bind ?_
        rw [same]
        cases Binary64.ofLiteral? (state.cursor.remaining.take (letter + 1 + digits.length)) with
        | none => exact performs_missing _
        | some number => exact performs_found passed

theorem performs_decimal (sound : state.Sound source start) :
    decimal.Performs source start state
      ((Lexeme.decimal state.cursor.remaining).ending state) := by
  refine (performs_offset state).bind ((performs_remaining sound).bind ?_)
  unfold Lexeme.decimal
  have signFront := InlineFront.signLength (fun _ => Byte.isInline_of_isSign) state.cursor.remaining
  generalize Lexeme.signLength Byte.isSign state.cursor.remaining = sign at signFront ⊢
  refine (performs_slice signFront.fits state).bind ?_
  have bodyFront := InlineFront.takeWhile (fun byte isNumeral =>
    Byte.isInline_of_isIdentifier (Byte.isIdentifier_of_isNumeral isNumeral))
    (state.cursor.remaining.drop sign)
  have letters := List.prefix_iff_eq_take.1 (List.takeWhile_prefix Byte.isNumeral
    (l := state.cursor.remaining.drop sign))
  dsimp only
  generalize (state.cursor.remaining.drop sign).takeWhile Byte.isNumeral = body
    at bodyFront letters ⊢
  have whole := signFront.add bodyFront
  have between : (state.cursor.remaining.take (sign + body.length)).drop sign = body := by
    rw [List.drop_take, Nat.add_sub_cancel_left, ← letters]
  refine (performs_sliceBetween (Nat.le_add_right _ _) whole.fits state).bind ?_
  rw [between]
  cases digit : body.any Byte.isDigit with
  | false =>
      simp only [Bool.not_false, if_true]
      exact performs_missing_here _ state
  | true =>
      have notEmpty : 0 < body.length := by
        obtain ⟨byte, mem, -⟩ := List.any_eq_true.1 digit
        exact List.length_pos_of_mem mem
      rcases performs_textFrom_encoded sound whole (by omega) rfl with ⟨cut, same⟩
      simp only [Bool.not_true, Bool.false_eq_true, if_false]
      refine (performs_bump_inline sound whole).bind (cut.bind ?_)
      rw [same]
      split
      · next none =>
          simp only [none]
          exact performs_missing _
      · next value some =>
          simp only [some]
          exact performs_found (sound_bump sound whole)

theorem performs_integer (sound : state.Sound source start) :
    integer.Performs source start state
      ((Lexeme.integer state.cursor.remaining).ending state) := by
  refine (performs_offset state).bind ((performs_remaining sound).bind ?_)
  unfold Lexeme.integer
  have signFront := InlineFront.signLength (fun _ => Byte.isInline_of_isSign) state.cursor.remaining
  generalize Lexeme.signLength Byte.isSign state.cursor.remaining = sign at signFront ⊢
  refine (performs_slice signFront.fits state).bind ?_
  have digitFront := InlineFront.takeWhile (fun byte isDigit =>
    Byte.isInline_of_isIdentifier (Byte.isIdentifier_of_isDigit isDigit))
    (state.cursor.remaining.drop sign)
  simp only [List.head?_drop]
  generalize (state.cursor.remaining.drop sign).takeWhile Byte.isDigit = digits at digitFront ⊢
  have whole := signFront.add digitFront
  by_cases none : digits = []
  · simp only [none, List.length_nil, List.isEmpty_nil, if_true]
    exact performs_missing_here _ state
  · have notEmpty : 0 < digits.length := List.length_pos_iff.2 none
    simp only [List.isEmpty_iff, none, Nat.ne_of_gt notEmpty, if_false]
    split_ifs with goesOn
    · exact (performs_bump_inline sound whole).bind (performs_missing _)
    · rcases performs_textFrom_encoded sound whole (by omega) rfl with ⟨cut, same⟩
      refine (performs_bump_inline sound whole).bind (cut.bind ?_)
      rw [same]
      cases Lexeme.int64? (state.cursor.remaining.take (sign + digits.length)) with
      | none => exact performs_missing _
      | some number => exact performs_found (sound_bump sound whole)

end Procedure

/-! ### Quoted text -/

namespace Lexeme

/-- The closing quote stands behind the text that it ends. -/
theorem closingPlace_eq (quote : UInt8) (bytes : List UInt8) (place : Nat) :
    closingPlace quote bytes place =
      (untilQuote quote (bytes.drop place)).map fun content => place + content.length := by
  fun_induction closingPlace quote bytes place with
  | case1 place none =>
      rw [List.drop_of_length_le (List.getElem?_eq_none_iff.1 none)]
      rfl
  | case2 place found =>
      obtain ⟨inside, rfl⟩ := List.getElem?_eq_some_iff.1 found
      rw [List.drop_eq_getElem_cons inside, untilQuote.eq_def]
      simp
  | case3 place byte found differ ih =>
      obtain ⟨inside, rfl⟩ := List.getElem?_eq_some_iff.1 found
      rw [List.drop_eq_getElem_cons inside, untilQuote.eq_def]
      simp only [dite_eq_ite] at ih
      rw [ih]
      -- A backslash takes the byte behind it along, also if that is none.
      by_cases backslash : bytes[place] = Byte.backslash
      · have next : bytes.drop (place + 2) = (bytes.drop (place + 1)).drop 1 := by
          rw [List.drop_drop]
        simp only [backslash, if_true, if_neg (backslash ▸ differ), next]
        cases bytes.drop (place + 1) with
        | nil => simp [untilQuote]
        | cons shielded after =>
            simp only [List.drop_succ_cons, List.drop_zero, Option.map_map]
            congr 1
            funext content
            simp
            omega
      · simp only [backslash, if_false, if_neg differ, Option.map_map]
        congr 1
        funext content
        simp
        omega

theorem idxOf?_eq (quote : UInt8) (bytes : List UInt8) :
    bytes.idxOf? quote = (untilFirstQuote quote bytes).map List.length := by
  induction bytes with
  | nil => rfl
  | cons byte rest ih =>
      rw [List.idxOf?_cons, untilFirstQuote, ih]
      by_cases same : byte = quote
      · simp [same]
      · simp [same]
        rfl

end Lexeme

namespace State.Sound

variable {state : State} {quote : UInt8} {rest : List UInt8}

/-- Behind a quote there is one among the bytes that were passed over. -/
theorem any_isQuote (sound : state.Sound source start)
    (head : state.cursor.remaining = quote :: rest) (isQuote : Byte.isQuote quote = true) {last : Nat}
    (behind : state.cursor.offset < last) :
    ((source.take last).drop start).any Byte.isQuote = true := by
  have starts : start ≤ state.cursor.offset := sound.mark.starts
  refine List.any_eq_true.2 ⟨quote, ?_, isQuote⟩
  apply List.mem_of_getElem? (i := state.cursor.offset - start)
  have here : source[state.cursor.offset]? = some quote := by
    rw [← List.head?_drop, ← sound.remaining, head]
    rfl
  rw [List.getElem?_drop, Nat.add_sub_cancel' starts, List.getElem?_take_of_lt behind, here]

end State.Sound

namespace Procedure

variable {state : State} {quote : UInt8} {content after : List UInt8}

theorem performs_bump_quoted (sound : state.Sound source start) {count : Nat}
    (fits : count ≤ state.cursor.remaining.length)
    (quoted : ((source.take (state.cursor.offset + count)).drop start).any Byte.isQuote = true)
    (valid : Utf8.Valid state.cursor.remaining → Utf8.Valid (state.cursor.remaining.drop count)) :
    (bump count).Performs source start state (.done () (state.bump count)) :=
  performs_bump sound fits (.bump_quoted fits quoted valid)

/-- Passing over a quote, be it the opening or the closing one. -/
theorem performs_quote (sound : state.Sound source start) {rest : List UInt8}
    (head : state.cursor.remaining = quote :: rest) (isQuote : Byte.isQuote quote = true) :
    (bump 1).Performs source start state (.done () (state.bump 1)) := by
  refine performs_bump_inline sound (.one ?_ fun _ => Byte.isInline_of_isQuote)
  simp [head, isQuote]

/-- Without a closing quote everything is passed over. -/
theorem performs_unclosed (sound : state.Sound source start) {rest : List UInt8}
    (head : state.cursor.remaining = quote :: rest) (isQuote : Byte.isQuote quote = true)
    (expected : String) :
    (do bump state.cursor.remaining.length; missing expected : Procedure String).Performs source start
      state ((Lexeme.malformed expected state.cursor.remaining.length).ending state) := by
  have quoted := sound.any_isQuote head isQuote
    (show state.cursor.offset < state.cursor.offset + state.cursor.remaining.length by simp [head])
  refine (performs_bump_quoted sound (Nat.le_refl _) quoted fun _ => ?_).bind (performs_missing _)
  rw [List.drop_length]
  exact Utf8.valid_nil

/-- The text between two quotes is cut out as it is, and the closing quote is passed over. -/
theorem performs_content (sound : state.Sound source start)
    (bytes : state.cursor.remaining = quote :: (content ++ quote :: after))
    (isQuote : Byte.isQuote quote = true)
    (passed : (state.bump (1 + content.length)).Sound source start) :
    (do
        let text ← textFrom (state.cursor.offset + 1)
        bump 1
        skipGap
        return text).Performs source start (state.bump (1 + content.length))
      ((Lexeme.found (Utf8.text content) (content.length + 2)).ending state) := by
  have ascii := Byte.ascii_of_isQuote isQuote
  have inline := Byte.isInline_of_isQuote isQuote
  have soundOpen : (state.bump 1).Sound source start :=
    (performs_quote sound bytes isQuote).sound sound
  have offsetOpen : (state.bump 1).cursor.offset = state.cursor.offset + 1 :=
    state.offset_bump (by simp [bytes])
  have fits : 1 + content.length ≤ state.cursor.remaining.length := by
    simp only [bytes, List.length_cons, List.length_append]
    omega
  have offset := state.offset_bump fits
  have remaining : (state.bump (1 + content.length)).cursor.remaining = quote :: after := by
    simp [bytes, Nat.add_comm 1]
  have boundary : Utf8.isBoundary source (state.cursor.offset + 1) = true := by
    rw [← offsetOpen]
    apply soundOpen.isBoundary_of_last ?_ ascii
    · exact source.take state.cursor.offset
    · rw [offsetOpen, List.take_add, ← sound.remaining, bytes]
      rfl
  have boundaryAfter := passed.isBoundary_of_head remaining ascii
  have between : source.drop (state.cursor.offset + 1) =
      content ++ (state.bump (1 + content.length)).cursor.remaining := by
    rw [← List.drop_drop, ← sound.remaining, bytes, remaining]
    rfl
  have cut := performs_textFrom passed between (by omega) boundary boundaryAfter
  have closing := performs_quote passed remaining isQuote
  have soundClosed := closing.sound passed
  refine cut.bind (closing.bind ?_)
  have count : 1 + content.length + 1 = content.length + 2 := by omega
  simp only [Outcome.state, State.bump_bump, count] at soundClosed ⊢
  exact performs_found soundClosed

/-- Without an opening quote there is nothing to pass over; the rest is up to the bytes behind it. -/
theorem performs_quoted (sound : state.Sound source start)
    {body : UInt8 → List UInt8 → Option (List UInt8)} {opening closing : String}
    {scan : List UInt8 → UInt8 → Procedure String}
    (opened : ∀ quote rest, state.cursor.remaining = quote :: rest → Byte.isQuote quote = true →
      (scan (quote :: rest) quote).Performs source start state
        ((match body quote rest with
          | some content => Lexeme.found (Utf8.text content) (content.length + 2)
          | none => Lexeme.malformed closing (quote :: rest).length).ending state)) :
    (do
        let bytes ← remaining
        match bytes.head?.filter Byte.isQuote with
        | none => missing opening
        | some quote => scan bytes quote).Performs source start state
      ((Lexeme.quoted body opening closing state.cursor.remaining).ending state) := by
  refine (performs_remaining sound).bind ?_
  unfold Lexeme.quoted
  cases bytes : state.cursor.remaining with
  | nil => exact performs_missing_here _ state
  | cons quote rest =>
      cases isQuote : Byte.isQuote quote with
      | false =>
          simp only [List.head?_cons, Option.filter_some, isQuote, Bool.false_eq_true, if_false]
          exact performs_missing_here _ state
      | true =>
          simp only [List.head?_cons, Option.filter_some, isQuote, if_true]
          exact opened quote rest bytes isQuote

theorem performs_string (sound : state.Sound source start) :
    string.Performs source start state ((Lexeme.quoted Lexeme.untilQuote "string literal"
      "closing quote of string literal" state.cursor.remaining).ending state) := by
  refine performs_quoted sound fun quote rest bytes isQuote => ?_
  have ascii := Byte.ascii_of_isQuote isQuote
  simp only [Lexeme.closingPlace_eq, List.drop_succ_cons, List.drop_zero]
  cases closed : Lexeme.untilQuote quote rest with
  | none =>
      have unclosed := performs_unclosed sound bytes isQuote "closing quote of string literal"
      rwa [bytes] at unclosed
  | some content =>
      obtain ⟨after, rfl⟩ := Lexeme.untilQuote_readsBody quote rest content closed
      have fits : 1 + content.length ≤ state.cursor.remaining.length := by
        simp [bytes]
        omega
      have quoted := sound.any_isQuote bytes isQuote
        (show state.cursor.offset < state.cursor.offset + (1 + content.length) by omega)
      have passes := performs_bump_quoted sound fits quoted fun valid => by
        rw [bytes] at valid ⊢
        rw [Nat.add_comm, List.drop_succ_cons, List.drop_left]
        exact (valid.tail ascii).of_append_cons_ascii ascii
      exact (performs_offset state).bind
        (passes.bind (performs_content sound bytes isQuote (passes.sound sound)))

theorem performs_path (sound : state.Sound source start) :
    path.Performs source start state ((Lexeme.quoted Lexeme.untilFirstQuote "quoted include path"
      "closing quote of include path" state.cursor.remaining).ending state) := by
  refine performs_quoted sound fun quote rest bytes isQuote => ?_
  have ascii := Byte.ascii_of_isQuote isQuote
  refine (performs_slice (by simp) state).bind ?_
  simp only [Lexeme.idxOf?_eq, List.drop_succ_cons, List.drop_zero]
  cases closed : Lexeme.untilFirstQuote quote rest with
  | none =>
      have unclosed := performs_unclosed sound bytes isQuote "closing quote of include path"
      rwa [bytes] at unclosed
  | some content =>
      obtain ⟨after, rfl⟩ := Lexeme.untilFirstQuote_readsBody quote rest content closed
      have opening := performs_quote sound bytes isQuote
      have soundOpen : (state.bump 1).Sound source start := opening.sound sound
      have offsetOpen : (state.bump 1).cursor.offset = state.cursor.offset + 1 :=
        state.offset_bump (by simp [bytes])
      have fits : content.length ≤ (state.bump 1).cursor.remaining.length := by simp [bytes]
      have quoted := sound.any_isQuote bytes isQuote
        (show state.cursor.offset < (state.bump 1).cursor.offset + content.length by omega)
      have passes := performs_bump_quoted soundOpen fits quoted fun valid => by
        rw [State.remaining_bump, bytes] at valid ⊢
        rw [List.drop_succ_cons, List.drop_zero, List.drop_left]
        exact valid.of_append_cons_ascii ascii
      refine opening.bind ((performs_offset _).bind (passes.bind ?_))
      have passed := passes.sound soundOpen
      simp only [Outcome.state, State.bump_bump, offsetOpen] at passed ⊢
      exact performs_content sound bytes isQuote passed

end Procedure

/-- Scanning a token step by step ends as reading it does. -/
theorem Token.performs_scan {token : Token α} (plain : token.isPlain = true) {state : State}
    (sound : state.Sound source start) :
    token.scan.Performs source start state (Action.take token state) := by
  rw [Action.take_eq]
  cases token with
  | identifier => exact Procedure.performs_word sound (fun _ => Byte.isInline_of_isIdentifier) _
  | scope => exact Procedure.performs_word sound (fun _ => Byte.isInline_of_isScope) _
  | keyword word =>
      simp only [isPlain, Bool.and_eq_true, List.all_eq_true] at plain
      exact Procedure.performs_keyword sound plain.2
  | mark byte =>
      refine Procedure.performs_mark sound ?_
      grind [isPlain, Gap.isBarrier, Byte.isSpace, Byte.isInline]
  | hexadecimal => exact Procedure.performs_hexadecimal sound
  | scientific => exact Procedure.performs_scientific sound
  | decimal => exact Procedure.performs_decimal sound
  | integer => exact Procedure.performs_integer sound
  | string => exact Procedure.performs_string sound
  | path => exact Procedure.performs_path sound

end ThriftIdl
