import ThriftIdl.Grammar.Token
import ThriftIdl.Proofs.Source.Gap
import ThriftIdl.Proofs.Text.Utf8

/-!
# Laws of lexemes

What a token looks like decides where it can stand and what can stand behind it. A token is found
only where one of its first bytes is (`Token.opens`), it takes at least one byte and no more than
there are, and except for quoted text it never looks beyond the first byte that cannot continue it
(`Token.recognize_append`). The last law makes tokens independent of whatever comes later in the
source, be it a gap, another token or the end.
-/

namespace ThriftIdl

namespace Byte

theorem isIdentifier_of_isNumeral {byte : UInt8} (numeral : isNumeral byte = true) :
    isIdentifier byte = true := by
  grind [isNumeral, isIdentifier]

theorem isIdentifier_of_isDigit {byte : UInt8} (digit : isDigit byte = true) :
    isIdentifier byte = true := by
  grind [isIdentifier]

theorem isIdentifier_of_isHexDigit {byte : UInt8} (digit : isHexDigit byte = true) :
    isIdentifier byte = true := by
  grind [isHexDigit, isIdentifier, isLetter]

theorem isIdentifier_of_isHexMark {byte : UInt8} (mark : isHexMark byte = true) :
    isIdentifier byte = true := by
  grind [isHexMark, isIdentifier, isLetter]

theorem isIdentifier_of_isExponentMark {byte : UInt8} (mark : isExponentMark byte = true) :
    isIdentifier byte = true := by
  grind [isExponentMark, isIdentifier, isLetter]

theorem isScope_of_isIdentifier {byte : UInt8} (letter : isIdentifier byte = true) :
    isScope byte = true := by
  grind [isScope]

theorem ascii_of_isScope {byte : UInt8} (letter : isScope byte = true) : byte < 0x80 := by
  grind [isScope, isIdentifier, isDigit, isLetter]

theorem ascii_of_isQuote {byte : UInt8} (quote : isQuote byte = true) : byte < 0x80 := by
  grind [isQuote]

/-- A byte with which a gap may begin is part of no name. -/
theorem isScope_of_not_isBarrier {byte : UInt8} (gap : Gap.isBarrier byte = false) :
    isScope byte = false := by
  grind [Gap.isBarrier, isSpace, isBlank, isLineEnd, isScope, isIdentifier, isDigit, isLetter]

theorem isBarrier_of_isScope {byte : UInt8} (letter : isScope byte = true) :
    Gap.isBarrier byte = true := by
  grind [Gap.isBarrier, isSpace, isBlank, isLineEnd, isScope, isIdentifier, isDigit, isLetter]

theorem isBarrier_of_isQuote {byte : UInt8} (quote : isQuote byte = true) :
    Gap.isBarrier byte = true := by
  grind [isQuote, Gap.isBarrier, isSpace, isBlank, isLineEnd]

theorem isScope_of_isQuote {byte : UInt8} (quote : isQuote byte = true) :
    isScope byte = false := by
  grind [isQuote, isScope, isIdentifier, isDigit, isLetter]

theorem isQuote_of_isIdentifier {byte : UInt8} (letter : isIdentifier byte = true) :
    isQuote byte = false := by
  grind [isQuote, isIdentifier, isDigit, isLetter]

end Byte

/-- Whether bytes are at their end or go on with a byte outside a class. -/
def Stops (accepts : UInt8 → Bool) (bytes : List UInt8) : Prop :=
  bytes.head?.any accepts = false

namespace Stops

variable {accepts other : UInt8 → Bool} {front back : List UInt8}

theorem mono (stops : Stops accepts back)
    (weaker : ∀ byte, other byte = true → accepts byte = true) : Stops other back := by
  unfold Stops at stops ⊢
  cases back with
  | nil => rfl
  | cons byte tail =>
      simp only [List.head?_cons, Option.any_some] at stops ⊢
      exact Bool.eq_false_iff.2 fun accepted => by simp [weaker byte accepted] at stops

theorem any_head?_append (stops : Stops accepts back) :
    (front ++ back).head?.any accepts = front.head?.any accepts := by
  cases front with
  | nil => exact stops
  | cons byte tail => rfl

theorem takeWhile_append (stops : Stops accepts back) :
    (front ++ back).takeWhile accepts = front.takeWhile accepts := by
  induction front with
  | nil =>
      cases back with
      | nil => rfl
      | cons byte tail => exact List.takeWhile_cons_of_neg (by simpa [Stops] using stops)
  | cons byte tail ih => simp only [List.cons_append, List.takeWhile_cons, ih]

end Stops

theorem stops_nil (accepts : UInt8 → Bool) : Stops accepts [] := rfl

theorem stops_cons {accepts : UInt8 → Bool} {byte : UInt8} {tail : List UInt8} :
    Stops accepts (byte :: tail) ↔ accepts byte = false := Iff.rfl

/-- Bytes that go on with a byte of one class do not go on with one of a disjoint class. -/
theorem stops_of_any_head? {accepts other : UInt8 → Bool} {bytes : List UInt8}
    (goesOn : bytes.head?.any other = true)
    (disjoint : ∀ byte, other byte = true → accepts byte = false) : Stops accepts bytes := by
  cases bytes with
  | nil => cases goesOn
  | cons byte tail => exact disjoint byte (by simpa using goesOn)

theorem any_head?_mono {accepts other : UInt8 → Bool} {bytes : List UInt8}
    (goesOn : bytes.head?.any other = true)
    (weaker : ∀ byte, other byte = true → accepts byte = true) :
    bytes.head?.any accepts = true := by
  cases bytes with
  | nil => cases goesOn
  | cons byte tail => exact weaker byte (by simpa using goesOn)

/-- No gap begins with a byte of a name. -/
theorem stops_of_filler {gap : List UInt8} (filler : Gap.Filler gap) (notEmpty : gap ≠ [])
    (tail : List UInt8) : Stops Byte.isScope (gap ++ tail) := by
  cases filler with
  | nil => exact absurd rfl notEmpty
  | space space _ =>
      refine stops_cons.2 (Byte.isScope_of_not_isBarrier ?_)
      simp [Gap.isBarrier, space]
  | block _ _ => exact stops_cons.2 rfl
  | line opens _ _ _ => rcases opens with rfl | rfl <;> exact stops_cons.2 rfl

theorem stops_of_trailing {gap : List UInt8} (trailing : Gap.Trailing gap) :
    Stops Byte.isScope gap := by
  rcases trailing with ⟨filler, comment, isFiller, isOpen, rfl⟩
  by_cases empty : filler = []
  · subst empty
    rcases isOpen with rfl | isOpen
    · exact stops_nil _
    · cases isOpen with
      | block _ => exact stops_cons.2 rfl
      | line opens _ => rcases opens with rfl | rfl <;> exact stops_cons.2 rfl
  · exact stops_of_filler isFiller empty comment

namespace Lexeme

variable {front back : List UInt8}

theorem word_append {accepts : UInt8 → Bool} (expected : String) (stops : Stops accepts back) :
    word accepts expected (front ++ back) = word accepts expected front := by
  simp only [word, stops.takeWhile_append]

theorem keyword_append {text : String} (letters : (Utf8.encode text).all Byte.isIdentifier = true)
    (stops : Stops Byte.isIdentifier back) :
    keyword text (front ++ back) = keyword text front := by
  unfold keyword
  generalize Utf8.encode text = spelled at *
  by_cases short : spelled.length ≤ front.length
  · have sameStart : spelled.isPrefixOf (front ++ back) = spelled.isPrefixOf front := by
      rw [Bool.eq_iff_iff, List.isPrefixOf_iff_prefix, List.isPrefixOf_iff_prefix]
      exact ⟨fun whole => List.prefix_of_prefix_length_le whole (List.prefix_append front back) short,
        fun part => part.trans (List.prefix_append front back)⟩
    simp only [sameStart, List.drop_append_of_le_length short, stops.any_head?_append]
  · -- the word is longer than the front, so it would go on into the back, which it cannot
    have frontFails : spelled.isPrefixOf front = false := by
      rw [Bool.eq_false_iff, ne_eq, List.isPrefixOf_iff_prefix]
      exact fun part => short part.length_le
    have wholeFails : spelled.isPrefixOf (front ++ back) = false := by
      rw [Bool.eq_false_iff, ne_eq, List.isPrefixOf_iff_prefix]
      intro whole
      obtain ⟨later, rfl⟩ := List.prefix_of_prefix_length_le (List.prefix_append front back) whole
        (by omega)
      have inBack := (List.prefix_append_right_inj front).1 whole
      cases later with
      | nil => simp at short
      | cons byte later =>
          obtain ⟨after, rfl⟩ := inBack
          simp_all [Stops]
    simp only [frontFails, wholeFails, Bool.false_and]

theorem mark_append {expected : UInt8} (notEmpty : front ≠ []) :
    mark expected (front ++ back) = mark expected front := by
  simp only [mark, List.head?_append_of_ne_nil front notEmpty]

theorem signLength_append {isSign : UInt8 → Bool} (notEmpty : front ≠ []) :
    signLength isSign (front ++ back) = signLength isSign front := by
  simp only [signLength, List.head?_append_of_ne_nil front notEmpty]

theorem signLength_le (isSign : UInt8 → Bool) (bytes : List UInt8) :
    signLength isSign bytes ≤ bytes.length := by
  unfold signLength
  cases bytes with
  | nil => simp
  | cons byte tail => split_ifs <;> simp

theorem opensHexadecimal_append (stops : Stops Byte.isIdentifier back) :
    opensHexadecimal (front ++ back) = opensHexadecimal front := by
  have noMark : Stops Byte.isHexMark back := stops.mono fun _ => Byte.isIdentifier_of_isHexMark
  cases front with
  | nil =>
      cases back with
      | nil => rfl
      | cons byte tail =>
          have notZero : byte ≠ Byte.zero := by
            rintro rfl
            exact absurd (stops_cons.1 stops) (by decide)
          simp [opensHexadecimal, notZero]
  | cons byte tail =>
      have sameMark := @Stops.any_head?_append _ tail _ noMark
      simp only [opensHexadecimal, List.cons_append, List.head?_cons, List.drop_one,
        List.tail_cons, sameMark]

theorem two_le_of_opensHexadecimal {bytes : List UInt8} (opens : opensHexadecimal bytes = true) :
    2 ≤ bytes.length := by
  match bytes with
  | [] => simp [opensHexadecimal] at opens
  | [byte] => simp [opensHexadecimal] at opens
  | _ :: _ :: _ => simp

theorem hexadecimal_append (notEmpty : front ≠ []) (stops : Stops Byte.isIdentifier back) :
    hexadecimal (front ++ back) = hexadecimal front := by
  have digitStops : Stops Byte.isHexDigit back :=
    stops.mono fun _ => Byte.isIdentifier_of_isHexDigit
  have signFits := signLength_le (· == Byte.minus) front
  simp only [hexadecimal, signLength_append notEmpty, List.drop_append_of_le_length signFits,
    opensHexadecimal_append stops]
  generalize signLength (· == Byte.minus) front = sign at *
  cases opens : opensHexadecimal (front.drop sign) with
  | false => simp
  | true =>
      have prefixFits : sign + 2 ≤ front.length := by
        have := two_le_of_opensHexadecimal opens
        rw [List.length_drop] at this
        omega
      simp only [List.drop_append_of_le_length prefixFits, digitStops.takeWhile_append]

theorem length_takeWhile_drop_le (accepts : UInt8 → Bool) {count : Nat} {bytes : List UInt8}
    (fits : count ≤ bytes.length) :
    count + ((bytes.drop count).takeWhile accepts).length ≤ bytes.length := by
  have := (List.takeWhile_prefix accepts (l := bytes.drop count)).length_le
  rw [List.length_drop] at this
  omega

theorem lt_of_any_head?_drop {accepts : UInt8 → Bool} {count : Nat} {bytes : List UInt8}
    (found : (bytes.drop count).head?.any accepts = true) : count < bytes.length := by
  by_contra beyond
  simp [List.drop_of_length_le (Nat.le_of_not_lt beyond)] at found

theorem scientific_append (notEmpty : front ≠ []) (stops : Stops Byte.isIdentifier back) :
    scientific (front ++ back) = scientific front := by
  have numeralStops : Stops Byte.isNumeral back :=
    stops.mono fun _ => Byte.isIdentifier_of_isNumeral
  have letterStops : Stops Byte.isExponentMark back :=
    stops.mono fun _ => Byte.isIdentifier_of_isExponentMark
  have digitStops : Stops Byte.isDigit back := stops.mono fun _ => Byte.isIdentifier_of_isDigit
  have signFits := signLength_le (· == Byte.minus) front
  unfold scientific
  simp only [signLength_append notEmpty, List.drop_append_of_le_length signFits,
    numeralStops.takeWhile_append]
  generalize signLength (· == Byte.minus) front = sign at *
  have mantissaFits := length_takeWhile_drop_le Byte.isNumeral signFits
  generalize sign + ((front.drop sign).takeWhile Byte.isNumeral).length = letter at *
  simp only [List.drop_append_of_le_length mantissaFits, letterStops.any_head?_append]
  cases found : (front.drop letter).head?.any Byte.isExponentMark with
  | false => simp
  | true =>
      have letterFits : letter + 1 ≤ front.length := lt_of_any_head?_drop found
      have exponentFits := length_takeWhile_drop_le Byte.isDigit letterFits
      simp only [List.drop_append_of_le_length letterFits, digitStops.takeWhile_append,
        List.take_append_of_le_length exponentFits]

theorem decimal_append (notEmpty : front ≠ []) (stops : Stops Byte.isIdentifier back) :
    decimal (front ++ back) = decimal front := by
  have numeralStops : Stops Byte.isNumeral back :=
    stops.mono fun _ => Byte.isIdentifier_of_isNumeral
  have signFits := signLength_le Byte.isSign front
  have bodyFits := length_takeWhile_drop_le Byte.isNumeral signFits
  simp only [decimal, signLength_append notEmpty, List.drop_append_of_le_length signFits,
    numeralStops.takeWhile_append, List.take_append_of_le_length bodyFits]

theorem integer_append (notEmpty : front ≠ []) (stops : Stops Byte.isIdentifier back) :
    integer (front ++ back) = integer front := by
  have digitStops : Stops Byte.isDigit back := stops.mono fun _ => Byte.isIdentifier_of_isDigit
  have continuesStops : Stops continuesNumber back := by
    refine stops.mono fun byte continued => ?_
    grind [continuesNumber, Byte.isExponentMark, Byte.isHexMark, Byte.isIdentifier, Byte.isLetter]
  have signFits := signLength_le Byte.isSign front
  have digitsFit := length_takeWhile_drop_le Byte.isDigit signFits
  simp only [integer, signLength_append notEmpty, List.drop_append_of_le_length signFits,
    digitStops.takeWhile_append, List.drop_append_of_le_length digitsFit,
    continuesStops.any_head?_append, List.take_append_of_le_length digitsFit]

/-- A token with a certain length that begins with a byte of a class. -/
structure Spans (opens : UInt8 → Bool) (bytes : List UInt8) (length : Nat) : Prop where
  head : bytes.head?.any opens = true
  positive : 0 < length
  fits : length ≤ bytes.length

variable {bytes : List UInt8} {length : Nat}

theorem word_spans {accepts : UInt8 → Bool} {expected value : String}
    (found : word accepts expected bytes = .found value length) :
    Spans accepts bytes length := by
  simp only [word, malformed] at found
  split at found
  · cases found
  · next notEmpty =>
      cases found
      have fits := (List.takeWhile_prefix accepts (l := bytes)).length_le
      cases bytes with
      | nil => simp at notEmpty
      | cons byte tail =>
          cases accepted : accepts byte with
          | false => simp [accepted] at notEmpty
          | true => exact ⟨by simp [accepted], by simp [accepted], fits⟩

theorem keyword_spans {text value : String} (notEmpty : (Utf8.encode text).isEmpty = false)
    (found : keyword text bytes = .found value length) :
    Spans (fun byte => (Utf8.encode text).head? == some byte) bytes length := by
  simp only [keyword] at found
  split at found
  · next matched =>
      cases found
      rw [Bool.and_eq_true, List.isPrefixOf_iff_prefix] at matched
      obtain ⟨⟨after, rfl⟩, -⟩ := matched
      cases spelled : Utf8.encode text with
      | nil => simp [spelled] at notEmpty
      | cons byte tail => exact ⟨by simp, by simp, by simp⟩
  · cases found

theorem mark_spans {expected : UInt8} {value : Unit}
    (found : mark expected bytes = .found value length) :
    Spans (· == expected) bytes length := by
  simp only [mark] at found
  split at found
  · next matched =>
      cases found
      cases bytes with
      | nil => cases matched
      | cons byte tail => exact ⟨by simpa using matched, by simp, by simp⟩
  · cases found

/-- A number begins with its sign or with what stands behind the place for one. -/
theorem any_head?_sign_or {isSign isNext : UInt8 → Bool}
    (next : (bytes.drop (signLength isSign bytes)).head?.any isNext = true) :
    bytes.head?.any (fun byte => isSign byte || isNext byte) = true := by
  cases bytes with
  | nil => simp at next
  | cons byte tail =>
      cases sign : isSign byte with
      | true => simp [sign]
      | false => simpa [signLength, sign] using next

theorem any_head?_of_any_takeWhile {accepts other : UInt8 → Bool}
    (any : (bytes.takeWhile accepts).any other = true) : bytes.head?.any accepts = true := by
  cases bytes with
  | nil => simp at any
  | cons byte tail =>
      cases accepted : accepts byte with
      | false => simp [accepted] at any
      | true => simpa using accepted

theorem hexadecimal_spans {value : Int64} (found : hexadecimal bytes = .found value length) :
    Spans (fun byte => byte == Byte.minus || byte == Byte.zero) bytes length := by
  simp only [hexadecimal, malformed] at found
  split at found
  · next opens =>
      split at found
      · cases found
      · split at found
        · cases found
        · cases found
          have signFits := signLength_le (· == Byte.minus) bytes
          have prefixFits := two_le_of_opensHexadecimal opens
          rw [List.length_drop] at prefixFits
          refine ⟨any_head?_sign_or ?_, by omega, length_takeWhile_drop_le _ (by omega)⟩
          rw [opensHexadecimal, Bool.and_eq_true, beq_iff_eq] at opens
          rw [opens.1]
          rfl
  · cases found

theorem scientific_spans {value : Binary64} (found : scientific bytes = .found value length) :
    Spans (fun byte => byte == Byte.minus || Byte.isNumeral byte || Byte.isExponentMark byte)
      bytes length := by
  simp only [scientific, malformed] at found
  split at found
  · next letter =>
      split at found
      · cases found
      · split at found
        · cases found
          have signFits := signLength_le (· == Byte.minus) bytes
          have letterFits := lt_of_any_head?_drop letter
          refine ⟨?_, by omega, length_takeWhile_drop_le _ letterFits⟩
          simp only [Bool.or_assoc]
          apply any_head?_sign_or
          rw [← List.drop_drop] at letter
          cases behind : bytes.drop (signLength (· == Byte.minus) bytes) with
          | nil => simp [behind] at letter
          | cons byte tail =>
              cases numeral : Byte.isNumeral byte with
              | true => simp [numeral]
              | false => simpa [behind, numeral] using letter
        · cases found
  · cases found

theorem decimal_spans {value : Value} (found : decimal bytes = .found value length) :
    Spans (fun byte => Byte.isSign byte || Byte.isNumeral byte) bytes length := by
  simp only [decimal, malformed] at found
  split at found
  · cases found
  · next digits =>
      split at found
      · cases found
        rw [Bool.not_eq_true', Bool.not_eq_false] at digits
        have signFits := signLength_le Byte.isSign bytes
        refine ⟨any_head?_sign_or (any_head?_of_any_takeWhile digits), ?_,
          length_takeWhile_drop_le _ signFits⟩
        obtain ⟨byte, mem, -⟩ := List.any_eq_true.1 digits
        have := List.length_pos_of_mem mem
        omega
      · cases found

theorem integer_spans {value : Int64} (found : integer bytes = .found value length) :
    Spans (fun byte => Byte.isSign byte || Byte.isDigit byte) bytes length := by
  simp only [integer, malformed] at found
  split at found
  · cases found
  · next digits =>
      split at found
      · cases found
      · split at found
        · cases found
          have signFits := signLength_le Byte.isSign bytes
          refine ⟨?_, ?_, length_takeWhile_drop_le _ signFits⟩
          · apply any_head?_sign_or
            cases behind : bytes.drop (signLength Byte.isSign bytes) with
            | nil => simp [behind] at digits
            | cons byte tail =>
                cases digit : Byte.isDigit byte with
                | true => simp [digit]
                | false => simp [behind, digit] at digits
          · have := List.length_pos_iff.2 (mt List.isEmpty_iff.2 digits)
            omega
        · cases found

/-- What stands between quotes comes before a closing quote. -/
def ReadsBody (body : UInt8 → List UInt8 → Option (List UInt8)) : Prop :=
  ∀ quote bytes content, body quote bytes = some content →
    ∃ after, bytes = content ++ quote :: after

theorem untilQuote_readsBody : ReadsBody untilQuote := by
  intro quote bytes content found
  fun_induction untilQuote quote bytes generalizing content with
  | case1 => cases found
  | case2 rest => cases found; exact ⟨rest, rfl⟩
  | case3 => cases found
  | case4 shielded after _ ih =>
      obtain ⟨body, inside, rfl⟩ := Option.map_eq_some_iff.1 found
      obtain ⟨last, rfl⟩ := ih body inside
      exact ⟨last, rfl⟩
  | case5 byte rest _ _ ih =>
      obtain ⟨body, inside, rfl⟩ := Option.map_eq_some_iff.1 found
      obtain ⟨last, rfl⟩ := ih body inside
      exact ⟨last, rfl⟩

theorem untilFirstQuote_readsBody : ReadsBody untilFirstQuote := by
  intro quote bytes content found
  fun_induction untilFirstQuote quote bytes generalizing content with
  | case1 => cases found
  | case2 rest => cases found; exact ⟨rest, rfl⟩
  | case3 byte rest _ ih =>
      obtain ⟨body, inside, rfl⟩ := Option.map_eq_some_iff.1 found
      obtain ⟨last, rfl⟩ := ih body inside
      exact ⟨last, rfl⟩

theorem untilFirstQuote_append {quote : UInt8} {body : List UInt8} (noQuote : quote ∉ body)
    (after : List UInt8) : untilFirstQuote quote (body ++ quote :: after) = some body := by
  induction body with
  | nil => simp [untilFirstQuote]
  | cons byte body ih =>
      rw [List.mem_cons, not_or] at noQuote
      simp [untilFirstQuote, Ne.symm noQuote.1, ih noQuote.2]

theorem untilQuote_quote (quote : UInt8) (after : List UInt8) :
    untilQuote quote (quote :: after) = some [] := by
  rw [untilQuote.eq_def]
  simp

/-- Bytes that are neither quotes nor backslashes are passed over one by one. -/
theorem untilQuote_plain_append {quote : UInt8} {plain : List UInt8} (noQuote : quote ∉ plain)
    (noBackslash : Byte.backslash ∉ plain) (back : List UInt8) :
    untilQuote quote (plain ++ back) = (untilQuote quote back).map (plain ++ ·) := by
  induction plain with
  | nil => simp
  | cons byte plain ih =>
      rw [List.mem_cons, not_or] at noQuote noBackslash
      rw [List.cons_append, untilQuote.eq_def]
      simp only [Ne.symm noQuote.1, Ne.symm noBackslash.1, if_false]
      rw [ih noQuote.2 noBackslash.2, Option.map_map]
      rfl

/-- A backslash takes the byte behind it along, whichever it is. -/
theorem untilQuote_escape {quote : UInt8} (differ : Byte.backslash ≠ quote) (byte : UInt8)
    (back : List UInt8) :
    untilQuote quote (Byte.backslash :: byte :: back) =
      (untilQuote quote back).map fun body => Byte.backslash :: byte :: body := by
  rw [untilQuote.eq_def]
  simp [differ]

/-- Without backslashes, the two ways to look for a closing quote are the same. -/
theorem untilQuote_append {quote : UInt8} {body : List UInt8} (noQuote : quote ∉ body)
    (noBackslash : Byte.backslash ∉ body) (after : List UInt8) :
    untilQuote quote (body ++ quote :: after) = some body := by
  rw [untilQuote_plain_append noQuote noBackslash, untilQuote_quote]
  simp

/-- Whatever comes behind it, a text is closed by the quote that closes it. -/
theorem untilQuote_content {quote : UInt8} {bytes content : List UInt8}
    (found : untilQuote quote bytes = some content) (more : List UInt8) :
    untilQuote quote (content ++ quote :: more) = some content := by
  fun_induction untilQuote quote bytes generalizing content with
  | case1 => cases found
  | case2 rest => cases found; exact untilQuote_quote quote more
  | case3 => cases found
  | case4 shielded after differ ih =>
      obtain ⟨body, inside, rfl⟩ := Option.map_eq_some_iff.1 found
      rw [List.cons_append, List.cons_append, untilQuote_escape differ, ih inside]
      rfl
  | case5 byte rest differ notBackslash ih =>
      obtain ⟨body, inside, rfl⟩ := Option.map_eq_some_iff.1 found
      rw [List.cons_append, untilQuote.eq_def]
      simp [differ, notBackslash, ih inside]

theorem not_mem_of_untilFirstQuote {quote : UInt8} {bytes content : List UInt8}
    (found : untilFirstQuote quote bytes = some content) : quote ∉ content := by
  fun_induction untilFirstQuote quote bytes generalizing content with
  | case1 => cases found
  | case2 rest => cases found; exact List.not_mem_nil
  | case3 byte rest differ ih =>
      obtain ⟨body, inside, rfl⟩ := Option.map_eq_some_iff.1 found
      rw [List.mem_cons, not_or]
      exact ⟨Ne.symm differ, ih inside⟩

theorem untilFirstQuote_content {quote : UInt8} {bytes content : List UInt8}
    (found : untilFirstQuote quote bytes = some content) (more : List UInt8) :
    untilFirstQuote quote (content ++ quote :: more) = some content := by
  fun_induction untilFirstQuote quote bytes generalizing content with
  | case1 => cases found
  | case2 rest => cases found; simp [untilFirstQuote]
  | case3 byte rest differ ih =>
      obtain ⟨body, inside, rfl⟩ := Option.map_eq_some_iff.1 found
      simp [untilFirstQuote, differ, ih inside]

/-- Quoted text is found exactly where its body has a closing quote. -/
theorem quoted_eq_found_iff {body : UInt8 → List UInt8 → Option (List UInt8)}
    {opening closing value : String} :
    quoted body opening closing bytes = .found value length ↔
      ∃ quote rest content, bytes = quote :: rest ∧ Byte.isQuote quote = true ∧
        body quote rest = some content ∧ value = Utf8.text content ∧
        length = content.length + 2 := by
  constructor
  · intro found
    cases bytes with
    | nil => cases found
    | cons quote rest =>
        simp only [quoted, malformed] at found
        split at found
        · next isQuote =>
            split at found
            · next content inside =>
                cases found
                exact ⟨quote, rest, content, rfl, isQuote, inside, rfl, rfl⟩
            · cases found
        · cases found
  · rintro ⟨quote, rest, content, rfl, isQuote, inside, rfl, rfl⟩
    simp [quoted, isQuote, inside]

theorem quoted_spans {body : UInt8 → List UInt8 → Option (List UInt8)}
    (reads : ReadsBody body) {opening closing value : String}
    (found : quoted body opening closing bytes = .found value length) :
    Spans Byte.isQuote bytes length := by
  obtain ⟨quote, rest, content, rfl, isQuote, inside, rfl, rfl⟩ := quoted_eq_found_iff.1 found
  obtain ⟨after, rfl⟩ := reads quote rest content inside
  exact ⟨isQuote, by omega, by simp⟩

end Lexeme

namespace Token

variable {α : Type}

/-- Whether a token can begin with a byte. -/
def opens : Token α → UInt8 → Bool
  | .identifier, byte => Byte.isIdentifier byte
  | .scope, byte => Byte.isScope byte
  | .keyword word, byte => (Utf8.encode word).head? == some byte
  | .mark expected, byte => byte == expected
  | .hexadecimal, byte => byte == Byte.minus || byte == Byte.zero
  | .scientific, byte => byte == Byte.minus || Byte.isNumeral byte || Byte.isExponentMark byte
  | .decimal, byte => Byte.isSign byte || Byte.isNumeral byte
  | .integer, byte => Byte.isSign byte || Byte.isDigit byte
  | .string, byte => Byte.isQuote byte
  | .path, byte => Byte.isQuote byte

/-- Whether a token is text between quotes, which may hold any bytes. -/
def isQuoted : Token α → Bool
  | .string => true
  | .path => true
  | _ => false

/-- The bytes that can continue a token which is not quoted. -/
def continues : Token α → UInt8 → Bool
  | .scope => Byte.isScope
  | _ => Byte.isIdentifier

/-- Whether keywords are words and marks are neither words, quotes nor parts of a gap. -/
def isPlain : Token α → Bool
  | .keyword word => !(Utf8.encode word).isEmpty && (Utf8.encode word).all Byte.isIdentifier
  | .mark byte => Gap.isBarrier byte && !Byte.isQuote byte && byte < 0x80
  | _ => true

/-- Only quoted text begins with a quote. -/
theorem opens_eq_false_of_isQuote {token : Token α} (plain : token.isPlain = true)
    (unquoted : token.isQuoted = false) {byte : UInt8} (quote : Byte.isQuote byte = true) :
    token.opens byte = false := by
  have notScope := Byte.isScope_of_isQuote quote
  have notName : ∀ letter, Byte.isIdentifier letter = true → letter ≠ byte := by
    rintro _ name rfl
    simp [Byte.isScope_of_isIdentifier name] at notScope
  have notSign : Byte.isSign byte = false := by grind [Byte.isQuote, Byte.isSign]
  cases token with
  | identifier => exact Bool.eq_false_iff.2 fun name => notName byte name rfl
  | scope => exact notScope
  | keyword word =>
      simp only [isPlain, Bool.and_eq_true] at plain
      refine Bool.eq_false_iff.2 fun head => ?_
      have mem := List.mem_of_mem_head? (beq_iff_eq.1 head)
      exact notName byte (List.all_eq_true.1 plain.2 byte mem) rfl
  | mark expected =>
      simp only [isPlain, Bool.and_eq_true, Bool.not_eq_true'] at plain
      refine Bool.eq_false_iff.2 fun same => ?_
      rw [← beq_iff_eq.1 same, quote] at plain
      exact Bool.noConfusion plain.1.2
  | hexadecimal => grind [opens, Byte.isQuote]
  | scientific => grind [opens, Byte.isQuote, Byte.isNumeral, Byte.isDigit, Byte.isExponentMark]
  | decimal => grind [opens, Byte.isQuote, Byte.isNumeral, Byte.isDigit]
  | integer => grind [opens, Byte.isQuote, Byte.isDigit]
  | string => cases unquoted
  | path => cases unquoted

/-- No token begins with a gap. -/
theorem isBarrier_of_opens {token : Token α} (plain : token.isPlain = true) {byte : UInt8}
    (opens : token.opens byte = true) : Gap.isBarrier byte = true := by
  have ofName : Byte.isIdentifier byte = true → Gap.isBarrier byte = true :=
    fun letter => Byte.isBarrier_of_isScope (Byte.isScope_of_isIdentifier letter)
  have ofSign : Byte.isSign byte = true → Gap.isBarrier byte = true := by
    grind [Gap.isBarrier, Byte.isSpace, Byte.isBlank, Byte.isLineEnd, Byte.isSign]
  cases token with
  | identifier => exact ofName opens
  | scope => exact Byte.isBarrier_of_isScope opens
  | keyword word =>
      simp only [isPlain, Bool.and_eq_true] at plain
      have mem := List.mem_of_mem_head? (beq_iff_eq.1 opens)
      exact ofName (List.all_eq_true.1 plain.2 byte mem)
  | mark expected =>
      simp only [isPlain, Bool.and_eq_true] at plain
      rw [beq_iff_eq.1 opens]
      exact plain.1.1
  | hexadecimal =>
      rcases Bool.or_eq_true_iff.1 opens with minus | zero
      · rw [beq_iff_eq.1 minus]
        rfl
      · rw [beq_iff_eq.1 zero]
        rfl
  | scientific =>
      rcases Bool.or_eq_true_iff.1 opens with minusOrNumeral | mark
      · rcases Bool.or_eq_true_iff.1 minusOrNumeral with minus | numeral
        · rw [beq_iff_eq.1 minus]
          rfl
        · exact ofName (Byte.isIdentifier_of_isNumeral numeral)
      · exact ofName (Byte.isIdentifier_of_isExponentMark mark)
  | decimal =>
      rcases Bool.or_eq_true_iff.1 opens with sign | numeral
      · exact ofSign sign
      · exact ofName (Byte.isIdentifier_of_isNumeral numeral)
  | integer =>
      rcases Bool.or_eq_true_iff.1 opens with sign | digit
      · exact ofSign sign
      · exact ofName (Byte.isIdentifier_of_isDigit digit)
  | string => exact Byte.isBarrier_of_isQuote opens
  | path => exact Byte.isBarrier_of_isQuote opens

/--
A token that is not quoted is recognised by what stands in front of the first byte that cannot
continue it.
-/
theorem recognize_append {token : Token α} (plain : token.isPlain = true)
    (unquoted : token.isQuoted = false) {front back : List UInt8} (notEmpty : front ≠ [])
    (stops : Stops token.continues back) :
    token.recognize (front ++ back) = token.recognize front := by
  cases token with
  | identifier => exact Lexeme.word_append _ stops
  | scope => exact Lexeme.word_append _ stops
  | keyword word =>
      simp only [isPlain, Bool.and_eq_true] at plain
      exact Lexeme.keyword_append plain.2 stops
  | mark byte => exact Lexeme.mark_append notEmpty
  | hexadecimal => exact Lexeme.hexadecimal_append notEmpty stops
  | scientific => exact Lexeme.scientific_append notEmpty stops
  | decimal => exact Lexeme.decimal_append notEmpty stops
  | integer => exact Lexeme.integer_append notEmpty stops
  | string => cases unquoted
  | path => cases unquoted

/-- Whatever continues a token can be part of a scope. -/
theorem isScope_of_continues {token : Token α} {byte : UInt8}
    (continued : token.continues byte = true) : Byte.isScope byte = true := by
  cases token with
  | scope => exact continued
  | _ => exact Byte.isScope_of_isIdentifier continued

/-- A token that is not quoted does not reach over a byte that is part of no name and no scope. -/
theorem recognize_append_of_stops {token : Token α} (plain : token.isPlain = true)
    (unquoted : token.isQuoted = false) {front back : List UInt8} (notEmpty : front ≠ [])
    (stops : Stops Byte.isScope back) :
    token.recognize (front ++ back) = token.recognize front :=
  recognize_append plain unquoted notEmpty (stops.mono fun _ => isScope_of_continues)

/-- A token that may not begin with the first byte is missing as it is at the end of a source. -/
theorem recognize_of_not_opens {token : Token α} (plain : token.isPlain = true)
    {bytes : List UInt8} (closed : ∀ byte ∈ bytes.head?, token.opens byte = false) :
    token.recognize bytes = token.recognize [] := by
  cases bytes with
  | nil => rfl
  | cons byte tail =>
      have notOpens : token.opens byte = false := closed byte rfl
      cases token with
      | identifier | scope => simp_all [opens, recognize, Lexeme.word]
      | keyword word =>
          simp only [isPlain, Bool.and_eq_true, Bool.not_eq_true'] at plain
          simp only [opens, beq_eq_false_iff_ne, ne_eq] at notOpens
          simp only [recognize, Lexeme.keyword]
          cases letters : Utf8.encode word with
          | nil => simp [letters] at plain
          | cons letter others =>
              rw [letters, List.head?_cons, Option.some_inj] at notOpens
              simp [notOpens]
      | mark expected => simp_all [opens, recognize, Lexeme.mark]
      | hexadecimal =>
          simp_all [opens, recognize, Lexeme.hexadecimal, Lexeme.signLength,
            Lexeme.opensHexadecimal]
      | scientific => simp_all [opens, recognize, Lexeme.scientific, Lexeme.signLength]
      | decimal => simp_all [opens, recognize, Lexeme.decimal, Lexeme.signLength]
      | integer => simp_all [opens, recognize, Lexeme.integer, Lexeme.signLength]
      | string | path => simp_all [opens, recognize, Lexeme.quoted]

/-- A token begins with one of its first bytes, and it takes bytes that are there. -/
theorem recognize_spans {token : Token α} (plain : token.isPlain = true) {bytes : List UInt8}
    {value : α} {length : Nat} (found : token.recognize bytes = .found value length) :
    Lexeme.Spans token.opens bytes length := by
  cases token with
  | identifier => exact Lexeme.word_spans found
  | scope => exact Lexeme.word_spans found
  | keyword word =>
      simp only [isPlain, Bool.and_eq_true, Bool.not_eq_true'] at plain
      exact Lexeme.keyword_spans plain.1 found
  | mark byte => exact Lexeme.mark_spans found
  | hexadecimal => exact Lexeme.hexadecimal_spans found
  | scientific => exact Lexeme.scientific_spans found
  | decimal => exact Lexeme.decimal_spans found
  | integer => exact Lexeme.integer_spans found
  | string => exact Lexeme.quoted_spans Lexeme.untilQuote_readsBody found
  | path => exact Lexeme.quoted_spans Lexeme.untilFirstQuote_readsBody found

/-- Whatever comes behind it, a quoted text is the same. -/
theorem recognize_take_append {token : Token α} (quoted : token.isQuoted = true)
    {bytes : List UInt8} {value : α} {length : Nat}
    (found : token.recognize bytes = .found value length) (more : List UInt8) :
    token.recognize (bytes.take length ++ more) = .found value length := by
  have front : ∀ {quote : UInt8} {content after : List UInt8},
      (quote :: (content ++ quote :: after)).take (content.length + 2) ++ more =
        quote :: (content ++ quote :: more) := by simp [List.take_append]
  cases token with
  | string =>
      obtain ⟨quote, _, content, rfl, isQuote, inside, rfl, rfl⟩ :=
        Lexeme.quoted_eq_found_iff.1 found
      obtain ⟨after, rfl⟩ := Lexeme.untilQuote_readsBody _ _ _ inside
      rw [front]
      exact Lexeme.quoted_eq_found_iff.2 ⟨quote, _, content, rfl, isQuote,
        Lexeme.untilQuote_content inside more, rfl, rfl⟩
  | path =>
      obtain ⟨quote, _, content, rfl, isQuote, inside, rfl, rfl⟩ :=
        Lexeme.quoted_eq_found_iff.1 found
      obtain ⟨after, rfl⟩ := Lexeme.untilFirstQuote_readsBody _ _ _ inside
      rw [front]
      exact Lexeme.quoted_eq_found_iff.2 ⟨quote, _, content, rfl, isQuote,
        Lexeme.untilFirstQuote_content inside more, rfl, rfl⟩
  | _ => cases quoted

/-- A quoted text without its end takes the rest of the source. -/
theorem understood_of_isQuote {token : Token α} (quoted : token.isQuoted = true)
    {bytes : List UInt8} (isQuote : bytes.head?.any Byte.isQuote = true)
    {kind : FailureKind} {expected : Expected} {understood : Nat}
    (missing : token.recognize bytes = .missing kind expected understood) :
    understood = bytes.length := by
  obtain ⟨quote, rest, rfl⟩ : ∃ quote rest, bytes = quote :: rest := by
    cases bytes with
    | nil => cases isQuote
    | cons quote rest => exact ⟨quote, rest, rfl⟩
  have isQuoteByte : Byte.isQuote quote = true := by simpa using isQuote
  have ofBody : ∀ {body : UInt8 → List UInt8 → Option (List UInt8)} {opening closing : String},
      Lexeme.quoted body opening closing (quote :: rest) = .missing kind expected understood →
        understood = (quote :: rest).length := by
    intro body opening closing missing
    simp only [Lexeme.quoted, isQuoteByte, if_true, Lexeme.malformed] at missing
    split at missing
    · cases missing
    · cases missing
      rfl
  cases token with
  | string => exact ofBody missing
  | path => exact ofBody missing
  | _ => cases quoted

end Token

end ThriftIdl
