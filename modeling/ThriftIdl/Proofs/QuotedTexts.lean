import ThriftIdl.Proofs.Grammar.Consumption
import ThriftIdl.Proofs.Text.Boundary

/-!
# Quoted texts are kept as they are

The closing quote of a text is looked for byte by byte, and a backslash protects the byte behind it,
though this may be only the first byte of a character. The text that is found is the same as if
whole characters had been protected: the other bytes of a character are neither quotes nor
backslashes.
-/

namespace ThriftIdl

open Rule

/-- The quotes of either kind. -/
def quoteMarks : List Char := ['\x22', '\x27']

/-- A text between two quotes of one kind. -/
def enclosed (quote : Char) (body : String) : String :=
  String.singleton quote ++ body ++ String.singleton quote

/--
The characters of a text, each with whether it is protected. A backslash protects the character
behind it, unless it is protected itself.
-/
def protections : Bool → List Char → List (Char × Bool)
  | _, [] => []
  | shielded, character :: rest =>
    (character, shielded) :: protections (!shielded && character == '\\') rest

/-- Whether no unprotected quote stands in a text and the text does not protect what is behind it. -/
@[mk_iff]
structure IsClosed (quote : Char) (text : List Char) : Prop where
  noQuote : (quote, false) ∉ protections false text
  noBackslash : (protections false text).getLast? ≠ some ('\\', false)

/-- Whether a text is a body between two quotes of one kind, in front of what is behind it. -/
structure Encloses (closed : Char → List Char → Prop) (text : String) (quote : Char)
    (body behind : String) : Prop where
  isQuote : quote ∈ quoteMarks
  closed : closed quote body.toList
  split : text = enclosed quote body ++ behind

/-! ### Protected characters -/

section Protections

variable {quote character : Char} {rest : List Char}

theorem isClosed_nil (quote : Char) : IsClosed quote [] :=
  ⟨List.not_mem_nil, fun last => by cases last⟩

theorem protections_cons (plain : character ≠ '\\') :
    protections false (character :: rest) = (character, false) :: protections false rest := by
  rw [protections, beq_eq_false_iff_ne.2 plain, Bool.and_false]

theorem protections_escape :
    protections false ('\\' :: character :: rest) =
      ('\\', false) :: (character, true) :: protections false rest := rfl

theorem getLast?_cons_ne_iff {item last : Char × Bool} (differ : item ≠ last)
    (items : List (Char × Bool)) :
    (item :: items).getLast? ≠ some last ↔ items.getLast? ≠ some last := by
  cases items with
  | nil => simp [differ]
  | cons next others => rw [List.getLast?_cons_cons]

theorem isClosed_cons_iff (plain : character ≠ '\\') :
    IsClosed quote (character :: rest) ↔ character ≠ quote ∧ IsClosed quote rest := by
  have notLast : (character, false) ≠ ('\\', false) := by simp [plain]
  rw [isClosed_iff, isClosed_iff, protections_cons plain, getLast?_cons_ne_iff notLast,
    List.mem_cons, not_or, and_assoc]
  simp [eq_comm]

theorem not_isClosed_backslash : ¬IsClosed quote ['\\'] := fun closed => closed.noBackslash rfl

/-- A protected character is never looked at. -/
theorem isClosed_escape_iff (differ : quote ≠ '\\') :
    IsClosed quote ('\\' :: character :: rest) ↔ IsClosed quote rest := by
  have notLast : (character, true) ≠ ('\\', false) := by simp
  rw [isClosed_iff, isClosed_iff, protections_escape, List.getLast?_cons_cons,
    getLast?_cons_ne_iff notLast]
  simp [differ]

/-- Without backslashes nothing is protected. -/
theorem isClosed_iff_of_noBackslash {text : List Char} (noBackslash : '\\' ∉ text) :
    IsClosed quote text ↔ quote ∉ text := by
  induction text with
  | nil => exact ⟨fun _ => List.not_mem_nil, fun _ => isClosed_nil quote⟩
  | cons character rest ih =>
      rw [List.mem_cons, not_or] at noBackslash
      rw [isClosed_cons_iff (Ne.symm noBackslash.1), ih noBackslash.2, List.mem_cons, not_or,
        ne_comm]

theorem encloses_iff_of_noBackslash {text body behind : String}
    (noBackslash : '\\' ∉ body.toList) :
    Encloses IsClosed text quote body behind ↔
      Encloses (fun quote body => quote ∉ body) text quote body behind :=
  ⟨fun ⟨isQuote, closed, split⟩ =>
      ⟨isQuote, (isClosed_iff_of_noBackslash noBackslash).1 closed, split⟩,
    fun ⟨isQuote, absent, split⟩ =>
      ⟨isQuote, (isClosed_iff_of_noBackslash noBackslash).2 absent, split⟩⟩

end Protections

/-! ### Bytes of characters -/

theorem encode_quote {quote : Char} (isQuote : quote ∈ quoteMarks) :
    String.utf8EncodeChar quote = [Byte.ofChar quote] ∧ Byte.isQuote (Byte.ofChar quote) = true ∧
      quote ≠ '\\' := by
  simp only [quoteMarks, List.mem_cons, List.not_mem_nil, or_false] at isQuote
  rcases isQuote with rfl | rfl <;> decide

theorem exists_quoteMark {byte : UInt8} (isQuote : Byte.isQuote byte = true) :
    ∃ quote ∈ quoteMarks, byte = Byte.ofChar quote := by
  rcases Bool.or_eq_true_iff.1 isQuote with double | single
  · exact ⟨'\x22', by decide, beq_iff_eq.1 double⟩
  · exact ⟨'\x27', by decide, beq_iff_eq.1 single⟩

/-- The byte of an ASCII character is a byte of no other character. -/
theorem eq_of_mem_utf8EncodeChar {character other : Char} {byte : UInt8} (ascii : byte < 0x80)
    (encoded : String.utf8EncodeChar character = [byte])
    (mem : byte ∈ String.utf8EncodeChar other) : other = character := by
  have same := (Utf8.utf8EncodeChar_of_mem_ascii mem ascii).trans encoded.symm
  have texts : Utf8.encode (String.singleton other) = Utf8.encode (String.singleton character) := by
    simp [Utf8.encode, same]
  exact String.singleton_inj.1 (Utf8.encode_injective texts)

/-! ### Looking for the closing quote -/

section Finding

variable {quote character : Char} {back : List UInt8}

theorem backslash_ne_quote (isQuote : quote ∈ quoteMarks) : Byte.backslash ≠ Byte.ofChar quote :=
  fun same => by
    have isQuoteByte := (encode_quote isQuote).2.1
    rw [← same] at isQuoteByte
    cases isQuoteByte

theorem untilQuote_character (isQuote : quote ∈ quoteMarks) (differ : character ≠ quote)
    (notBackslash : character ≠ '\\') (back : List UInt8) :
    Lexeme.untilQuote (Byte.ofChar quote) (String.utf8EncodeChar character ++ back) =
      (Lexeme.untilQuote (Byte.ofChar quote) back).map (String.utf8EncodeChar character ++ ·) := by
  rcases encode_quote isQuote with ⟨encoded, isQuoteByte, -⟩
  refine Lexeme.untilQuote_plain_append (fun mem => ?_) (fun mem => ?_) back
  · exact differ (eq_of_mem_utf8EncodeChar (Byte.ascii_of_isQuote isQuoteByte) encoded mem)
  · exact notBackslash (eq_of_mem_utf8EncodeChar (by decide) (by decide) mem)

/-- A backslash takes a whole character along, as no further byte of one is a quote. -/
theorem untilQuote_shielded (isQuote : quote ∈ quoteMarks) (character : Char) (back : List UInt8) :
    Lexeme.untilQuote (Byte.ofChar quote)
        (Byte.backslash :: (String.utf8EncodeChar character ++ back)) =
      (Lexeme.untilQuote (Byte.ofChar quote) back).map fun body =>
        Byte.backslash :: (String.utf8EncodeChar character ++ body) := by
  obtain ⟨lead, extra, encoded⟩ : ∃ lead extra,
      String.utf8EncodeChar character = lead :: extra :=
    List.exists_cons_of_ne_nil String.utf8EncodeChar_ne_nil
  have notAscii : ∀ byte ∈ extra, ¬byte < 0x80 := by
    intro byte mem
    have continued := (Utf8.isContinuation_utf8EncodeChar encoded).2 byte mem
    grind [Utf8.isContinuation]
  have noQuote : Byte.ofChar quote ∉ extra := fun mem =>
    notAscii _ mem (Byte.ascii_of_isQuote (encode_quote isQuote).2.1)
  have noBackslash : Byte.backslash ∉ extra := fun mem => notAscii _ mem (by decide)
  rw [encoded, List.cons_append, Lexeme.untilQuote_escape (backslash_ne_quote isQuote),
    Lexeme.untilQuote_plain_append noQuote noBackslash, Option.map_map]
  rfl

/-- In front of a quote, the bytes of a text are found as a whole exactly if the text is closed. -/
theorem untilQuote_iff_isClosed (isQuote : quote ∈ quoteMarks) (characters : List Char)
    (more : List UInt8) :
    Lexeme.untilQuote (Byte.ofChar quote)
        (characters.flatMap String.utf8EncodeChar ++ Byte.ofChar quote :: more) =
      some (characters.flatMap String.utf8EncodeChar) ↔ IsClosed quote characters := by
  rcases encode_quote isQuote with ⟨encoded, -, notBackslash⟩
  have ofBackslash : String.utf8EncodeChar '\\' = [Byte.backslash] := by decide
  induction length : characters.length using Nat.strong_induction_on generalizing characters with
  | _ count ih =>
      cases characters with
      | nil => exact iff_of_true (Lexeme.untilQuote_quote _ _) (isClosed_nil quote)
      | cons character rest =>
          by_cases escapes : character = '\\'
          · subst escapes
            cases rest with
            | nil =>
                -- the backslash takes the quote along, so what is found is longer
                refine iff_of_false (fun found => ?_) not_isClosed_backslash
                rw [List.flatMap_singleton, ofBackslash, List.singleton_append,
                  Lexeme.untilQuote_escape (backslash_ne_quote isQuote)] at found
                obtain ⟨body, -, impossible⟩ := Option.map_eq_some_iff.1 found
                cases impossible
            | cons shielded rest =>
                have later := ih rest.length (by rw [← length]; simp) rest rfl
                refine Iff.trans ?_ (later.trans (isClosed_escape_iff notBackslash).symm)
                rw [List.flatMap_cons, List.flatMap_cons, ofBackslash, List.singleton_append,
                  List.cons_append, List.append_assoc, untilQuote_shielded isQuote]
                simp [Option.map_eq_some_iff]
          · rw [isClosed_cons_iff escapes]
            by_cases same : character = quote
            · refine iff_of_false (fun found => ?_) fun closed => closed.1 same
              rw [same, List.flatMap_cons, encoded, List.singleton_append, List.cons_append,
                Lexeme.untilQuote_quote] at found
              cases found
            · have later := ih rest.length (by rw [← length]; simp) rest rfl
              refine Iff.trans ?_ (later.trans (and_iff_right same).symm)
              rw [List.flatMap_cons, List.append_assoc,
                untilQuote_character isQuote same escapes]
              simp [Option.map_eq_some_iff]

/-- The first quote of its kind ends a text that has none. -/
theorem untilFirstQuote_iff_not_mem (isQuote : quote ∈ quoteMarks) (characters : List Char)
    (more : List UInt8) :
    Lexeme.untilFirstQuote (Byte.ofChar quote)
        (characters.flatMap String.utf8EncodeChar ++ Byte.ofChar quote :: more) =
      some (characters.flatMap String.utf8EncodeChar) ↔ quote ∉ characters := by
  rcases encode_quote isQuote with ⟨encoded, isQuoteByte, -⟩
  constructor
  · intro found mem
    refine Lexeme.not_mem_of_untilFirstQuote found (List.mem_flatMap.2 ⟨quote, mem, ?_⟩)
    rw [encoded]
    exact List.mem_singleton_self _
  · intro absent
    refine Lexeme.untilFirstQuote_append (fun mem => ?_) more
    rcases List.mem_flatMap.1 mem with ⟨character, inText, mem⟩
    have same := eq_of_mem_utf8EncodeChar (Byte.ascii_of_isQuote isQuoteByte) encoded mem
    exact absent (same ▸ inText)

/-- Whether a way to look for a closing quote finds the texts that are closed, and no others. -/
structure Finds (find : UInt8 → List UInt8 → Option (List UInt8))
    (closed : Char → List Char → Prop) : Prop where
  reads : Lexeme.ReadsBody find
  whole : ∀ {quote : Char}, quote ∈ quoteMarks → ∀ (body : String) (more : List UInt8),
    find (Byte.ofChar quote) (Utf8.encode body ++ Byte.ofChar quote :: more) =
      some (Utf8.encode body) ↔ closed quote body.toList

theorem finds_untilQuote : Finds Lexeme.untilQuote IsClosed where
  reads := Lexeme.untilQuote_readsBody
  whole isQuote body more := untilQuote_iff_isClosed isQuote body.toList more

theorem finds_untilFirstQuote : Finds Lexeme.untilFirstQuote fun quote text => quote ∉ text where
  reads := Lexeme.untilFirstQuote_readsBody
  whole isQuote body more := untilFirstQuote_iff_not_mem isQuote body.toList more

theorem encode_enclosed (isQuote : quote ∈ quoteMarks) (body behind : String) :
    Utf8.encode (enclosed quote body ++ behind) =
      Byte.ofChar quote :: (Utf8.encode body ++ Byte.ofChar quote :: Utf8.encode behind) := by
  have encoded : Utf8.encode (String.singleton quote) = [Byte.ofChar quote] := by
    simp [Utf8.encode, (encode_quote isQuote).1]
  rw [enclosed, Utf8.encode_append, Utf8.encode_append, Utf8.encode_append, encoded]
  simp

theorem length_encode_enclosed (isQuote : quote ∈ quoteMarks) (body : String) :
    (Utf8.encode (enclosed quote body)).length = (Utf8.encode body).length + 2 := by
  have encoded := encode_enclosed isQuote body ""
  rw [String.append_empty, Utf8.encode_empty] at encoded
  simp [encoded]

theorem Finds.quoted_iff {find : UInt8 → List UInt8 → Option (List UInt8)}
    {closed : Char → List Char → Prop} (finds : Finds find closed) {opening closing : String}
    {text value : String} {length : Nat} :
    Lexeme.quoted find opening closing (Utf8.encode text) = .found value length ↔
      ∃ quote behind, Encloses closed text quote value behind ∧
        length = (Utf8.encode (enclosed quote value)).length := by
  constructor
  · intro found
    rcases Lexeme.quoted_eq_found_iff.1 found with
      ⟨_, rest, content, bytes, isQuote, inside, rfl, rfl⟩
    rcases exists_quoteMark isQuote with ⟨quote, mem, rfl⟩
    rcases finds.reads _ _ _ inside with ⟨after, rfl⟩
    -- what stands between the quotes and behind them is text again
    have ascii := Byte.ascii_of_isQuote isQuote
    have validRest := (bytes ▸ Utf8.valid_encode text).tail ascii
    rcases validRest.of_append_cons ascii with ⟨⟨body, rfl⟩, ⟨behind, rfl⟩⟩
    rw [Utf8.text_encode]
    refine ⟨quote, behind, ⟨mem, (finds.whole mem body _).1 inside, ?_⟩, ?_⟩
    · exact Utf8.encode_injective (bytes.trans (encode_enclosed mem body behind).symm)
    · exact (length_encode_enclosed mem body).symm
  · rintro ⟨quote, behind, ⟨mem, closed, rfl⟩, rfl⟩
    rw [encode_enclosed mem, length_encode_enclosed mem]
    refine Lexeme.quoted_eq_found_iff.2 ⟨_, _, Utf8.encode value, rfl, (encode_quote mem).2.1, ?_,
      (Utf8.text_encode value).symm, rfl⟩
    exact (finds.whole mem value _).2 closed

end Finding

/-! ### Tokens between quotes -/

/--
Whether a token recovers the bodies of a kind. It has a body for its value exactly if the text in
front of the state has this body between quotes, and then it takes the quotes, the body and the
longest gap behind them. Where a text begins with a quote but has no such body, the token fails and
leaves nothing.
-/
structure Token.Recovers (token : Token String) (closed : Char → List Char → Prop) (state : State)
    (text : String) : Prop where
  done_iff : ∀ body, (∃ after, (Rule.token token).run state = .done body after) ↔
    ∃ quote behind, Encloses closed text quote body behind
  takes : ∀ {quote body behind}, Encloses closed text quote body behind →
    (Rule.token token).run.ReadsToken state (Utf8.encode (enclosed quote body)) body
  unclosed : ∀ {quote rest}, quote ∈ quoteMarks → text = String.singleton quote ++ rest →
    (¬∃ quote body behind, Encloses closed text quote body behind) →
      ∃ failure after, (Rule.token token).run state = .failed failure after ∧
        after.cursor.position = state.cursor.position.advance state.remainingLength ∧
        after.cursor.remaining = []

theorem Finds.recovers {find : UInt8 → List UInt8 → Option (List UInt8)}
    {closed : Char → List Char → Prop} (finds : Finds find closed) {token : Token String}
    {opening closing : String} (recognize : token.recognize = Lexeme.quoted find opening closing)
    (quoted : token.isQuoted = true) {state : State} {text : String}
    (front : Utf8.encode text = state.cursor.remaining) : token.Recovers closed state text := by
  have found_iff : ∀ {body length}, token.recognize state.cursor.remaining = .found body length ↔
      ∃ quote behind, Encloses closed text quote body behind ∧
        length = (Utf8.encode (enclosed quote body)).length := by
    rw [recognize, ← front]
    exact finds.quoted_iff
  refine ⟨fun body => ⟨?_, ?_⟩, ?_, ?_⟩
  · rintro ⟨after, ran⟩
    rcases run_token_eq_done_iff.1 ran with ⟨length, found, -⟩
    rcases found_iff.1 found with ⟨quote, behind, encloses, -⟩
    exact ⟨quote, behind, encloses⟩
  · rintro ⟨quote, behind, encloses⟩
    exact ⟨_, run_token_eq_done_iff.2 ⟨_, found_iff.2 ⟨quote, behind, encloses, rfl⟩, rfl⟩⟩
  · intro quote body behind encloses
    have found := found_iff.2 ⟨quote, behind, encloses, rfl⟩
    have split : state.cursor.remaining =
        Utf8.encode (enclosed quote body) ++ Utf8.encode behind := by
      rw [← front, encloses.split, Utf8.encode_append]
    rw [split] at found
    exact (picksToken_token found).readsToken split
  · intro quote rest isQuote opens none
    have head : state.cursor.remaining.head?.any Byte.isQuote = true := by
      rcases encode_quote isQuote with ⟨encoded, isQuoteByte, -⟩
      rw [← front, opens, Utf8.encode_append, Utf8.encode, String.toList_singleton,
        List.flatMap_singleton, encoded]
      simpa using isQuoteByte
    cases recognized : token.recognize state.cursor.remaining with
    | found body length =>
        rcases found_iff.1 recognized with ⟨quote, behind, encloses, -⟩
        exact absurd ⟨quote, body, behind, encloses⟩ none
    | missing kind expected understood =>
        obtain rfl := Token.understood_of_isQuote quoted head recognized
        refine ⟨_, _, by simp only [run, Action.take, recognized]; rfl, ?_, ?_⟩
        · exact congrArg state.cursor.position.advance (congrArg List.length (List.take_length ..))
        · exact List.drop_length ..

/--
Quoted texts are kept as they are. Between two characters of any source, the token for texts
recovers exactly the bodies that are closed where backslashes protect, and the token for paths
exactly those without the quote. So the two do the same with every body that has no backslash.
-/
theorem quotedTexts_verbatim (source : String) (state : State)
    (anchored : state.cursor.mark.Anchored (Utf8.encode source) 0)
    (boundary : Utf8.isBoundary (Utf8.encode source) state.cursor.offset = true) :
    ∃ text, Utf8.encode text = state.cursor.remaining ∧
      Token.string.Recovers IsClosed state text ∧
      Token.path.Recovers (fun quote body => quote ∉ body) state text ∧
      ∀ body after, '\\' ∉ body.toList →
        ((Rule.token .string).run state = .done body after ↔
          (Rule.token .path).run state = .done body after) := by
  have behind := ((Utf8.isBoundary_iff (Utf8.valid_encode source)).1 boundary).2
  obtain ⟨text, front⟩ : Utf8.Valid state.cursor.remaining := by
    rw [Cursor.remaining, anchored.remaining]
    exact behind
  refine ⟨text, front, finds_untilQuote.recovers rfl rfl front,
    finds_untilFirstQuote.recovers rfl rfl front, fun body after noBackslash => ?_⟩
  have same : ∀ length, Token.string.recognize state.cursor.remaining = .found body length ↔
      Token.path.recognize state.cursor.remaining = .found body length := by
    intro length
    rw [← front]
    refine finds_untilQuote.quoted_iff.trans (Iff.trans ?_ finds_untilFirstQuote.quoted_iff.symm)
    simp only [encloses_iff_of_noBackslash noBackslash]
  rw [run_token_eq_done_iff, run_token_eq_done_iff]
  simp only [same]

/-- A backslash takes an accented letter along, and another one a quote, which ends only a path. -/
theorem quotedTexts_verbatim_shielded :
    let source := enclosed '\x22' "\\é\\\""
    let state := State.startAt (Utf8.encode source) 0
    (Rule.token .string).run.ReadsToken state (Utf8.encode source) "\\é\\\"" ∧
      (Rule.token .path).run.ReadsToken state (Utf8.encode (enclosed '\x22' "\\é\\"))
        "\\é\\" := by
  intro source state
  have anchored : state.cursor.mark.Anchored (Utf8.encode source) 0 :=
    ⟨Nat.le_refl 0, Nat.zero_le _, rfl⟩
  rcases quotedTexts_verbatim source state anchored (by decide +kernel) with
    ⟨text, front, string, path, -⟩
  obtain rfl : text = source := Utf8.encode_injective front
  have wholly : Encloses IsClosed source '\x22' "\\é\\\"" "" :=
    ⟨by decide, ⟨by decide +kernel, by decide +kernel⟩, by decide +kernel⟩
  have partly : Encloses (fun quote body => quote ∉ body) source '\x22' "\\é\\" "\"" :=
    ⟨by decide, by decide +kernel, by decide +kernel⟩
  exact ⟨string.takes wholly, path.takes partly⟩

end ThriftIdl
