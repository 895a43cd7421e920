import ThriftIdl.Proofs.Grammar.Matching

/-!
# Names, words and marks

The tokens that hold the grammar together, described by the bytes they are read from. A name is read
only as a whole, so a keyword is read exactly where the name with its letters is, and two different
keywords are never read from the same place.
-/

namespace ThriftIdl

/-- Whether a text is a nonempty run of bytes of a class. -/
structure IsWord (accepts : UInt8 → Bool) (text : String) : Prop where
  notEmpty : Utf8.encode text ≠ []
  accepted : ∀ byte ∈ Utf8.encode text, accepts byte = true

/-- Whether a text can be a name: a nonempty run of letters, digits, underscores and dots. -/
abbrev IsName (text : String) : Prop := IsWord Byte.isIdentifier text

/-- Whether bytes are a word that goes no further, a gap, and the given rest. -/
def SpellsWord (accepts : UInt8 → Bool) (text : String) (bytes rest : List UInt8) : Prop :=
  IsWord accepts text ∧
    ∃ tail, bytes = Utf8.encode text ++ tail ∧ Stops accepts tail ∧ rest = Gap.rest tail

/-- Whether bytes are a name that goes no further, a gap, and the given rest. -/
abbrev SpellsName (text : String) (bytes rest : List UInt8) : Prop :=
  SpellsWord Byte.isIdentifier text bytes rest

/-- Whether bytes are a mark, a gap, and the given rest. -/
def SpellsMark (byte : UInt8) (bytes rest : List UInt8) : Prop :=
  ∃ tail, bytes = byte :: tail ∧ rest = Gap.rest tail

/-- Whether bytes are the given rest, or a separator, a gap, and the rest. -/
inductive SpellsSeparator : List UInt8 → List UInt8 → Prop where
  | absent {bytes : List UInt8} (stops : Stops Byte.isSeparator bytes) :
      SpellsSeparator bytes bytes
  | present {byte : UInt8} {tail : List UInt8} (separator : Byte.isSeparator byte = true) :
      SpellsSeparator (byte :: tail) (Gap.rest tail)

variable {bytes rest otherRest : List UInt8} {accepts : UInt8 → Bool} {text other word : String}

theorem stops_dropWhile (accepts : UInt8 → Bool) (bytes : List UInt8) :
    Stops accepts (bytes.dropWhile accepts) := by
  induction bytes with
  | nil => rfl
  | cons byte tail ih =>
      cases accepted : accepts byte with
      | true => simpa [accepted] using ih
      | false => simpa [accepted] using stops_cons.2 accepted

/-- A word is found with the bytes that it consists of. -/
theorem Lexeme.word_eq_found_iff (ascii : ∀ byte, accepts byte = true → byte < 0x80)
    {expected : String} {length : Nat} :
    Lexeme.word accepts expected bytes = .found text length ↔
      IsWord accepts text ∧ length = (Utf8.encode text).length ∧
        ∃ tail, bytes = Utf8.encode text ++ tail ∧ Stops accepts tail := by
  constructor
  · intro found
    simp only [Lexeme.word, Lexeme.malformed] at found
    split at found
    · cases found
    · next notEmpty =>
        cases found
        have accepted : ∀ byte ∈ bytes.takeWhile accepts, accepts byte = true :=
          fun byte mem => List.mem_takeWhile_imp mem
        have encoded : Utf8.encode (Utf8.text (bytes.takeWhile accepts)) = bytes.takeWhile accepts :=
          Utf8.encode_text (Utf8.valid_of_ascii fun byte mem => ascii byte (accepted byte mem))
        refine ⟨⟨?_, ?_⟩, ?_, bytes.dropWhile accepts, ?_, stops_dropWhile accepts bytes⟩
        · rw [encoded]
          exact mt List.isEmpty_iff.2 notEmpty
        · rwa [encoded]
        · rw [encoded]
        · rw [encoded, List.takeWhile_append_dropWhile]
  · rintro ⟨isWord, rfl, tail, rfl, stops⟩
    have letters : (Utf8.encode text ++ tail).takeWhile accepts = Utf8.encode text := by
      rw [stops.takeWhile_append, List.takeWhile_eq_self_iff]
      exact isWord.accepted
    simp only [Lexeme.word, letters, List.isEmpty_iff, isWord.notEmpty, if_false,
      Utf8.text_encode]

namespace Token

/-- What remains behind a text in front of some bytes is what remains behind the gap there. -/
theorem rest_drop_append (front tail : List UInt8) :
    Gap.rest ((front ++ tail).drop front.length) = Gap.rest tail := by
  rw [List.drop_left]

theorem read_identifier_iff :
    Token.identifier.read bytes = some (text, rest) ↔ SpellsName text bytes rest := by
  have ascii : ∀ byte, Byte.isIdentifier byte = true → byte < 0x80 :=
    fun byte letter => Byte.ascii_of_isScope (Byte.isScope_of_isIdentifier letter)
  rw [read_eq_some_iff]
  constructor
  · rintro ⟨length, found, rfl⟩
    obtain ⟨isWord, rfl, tail, rfl, stops⟩ := (Lexeme.word_eq_found_iff ascii).1 found
    exact ⟨isWord, tail, rfl, stops, rest_drop_append _ _⟩
  · rintro ⟨isWord, tail, rfl, stops, rfl⟩
    exact ⟨_, (Lexeme.word_eq_found_iff ascii).2 ⟨isWord, rfl, tail, rfl, stops⟩,
      (rest_drop_append _ _).symm⟩

theorem read_scope_iff :
    Token.scope.read bytes = some (text, rest) ↔ SpellsWord Byte.isScope text bytes rest := by
  rw [read_eq_some_iff]
  constructor
  · rintro ⟨length, found, rfl⟩
    obtain ⟨isWord, rfl, tail, rfl, stops⟩ :=
      (Lexeme.word_eq_found_iff fun _ => Byte.ascii_of_isScope).1 found
    exact ⟨isWord, tail, rfl, stops, rest_drop_append _ _⟩
  · rintro ⟨isWord, tail, rfl, stops, rfl⟩
    exact ⟨_, (Lexeme.word_eq_found_iff fun _ => Byte.ascii_of_isScope).2
      ⟨isWord, rfl, tail, rfl, stops⟩, (rest_drop_append _ _).symm⟩

theorem isName_of_isPlain (plain : (Token.keyword word).isPlain = true) : IsName word := by
  simp only [isPlain, Bool.and_eq_true, Bool.not_eq_true'] at plain
  exact ⟨by simpa using plain.1, by simpa using plain.2⟩

/-- A keyword is read where the name with its letters is. -/
theorem read_keyword_iff (plain : (Token.keyword word).isPlain = true) :
    (Token.keyword word).read bytes = some (text, rest) ↔
      text = word ∧ SpellsName word bytes rest := by
  rw [read_eq_some_iff]
  constructor
  · rintro ⟨length, found, rfl⟩
    simp only [recognize, Lexeme.keyword] at found
    split at found
    · next matched =>
        cases found
        rw [Bool.and_eq_true, List.isPrefixOf_iff_prefix, Bool.not_eq_true'] at matched
        obtain ⟨⟨tail, rfl⟩, stops⟩ := matched
        rw [List.drop_left] at stops
        exact ⟨rfl, isName_of_isPlain plain, tail, rfl, stops, rest_drop_append _ _⟩
    · cases found
  · rintro ⟨rfl, isName, tail, rfl, stops, rfl⟩
    refine ⟨_, ?_, (rest_drop_append _ _).symm⟩
    unfold Stops at stops
    simp [recognize, Lexeme.keyword, List.isPrefixOf_iff_prefix, stops]

theorem read_mark_iff {byte : UInt8} {value : Unit} :
    (Token.mark byte).read bytes = some (value, rest) ↔
      SpellsMark byte bytes rest := by
  rw [read_eq_some_iff]
  unfold SpellsMark
  simp only [recognize, Lexeme.mark]
  constructor
  · rintro ⟨length, found, rfl⟩
    split at found
    · next head =>
        cases found
        cases bytes with
        | nil => cases head
        | cons first tail =>
            cases head
            exact ⟨tail, rfl, rfl⟩
    · cases found
  · rintro ⟨tail, rfl, rfl⟩
    exact ⟨1, by simp, rfl⟩

end Token

/-- At most one word stands in front of some bytes. -/
theorem SpellsName.unique (spells : SpellsName text bytes rest)
    (otherSpells : SpellsName other bytes otherRest) : text = other ∧ rest = otherRest := by
  have found := Token.read_identifier_iff.2 spells
  rw [Token.read_identifier_iff.2 otherSpells] at found
  cases found
  exact ⟨rfl, rfl⟩

theorem SpellsName.any_head? (spells : SpellsName text bytes rest) :
    bytes.head?.any Byte.isIdentifier = true := by
  obtain ⟨isName, tail, rfl, -, -⟩ := spells
  rw [List.head?_append_of_ne_nil _ isName.notEmpty]
  obtain ⟨byte, others, encoded⟩ := List.exists_cons_of_ne_nil isName.notEmpty
  rw [encoded]
  exact isName.accepted byte (by simp [encoded])

/-- Where a name is, no class goes on that has no byte of names. -/
theorem SpellsName.stops (spells : SpellsName text bytes rest)
    (disjoint : ∀ byte, Byte.isIdentifier byte = true → accepts byte = false) :
    Stops accepts bytes :=
  stops_of_any_head? spells.any_head? disjoint

theorem SpellsMark.stops {byte : UInt8} (spells : SpellsMark byte bytes rest)
    (refused : accepts byte = false) : Stops accepts bytes := by
  obtain ⟨tail, rfl, -⟩ := spells
  exact stops_cons.2 refused

/-- In front of the rest there is at most a separator. -/
theorem SpellsSeparator.stops (spells : SpellsSeparator bytes rest) (stops : Stops accepts rest)
    (noSeparator : ∀ byte, Byte.isSeparator byte = true → accepts byte = false) :
    Stops accepts bytes := by
  cases spells with
  | absent _ => exact stops
  | present separator => exact stops_cons.2 (noSeparator _ separator)

namespace Rule

variable {α : Type}

theorem read_separator_iff :
    (∃ present, Rule.separator.read bytes = some (present, rest)) ↔ SpellsSeparator bytes rest := by
  constructor
  · rintro ⟨present, found⟩
    cases separator : bytes.head?.any Byte.isSeparator with
    | false =>
        rw [read_separator_of_stops separator] at found
        cases found
        exact .absent separator
    | true =>
        cases bytes with
        | nil => cases separator
        | cons byte tail =>
            have isSeparator : Byte.isSeparator byte = true := by simpa using separator
            rw [read_separator_cons isSeparator] at found
            cases found
            exact .present isSeparator
  · intro spells
    cases spells with
    | absent stops => exact ⟨false, read_separator_of_stops stops⟩
    | present separator => exact ⟨true, read_separator_cons separator _⟩

theorem read_separated_iff {rule : Rule α} {value : α} :
    (separated rule).read bytes = some (value, rest) ↔
      ∃ middle, rule.read bytes = some (value, middle) ∧ SpellsSeparator middle rest := by
  simp only [separated, read_bind_eq_some_iff, read_pure, ← read_separator_iff]
  constructor
  · rintro ⟨inner, middle, found, present, last, foundSeparator, ⟨⟩⟩
    exact ⟨middle, found, present, foundSeparator⟩
  · rintro ⟨middle, found, present, foundSeparator⟩
    exact ⟨value, middle, found, present, rest, foundSeparator, rfl⟩

/-- A keyword in front of a rule. -/
theorem read_keyword_bind_iff {next : String → Rule α}
    (plain : (Token.keyword word).isPlain = true) {value : α} :
    (Rule.bind (keyword word) next).read bytes = some (value, rest) ↔
      ∃ middle, SpellsName word bytes middle ∧
        (next word).read middle = some (value, rest) := by
  simp only [read_bind_eq_some_iff, keyword, read_token, Token.read_keyword_iff plain]
  constructor
  · rintro ⟨inner, middle, ⟨rfl, spells⟩, found⟩
    exact ⟨middle, spells, found⟩
  · rintro ⟨middle, spells, found⟩
    exact ⟨word, middle, ⟨rfl, spells⟩, found⟩

/-- A name in front of a rule. -/
theorem read_identifier_bind_iff {next : String → Rule α} {value : α} :
    (Rule.bind identifier next).read bytes = some (value, rest) ↔
      ∃ name middle, SpellsName name bytes middle ∧
        (next name).read middle = some (value, rest) := by
  simp only [read_bind_eq_some_iff, identifier, read_token, Token.read_identifier_iff]

/-- A mark in front of a rule. -/
theorem read_mark_bind_iff {byte : UInt8} {next : Unit → Rule α} {value : α} :
    (Rule.bind (mark byte) next).read bytes = some (value, rest) ↔
      ∃ middle, SpellsMark byte bytes middle ∧ (next ()).read middle = some (value, rest) := by
  simp only [read_bind_eq_some_iff, mark, read_token, Token.read_mark_iff]
  exact ⟨fun ⟨_, found⟩ => found, fun found => ⟨(), found⟩⟩

/-- Where another byte comes first, no rule matches that begins with a mark. -/
theorem read_mark_bind_eq_none {byte : UInt8} {next : Unit → Rule α}
    (stops : Stops (· == byte) bytes) : (Rule.bind (mark byte) next).read bytes = none := by
  cases found : (Rule.bind (mark byte) next).read bytes with
  | none => rfl
  | some result =>
      obtain ⟨middle, ⟨tail, rfl, -⟩, -⟩ := read_mark_bind_iff.1 found
      exact absurd (stops_cons.1 stops) (by simp)

end Rule

/-- A token begins with one of its first bytes. -/
theorem Token.any_head?_of_read {α : Type} {terminal : Token α} {value : α}
    (plain : terminal.isPlain = true) (found : terminal.read bytes = some (value, rest)) :
    bytes.head?.any terminal.opens = true :=
  @Rule.any_head?_of_read α (.token terminal) plain not_false terminal.opens (fun _ => id) bytes
    rest value found

/-- A token is absent where a byte comes first that it does not begin with. -/
theorem Token.read_eq_none_of_stops {α : Type} {terminal : Token α}
    (plain : terminal.isPlain = true) (stops : Stops terminal.opens bytes) :
    terminal.read bytes = none :=
  @Rule.read_eq_none_of_stops α (.token terminal) plain not_false terminal.opens (fun _ => id)
    bytes stops

namespace SpellsName

/-- Where a name is, every other keyword is absent. -/
theorem read_keyword_eq_none (spells : SpellsName text bytes rest)
    (plain : (Token.keyword word).isPlain = true) (differ : word ≠ text) :
    (Token.keyword word).read bytes = none := by
  cases found : (Token.keyword word).read bytes with
  | none => rfl
  | some result =>
      have otherSpells := ((Token.read_keyword_iff plain).1 found).2
      exact absurd (otherSpells.unique spells).1 differ

/-- Where a name is, no rule matches that begins with another keyword. -/
theorem read_keyword_bind_eq_none {α : Type} {next : String → Rule α}
    (spells : SpellsName text bytes rest) (plain : (Token.keyword word).isPlain = true)
    (differ : word ≠ text) : (Rule.bind (Rule.keyword word) next).read bytes = none :=
  Rule.read_bind_of_none (spells.read_keyword_eq_none plain differ)

end SpellsName

/-- A choice between two words has the value that goes with the word which is there. -/
theorem Rule.read_wordChoice_iff {α : Type} {expected first second : String} {one two value : α}
    (plain : (Token.keyword first).isPlain = true)
    (otherPlain : (Token.keyword second).isPlain = true) (differ : first ≠ second) :
    (Rule.oneOf expected [(Rule.keyword first).as one, (Rule.keyword second).as two]).read bytes =
        some (value, rest) ↔
      SpellsName first bytes rest ∧ value = one ∨ SpellsName second bytes rest ∧ value = two := by
  constructor
  · intro found
    obtain ⟨form, mem, found⟩ := Rule.exists_mem_of_read_oneOf found
    simp only [List.mem_cons, List.not_mem_nil, or_false] at mem
    rcases mem with rfl | rfl
    · obtain ⟨middle, word, found⟩ := (Rule.read_keyword_bind_iff plain).1 found
      cases found
      exact .inl ⟨word, rfl⟩
    · obtain ⟨middle, word, found⟩ := (Rule.read_keyword_bind_iff otherPlain).1 found
      cases found
      exact .inr ⟨word, rfl⟩
  · rintro (⟨word, rfl⟩ | ⟨word, rfl⟩)
    · exact Rule.read_oneOf_of_some ((Rule.read_keyword_bind_iff plain).2 ⟨_, word, rfl⟩)
    · refine (Rule.read_oneOf_of_none (word.read_keyword_bind_eq_none plain differ)).trans ?_
      exact Rule.read_oneOf_of_some ((Rule.read_keyword_bind_iff otherPlain).2 ⟨_, word, rfl⟩)

end ThriftIdl
