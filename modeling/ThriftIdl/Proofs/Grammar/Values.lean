import ThriftIdl.Proofs.Grammar.Lexical
import ThriftIdl.Proofs.Grammar.Words

/-!
# What a value looks like

The forms of a value are tried in order, but no form depends on the order beyond this: a reference
is neither a number nor a truth value, and it takes all the segments there are. `SpellsValue` says
so, and it is exactly what reading a value means.
-/

namespace ThriftIdl

open Rule

/-- Reading one part after another, with a separator allowed behind it. -/
def Separated {α : Type} (spells : α → List UInt8 → List UInt8 → Prop) (bytes : List UInt8)
    (part : α) (rest : List UInt8) : Prop :=
  ∃ middle, spells part bytes middle ∧ SpellsSeparator middle rest

/-- Whether bytes are a dot and a name behind it. -/
def SpellsSegment (bytes : List UInt8) (name : String) (rest : List UInt8) : Prop :=
  ∃ middle, SpellsMark Byte.dot bytes middle ∧ SpellsName name middle rest

/-- Whether bytes are names with separate dots between them, and there is no further one. -/
inductive SpellsReference : List String → List UInt8 → List UInt8 → Prop where
  | intro {first : String} {others : List String} {bytes middle rest : List UInt8}
      (word : SpellsName first bytes middle) (segments : Repeats SpellsSegment middle others rest)
      (ends : Grammar.segment.read rest = none) : SpellsReference (first :: others) bytes rest

/-- Whether bytes are a key, a colon and a value. -/
def SpellsEntry (item : Value → List UInt8 → List UInt8 → Prop) (entry : Value × Value)
    (bytes rest : List UInt8) : Prop :=
  ∃ afterKey afterColon, item entry.1 bytes afterKey ∧
    SpellsMark Byte.colon afterKey afterColon ∧ item entry.2 afterColon rest

/-- Whether bytes are a value, a gap, and the given rest, if `item` says so of values inside. -/
inductive SpellsForm (item : Value → List UInt8 → List UInt8 → Prop) :
    Value → List UInt8 → List UInt8 → Prop where
  | number {value : Value} {bytes rest : List UInt8}
      (found : Grammar.number.read bytes = some (value, rest)) : SpellsForm item value bytes rest
  | string {text : String} {bytes rest : List UInt8}
      (found : Token.string.read bytes = some (text, rest)) :
      SpellsForm item (.string text) bytes rest
  | trueWord {bytes rest : List UInt8} (word : SpellsName "true" bytes rest) :
      SpellsForm item (.bool true) bytes rest
  | falseWord {bytes rest : List UInt8} (word : SpellsName "false" bytes rest) :
      SpellsForm item (.bool false) bytes rest
  | list {items : List Value} {bytes inside last rest : List UInt8}
      (opening : SpellsMark Byte.openBracket bytes inside)
      (spellsItems : Repeats (Separated item) inside items last)
      (closing : SpellsMark Byte.closeBracket last rest) : SpellsForm item (.list items) bytes rest
  | map {entries : List (Value × Value)} {bytes inside last rest : List UInt8}
      (opening : SpellsMark Byte.openBrace bytes inside)
      (spellsEntries : Repeats (Separated (SpellsEntry item)) inside entries last)
      (closing : SpellsMark Byte.closeBrace last rest) : SpellsForm item (.map entries) bytes rest
  | reference {segments : List String} {bytes rest : List UInt8}
      (spells : SpellsReference segments bytes rest) (notNumber : Grammar.number.read bytes = none)
      (notTrue : segments.head? ≠ some "true") (notFalse : segments.head? ≠ some "false") :
      SpellsForm item (.reference segments) bytes rest

/-- Whether bytes are a value that nests at most that many levels, a gap, and the given rest. -/
def SpellsValue : Nat → Value → List UInt8 → List UInt8 → Prop
  | 0 => fun _ _ _ => False
  | room + 1 => SpellsForm (SpellsValue room)

variable {bytes rest : List UInt8} {room : Nat} {value : Value} {name : String}
  {segments : List String}

/-! ### References -/

theorem read_segment_iff :
    Grammar.segment.read bytes = some (name, rest) ↔ SpellsSegment bytes name rest := by
  simp only [Grammar.segment, bind_eq, read_mark_bind_iff, identifier, read_token,
    Token.read_identifier_iff, SpellsSegment]

theorem read_many_segment_iff :
    (Rule.many Grammar.segment).read bytes = some (segments, rest) ↔
      Repeats SpellsSegment bytes segments rest ∧ Grammar.segment.read rest = none :=
  read_many_iff Grammar.wellFormed_segment Grammar.not_nullable_segment read_segment_iff

theorem read_reference_iff :
    Grammar.reference.read bytes = some (segments, rest) ↔ SpellsReference segments bytes rest := by
  simp only [Grammar.reference, bind_eq, pure_eq, read_bind_eq_some_iff, identifier, read_token,
    Token.read_identifier_iff, read_many_segment_iff, read_pure]
  constructor
  · rintro ⟨first, middle, word, others, last, ⟨spellsOthers, ends⟩, ⟨⟩⟩
    exact .intro word spellsOthers ends
  · rintro ⟨word, spellsOthers, ends⟩
    exact ⟨_, _, word, _, _, ⟨spellsOthers, ends⟩, rfl⟩

theorem read_dottedName_iff :
    Grammar.dottedName.read bytes = some (name, rest) ↔
      ∃ segments, SpellsReference segments bytes rest ∧ name = ".".intercalate segments := by
  simp only [Grammar.dottedName, bind_eq, pure_eq, read_bind_eq_some_iff, read_reference_iff,
    read_pure]
  constructor
  · rintro ⟨segments, middle, spells, ⟨⟩⟩
    exact ⟨segments, spells, rfl⟩
  · rintro ⟨segments, spells, rfl⟩
    exact ⟨segments, rest, spells, rfl⟩

theorem SpellsReference.any_head? (spells : SpellsReference segments bytes rest) :
    bytes.head?.any Byte.isIdentifier = true := by
  cases spells with
  | intro word _ _ => exact word.any_head?

theorem isName_of_spellsReference (spells : SpellsReference segments bytes rest) :
    ∀ segment ∈ segments, IsName segment := by
  cases spells with
  | intro word others _ =>
      intro segment mem
      rcases List.mem_cons.1 mem with rfl | later
      · exact word.1
      · rcases others.exists_step later with ⟨_, _, _, _, ofSegment⟩
        exact ofSegment.1

theorem SpellsReference.ne_nil (spells : SpellsReference segments bytes rest) : segments ≠ [] := by
  cases spells with
  | intro => exact List.cons_ne_nil _ _

theorem encode_intercalate_cons (delimiter first : String) (others : List String) :
    Utf8.encode (delimiter.intercalate (first :: others)) = Utf8.encode first ++
      others.flatMap (fun other => Utf8.encode delimiter ++ Utf8.encode other) := by
  induction others generalizing first with
  | nil => simp
  | cons second later ih =>
      rw [String.intercalate_cons_cons, Utf8.encode_append, Utf8.encode_append, ih,
        List.flatMap_cons, List.append_assoc, List.append_assoc]

theorem isName_intercalate (names : ∀ segment ∈ segments, IsName segment)
    (notEmpty : segments ≠ []) : IsName (".".intercalate segments) := by
  rcases List.exists_cons_of_ne_nil notEmpty with ⟨first, others, rfl⟩
  have encoded := encode_intercalate_cons "." first others
  constructor
  · rw [encoded]
    exact List.append_ne_nil_of_left_ne_nil (names first (by simp)).notEmpty _
  · intro byte mem
    rw [encoded, List.mem_append, List.mem_flatMap] at mem
    rcases mem with inFirst | ⟨other, memOthers, inOther⟩
    · exact (names first (by simp)).accepted byte inFirst
    · rcases List.mem_append.1 inOther with dot | inOther
      · rw [List.mem_singleton.1 dot]
        rfl
      · exact (names other (by simp [memOthers])).accepted byte inOther

/-! ### Values -/

theorem Lexeme.eq_int_or_eq_double {length : Nat}
    (found : Lexeme.decimal bytes = .found value length) :
    (∃ number, value = .int number) ∨ ∃ number, value = .double number := by
  simp only [Lexeme.decimal, Lexeme.malformed] at found
  split_ifs at found
  all_goals
    split at found
    case h_2 => cases found
    rename_i number
    cases found
  · rcases Option.map_eq_some_iff.1 number with ⟨double, -, rfl⟩
    exact .inr ⟨double, rfl⟩
  · rcases Option.or_eq_some_iff.1 number with isInt | ⟨-, isDouble⟩
    · rcases Option.map_eq_some_iff.1 isInt with ⟨int, -, rfl⟩
      exact .inl ⟨int, rfl⟩
    · rcases Option.map_eq_some_iff.1 isDouble with ⟨double, -, rfl⟩
      exact .inr ⟨double, rfl⟩

/-- A number is an integer or a double. -/
theorem eq_int_or_eq_double_of_read_number
    (found : Grammar.number.read bytes = some (value, rest)) :
    (∃ number, value = .int number) ∨ ∃ number, value = .double number := by
  rcases exists_mem_of_read_oneOf found with ⟨form, mem, found⟩
  simp only [Grammar.numberForms, map_eq, List.mem_cons, List.not_mem_nil, or_false] at mem
  rcases mem with rfl | rfl | rfl | rfl
  · rcases read_bind_eq_some_iff.1 found with ⟨number, _, -, ⟨⟩⟩
    exact .inl ⟨number, rfl⟩
  · rcases read_bind_eq_some_iff.1 found with ⟨number, _, -, ⟨⟩⟩
    exact .inr ⟨number, rfl⟩
  · rcases Token.read_eq_some_iff.1 found with ⟨length, recognized, -⟩
    exact Lexeme.eq_int_or_eq_double recognized
  · rcases read_bind_eq_some_iff.1 found with ⟨number, _, -, ⟨⟩⟩
    exact .inl ⟨number, rfl⟩

theorem read_value_eq_none (stops : Stops Grammar.opensValue bytes) :
    (Grammar.value room).read bytes = none :=
  read_eq_none_of_stops (Grammar.wellFormed_value room) (Grammar.not_nullable_value room)
    (fun _ => Grammar.opensValue_of_opens) stops

theorem read_boolean_iff :
    Grammar.boolean.read bytes = some (value, rest) ↔
      SpellsName "true" bytes rest ∧ value = .bool true ∨
        SpellsName "false" bytes rest ∧ value = .bool false :=
  read_wordChoice_iff (by decide) (by decide) (by decide)

section Inside

/-! The values inside a list or a map have one level less, and it is known what they look like. -/

variable (known : ∀ {value : Value} {bytes rest : List UInt8},
  (Grammar.value room).read bytes = some (value, rest) ↔ SpellsValue room value bytes rest)

include known

theorem read_listOf_iff :
    (Grammar.listOf fun _ => Grammar.value room).read bytes = some (value, rest) ↔
      ∃ inside items last, SpellsMark Byte.openBracket bytes inside ∧
        Repeats (Separated (SpellsValue room)) inside items last ∧
          SpellsMark Byte.closeBracket last rest ∧ value = .list items := by
  have item : ∀ {bytes rest : List UInt8} {item : Value},
      (separated (Grammar.value room)).read bytes = some (item, rest) ↔
        Separated (SpellsValue room) bytes item rest := by
    intro bytes rest item
    simp only [read_separated_iff, known, Separated]
  simp only [Grammar.listOf, bind_eq, pure_eq, read_bind_eq_some_iff, mark, read_token,
    Token.read_mark_iff, read_many_iff (by simp) (by simp) item, read_pure]
  constructor
  · rintro ⟨_, inside, opening, items, last, ⟨spells, -⟩, _, _, closing, ⟨⟩⟩
    exact ⟨inside, items, last, opening, spells, closing, rfl⟩
  · rintro ⟨inside, items, last, opening, spells, closing, rfl⟩
    have ends : (separated (Grammar.value room)).read last = none :=
      read_bind_of_none (read_value_eq_none (closing.stops (by decide)))
    exact ⟨(), inside, opening, items, last, ⟨spells, ends⟩, (), rest, closing, rfl⟩

theorem read_mapOf_iff :
    (Grammar.mapOf fun _ => Grammar.value room).read bytes = some (value, rest) ↔
      ∃ inside entries last, SpellsMark Byte.openBrace bytes inside ∧
        Repeats (Separated (SpellsEntry (SpellsValue room))) inside entries last ∧
          SpellsMark Byte.closeBrace last rest ∧ value = .map entries := by
  have entry : ∀ {bytes rest : List UInt8} {entry : Value × Value},
      (separated (Grammar.entryOf (Grammar.value room))).read bytes = some (entry, rest) ↔
        Separated (SpellsEntry (SpellsValue room)) bytes entry rest := by
    intro bytes rest entry
    simp only [read_separated_iff, Grammar.entryOf, bind_eq, pure_eq, read_bind_eq_some_iff, known,
      mark, read_token, Token.read_mark_iff, read_pure, Separated, SpellsEntry]
    constructor
    · rintro ⟨middle, ⟨key, afterKey, ofKey, _, afterColon, colon, value, _, ofValue, ⟨⟩⟩, last⟩
      exact ⟨middle, ⟨afterKey, afterColon, ofKey, colon, ofValue⟩, last⟩
    · rintro ⟨middle, ⟨afterKey, afterColon, ofKey, colon, ofValue⟩, last⟩
      exact ⟨middle, ⟨_, afterKey, ofKey, (), afterColon, colon, _, middle, ofValue, rfl⟩, last⟩
  have wellFormed := wellFormed_separated.2 (Grammar.wellFormed_entryOf room)
  have notNullable := not_nullable_separated (Grammar.not_nullable_entryOf room)
  simp only [Grammar.mapOf, bind_eq, pure_eq, read_bind_eq_some_iff, mark, read_token,
    Token.read_mark_iff, read_many_iff wellFormed notNullable entry, read_pure]
  constructor
  · rintro ⟨_, inside, opening, entries, last, ⟨spells, -⟩, _, _, closing, ⟨⟩⟩
    exact ⟨inside, entries, last, opening, spells, closing, rfl⟩
  · rintro ⟨inside, entries, last, opening, spells, closing, rfl⟩
    have ends : (separated (Grammar.entryOf (Grammar.value room))).read last = none :=
      read_bind_of_none (read_bind_of_none (read_value_eq_none (closing.stops (by decide))))
    exact ⟨(), inside, opening, entries, last, ⟨spells, ends⟩, (), rest, closing, rfl⟩

end Inside

/-- The forms of a value that are not numbers, in the order in which they are tried. -/
def otherForms (item : Unit → Rule Value) : List (Rule Value) :=
  [ .string <$> .token .string,
    Grammar.boolean,
    Grammar.listOf item,
    Grammar.mapOf item,
    .reference <$> Grammar.reference ]

theorem read_value_succ (room : Nat) (bytes : List UInt8) :
    (Grammar.value (room + 1)).read bytes =
      (Grammar.number.read bytes).or
        ((oneOf "a constant value" (otherForms fun _ => Grammar.value room)).read bytes) :=
  read_oneOf_append "a constant value" "a number" Grammar.numberForms
    (otherForms fun _ => Grammar.value room) bytes

theorem read_string_eq_none (stops : Stops Byte.isQuote bytes) :
    (Rule.token Token.string).read bytes = none :=
  Token.read_eq_none_of_stops rfl stops

theorem SpellsMark.read_boolean_eq_none {byte : UInt8} (mark : SpellsMark byte bytes rest)
    (notName : Byte.isIdentifier byte = false) : Grammar.boolean.read bytes = none := by
  cases found : Grammar.boolean.read bytes with
  | none => rfl
  | some result =>
      have stops := mark.stops notName
      rcases read_boolean_iff.1 found with ⟨word, -⟩ | ⟨word, -⟩
      · rw [Stops, word.any_head?] at stops; cases stops
      · rw [Stops, word.any_head?] at stops; cases stops

/-- A reference is no truth value exactly if it does not begin with the word for one. -/
theorem SpellsReference.read_boolean_eq_none_iff (spells : SpellsReference segments bytes rest) :
    Grammar.boolean.read bytes = none ↔
      segments.head? ≠ some "true" ∧ segments.head? ≠ some "false" := by
  cases spells with
  | @intro first others _ middle _ word _ _ =>
      simp only [List.head?_cons, ne_eq, Option.some.injEq]
      constructor
      · intro missing
        constructor
        · rintro rfl
          rw [read_boolean_iff.2 (.inl ⟨word, rfl⟩)] at missing
          cases missing
        · rintro rfl
          rw [read_boolean_iff.2 (.inr ⟨word, rfl⟩)] at missing
          cases missing
      · rintro ⟨notTrue, notFalse⟩
        cases found : Grammar.boolean.read bytes with
        | none => rfl
        | some result =>
            rcases read_boolean_iff.1 found with ⟨other, -⟩ | ⟨other, -⟩
            · exact absurd (word.unique other).1 notTrue
            · exact absurd (word.unique other).1 notFalse

/-- What is read as a value is spelled as one. -/
theorem spellsValue_of_read (known : ∀ {value : Value} {bytes rest : List UInt8},
      (Grammar.value room).read bytes = some (value, rest) ↔ SpellsValue room value bytes rest)
    (found : (Grammar.value (room + 1)).read bytes = some (value, rest)) :
    SpellsForm (SpellsValue room) value bytes rest := by
  rw [read_value_succ, Option.or_eq_some_iff] at found
  simp only [otherForms, read_oneOf_cons_eq_some_iff, read_oneOf_nil, map_eq,
    read_bind_eq_some_iff, read_token, read_pure, read_listOf_iff known, read_mapOf_iff known,
    read_reference_iff] at found
  rcases found with found | ⟨notNumber, others⟩
  · exact .number found
  rcases others with ⟨text, _, found, ⟨⟩⟩ | ⟨-, others⟩
  · exact .string found
  rcases others with found | ⟨notBoolean, others⟩
  · rcases read_boolean_iff.1 found with ⟨word, rfl⟩ | ⟨word, rfl⟩
    · exact .trueWord word
    · exact .falseWord word
  rcases others with ⟨inside, items, last, opening, spells, closing, rfl⟩ | ⟨-, others⟩
  · exact .list opening spells closing
  rcases others with ⟨inside, entries, last, opening, spells, closing, rfl⟩ | ⟨-, others⟩
  · exact .map opening spells closing
  rcases others with ⟨segments, _, spells, ⟨⟩⟩ | ⟨-, ⟨⟩⟩
  obtain ⟨notTrue, notFalse⟩ := spells.read_boolean_eq_none_iff.1 notBoolean
  exact .reference spells notNumber notTrue notFalse

/-- What is spelled as a value is read as one, since each form excludes the forms before it. -/
theorem SpellsForm.read (known : ∀ {value : Value} {bytes rest : List UInt8},
      (Grammar.value room).read bytes = some (value, rest) ↔ SpellsValue room value bytes rest)
    (spells : SpellsForm (SpellsValue room) value bytes rest) :
    (Grammar.value (room + 1)).read bytes = some (value, rest) := by
  rw [read_value_succ, Option.or_eq_some_iff]
  have noQuote : ∀ byte, Byte.isIdentifier byte = true → Byte.isQuote byte = false :=
    fun _ => Byte.isQuote_of_isIdentifier
  cases spells with
  | number found => exact .inl found
  | string found =>
      refine .inr ⟨Grammar.read_number_eq_none ?_, read_oneOf_of_some (read_map_of_some found)⟩
      refine stops_of_any_head? (Token.any_head?_of_read rfl found) ?_
      grind [Token.opens, Grammar.opensNumber, Byte.isQuote, Byte.isSign, Byte.isNumeral,
        Byte.isDigit, Byte.isExponentMark]
  | trueWord word =>
      refine .inr ⟨Grammar.read_number_eq_none ?_, ?_⟩
      · obtain ⟨-, tail, rfl, -, -⟩ := word
        rfl
      · refine (read_oneOf_of_none (read_map_of_none (read_string_eq_none ?_))).trans ?_
        · exact word.stops noQuote
        · exact read_oneOf_of_some (read_boolean_iff.2 (.inl ⟨word, rfl⟩))
  | falseWord word =>
      refine .inr ⟨Grammar.read_number_eq_none ?_, ?_⟩
      · obtain ⟨-, tail, rfl, -, -⟩ := word
        rfl
      · refine (read_oneOf_of_none (read_map_of_none (read_string_eq_none ?_))).trans ?_
        · exact word.stops noQuote
        · exact read_oneOf_of_some (read_boolean_iff.2 (.inr ⟨word, rfl⟩))
  | list opening spellsItems closing =>
      refine .inr ⟨Grammar.read_number_eq_none (opening.stops (by decide)), ?_⟩
      refine (read_oneOf_of_none (read_map_of_none (read_string_eq_none ?_))).trans ?_
      · exact opening.stops (by decide)
      refine (read_oneOf_of_none (opening.read_boolean_eq_none (by decide))).trans ?_
      exact read_oneOf_of_some
        ((read_listOf_iff known).2 ⟨_, _, _, opening, spellsItems, closing, rfl⟩)
  | map opening spellsEntries closing =>
      refine .inr ⟨Grammar.read_number_eq_none (opening.stops (by decide)), ?_⟩
      refine (read_oneOf_of_none (read_map_of_none (read_string_eq_none ?_))).trans ?_
      · exact opening.stops (by decide)
      refine (read_oneOf_of_none (opening.read_boolean_eq_none (by decide))).trans ?_
      refine (read_oneOf_of_none (read_mark_bind_eq_none (opening.stops (by decide)))).trans ?_
      exact read_oneOf_of_some
        ((read_mapOf_iff known).2 ⟨_, _, _, opening, spellsEntries, closing, rfl⟩)
  | reference spells notNumber notTrue notFalse =>
      have name := spells.any_head?
      refine .inr ⟨notNumber, ?_⟩
      refine (read_oneOf_of_none (read_map_of_none (read_string_eq_none ?_))).trans ?_
      · exact stops_of_any_head? name noQuote
      refine (read_oneOf_of_none (spells.read_boolean_eq_none_iff.2 ⟨notTrue, notFalse⟩)).trans ?_
      refine (read_oneOf_of_none (read_mark_bind_eq_none (stops_of_any_head? name ?_))).trans ?_
      · grind [Byte.isIdentifier, Byte.isDigit, Byte.isLetter]
      refine (read_oneOf_of_none (read_mark_bind_eq_none (stops_of_any_head? name ?_))).trans ?_
      · grind [Byte.isIdentifier, Byte.isDigit, Byte.isLetter]
      exact read_oneOf_of_some (read_map_of_some (read_reference_iff.2 spells))

/-- Reading a value means that the bytes spell it. -/
theorem read_value_iff :
    (Grammar.value room).read bytes = some (value, rest) ↔ SpellsValue room value bytes rest := by
  induction room generalizing value bytes rest with
  | zero => simp [Grammar.value, SpellsValue]
  | succ room ih => exact ⟨spellsValue_of_read ih, SpellsForm.read ih⟩

theorem read_entry_iff {entry : Value × Value} :
    (Grammar.entryOf (Grammar.value room)).read bytes = some (entry, rest) ↔
      SpellsEntry (SpellsValue room) entry bytes rest := by
  simp only [Grammar.entryOf, bind_eq, pure_eq, read_bind_eq_some_iff, read_value_iff,
    mark, read_token, Token.read_mark_iff, read_pure, SpellsEntry]
  constructor
  · rintro ⟨key, afterKey, ofKey, _, afterColon, colon, value, _, ofValue, ⟨⟩⟩
    exact ⟨afterKey, afterColon, ofKey, colon, ofValue⟩
  · rintro ⟨afterKey, afterColon, ofKey, colon, ofValue⟩
    exact ⟨_, afterKey, ofKey, (), afterColon, colon, _, rest, ofValue, rfl⟩

end ThriftIdl
