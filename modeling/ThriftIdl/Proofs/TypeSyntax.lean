import ThriftIdl.Proofs.Grammar.Types

/-!
# The texts of a type

Which texts are read as a type, without any mention of reading: a type has its tokens, and a text
renders it if it consists of these tokens with gaps behind them. Gaps are free, but two words must
not touch, and only the last gap may end in a comment without its end.
-/

namespace ThriftIdl

namespace FieldType

/-- A token of a type. -/
inductive Symbol where
  /-- A name or a container word. -/
  | word (text : String)
  /-- A punctuation mark. -/
  | mark (byte : UInt8)
  deriving DecidableEq

namespace Symbol

/-- The text of a token. -/
def bytes : Symbol → List UInt8
  | .word text => Utf8.encode text
  | .mark byte => [byte]

/-- Whether a token is a word. -/
def isWord : Symbol → Bool
  | .word _ => true
  | .mark _ => false

end Symbol

/-- The separators that may stand between the key and the value of a map. -/
def separators : List (List Symbol) := [[], [.mark Byte.comma], [.mark Byte.semicolon]]

/-- The tokens of a type in their order. -/
inductive HasSymbols : FieldType → List Symbol → Prop where
  | named (name : String) : HasSymbols (.named name) [.word name]
  | map {key value : FieldType} {keySymbols separator valueSymbols : List Symbol}
      (ofKey : HasSymbols key keySymbols) (isSeparator : separator ∈ separators)
      (ofValue : HasSymbols value valueSymbols) :
      HasSymbols (.map key value) (.word "map" :: .mark Byte.openAngle ::
        (keySymbols ++ (separator ++ (valueSymbols ++ [.mark Byte.closeAngle]))))
  | list {element : FieldType} {symbols : List Symbol} (ofElement : HasSymbols element symbols) :
      HasSymbols (.list element) (.word "list" :: .mark Byte.openAngle ::
        (symbols ++ [.mark Byte.closeAngle]))
  | set {element : FieldType} {symbols : List Symbol} (ofElement : HasSymbols element symbols) :
      HasSymbols (.set element) (.word "set" :: .mark Byte.openAngle ::
        (symbols ++ [.mark Byte.closeAngle]))

/-- Whether bytes are certain tokens with gaps behind them. -/
inductive Rendered : List Symbol → List UInt8 → Prop where
  | last {symbol : Symbol} {gap : List UInt8} (trailing : Gap.Trailing gap) :
      Rendered [symbol] (symbol.bytes ++ gap)
  | more {symbol next : Symbol} {others : List Symbol} {gap bytes : List UInt8}
      (filler : Gap.Filler gap)
      (apart : symbol.isWord = true → next.isWord = true → gap ≠ [])
      (rendered : Rendered (next :: others) bytes) :
      Rendered (symbol :: next :: others) (symbol.bytes ++ (gap ++ bytes))

/-- Whether a text is a rendering of a type. -/
def Renders (type : FieldType) (source : String) : Prop :=
  ∃ symbols, type.HasSymbols symbols ∧ Rendered symbols (Utf8.encode source)

/-! ### Tokens one after the other -/

/-- Whether bytes are a token, a gap, and the given rest. -/
def Symbol.Spells : Symbol → List UInt8 → List UInt8 → Prop
  | .word text => SpellsName text
  | .mark byte => SpellsMark byte

/-- Whether bytes are certain tokens, a gap behind each of them, and the given rest. -/
inductive SpellsAll : List Symbol → List UInt8 → List UInt8 → Prop where
  | nil (bytes : List UInt8) : SpellsAll [] bytes bytes
  | cons {symbol : Symbol} {symbols : List Symbol} {bytes middle rest : List UInt8}
      (first : symbol.Spells bytes middle) (others : SpellsAll symbols middle rest) :
      SpellsAll (symbol :: symbols) bytes rest

variable {type : FieldType} {symbols others : List Symbol} {bytes rest : List UInt8}

theorem spellsAll_append_iff :
    SpellsAll (symbols ++ others) bytes rest ↔
      ∃ middle, SpellsAll symbols bytes middle ∧ SpellsAll others middle rest := by
  constructor
  · intro spells
    induction symbols generalizing bytes with
    | nil => exact ⟨bytes, .nil bytes, spells⟩
    | cons symbol symbols ih =>
        cases spells with
        | cons first later =>
            obtain ⟨middle, front, back⟩ := ih later
            exact ⟨middle, .cons first front, back⟩
  · rintro ⟨middle, front, back⟩
    induction front with
    | nil => exact back
    | cons first _ ih => exact .cons first (ih back)

theorem spellsAll_singleton {symbol : Symbol} (spells : symbol.Spells bytes rest) :
    SpellsAll [symbol] bytes rest := .cons spells (.nil rest)

theorem exists_separator (spells : SpellsSeparator bytes rest) :
    ∃ separator ∈ separators, SpellsAll separator bytes rest := by
  cases spells with
  | absent _ => exact ⟨[], by simp [separators], .nil bytes⟩
  | @present byte tail isSeparator =>
      refine ⟨[.mark byte], ?_, spellsAll_singleton ⟨tail, rfl, rfl⟩⟩
      simpa [separators, Byte.isSeparator] using isSeparator

/-- The tokens of a type that is spelled are spelled one after the other. -/
theorem exists_hasSymbols (spells : SpellsType type bytes rest) :
    ∃ symbols, type.HasSymbols symbols ∧ SpellsAll symbols bytes rest := by
  induction spells with
  | @named name bytes rest word =>
      exact ⟨_, .named name, @spellsAll_singleton bytes rest (.word name) word⟩
  | map word opening _ separator _ closing ihKey ihValue =>
      obtain ⟨keySymbols, ofKey, spellsKey⟩ := ihKey
      obtain ⟨valueSymbols, ofValue, spellsValue⟩ := ihValue
      obtain ⟨between, isSeparator, spellsBetween⟩ := exists_separator separator
      refine ⟨_, .map ofKey isSeparator ofValue, .cons word (.cons opening ?_)⟩
      simp only [spellsAll_append_iff]
      exact ⟨_, spellsKey, _, spellsBetween, _, spellsValue, spellsAll_singleton closing⟩
  | list word opening _ closing ih =>
      obtain ⟨symbols, ofElement, spellsElement⟩ := ih
      refine ⟨_, .list ofElement, .cons word (.cons opening ?_)⟩
      exact spellsAll_append_iff.2 ⟨_, spellsElement, spellsAll_singleton closing⟩
  | set word opening _ closing ih =>
      obtain ⟨symbols, ofElement, spellsElement⟩ := ih
      refine ⟨_, .set ofElement, .cons word (.cons opening ?_)⟩
      exact spellsAll_append_iff.2 ⟨_, spellsElement, spellsAll_singleton closing⟩

theorem spellsAll_singleton_iff {symbol : Symbol} :
    SpellsAll [symbol] bytes rest ↔ symbol.Spells bytes rest := by
  constructor
  · intro spells
    cases spells with
    | cons first others => cases others; exact first
  · exact spellsAll_singleton

theorem spellsAll_cons_iff {symbol : Symbol} :
    SpellsAll (symbol :: symbols) bytes rest ↔
      ∃ middle, symbol.Spells bytes middle ∧ SpellsAll symbols middle rest := by
  constructor
  · intro spells
    cases spells with
    | cons first others => exact ⟨_, first, others⟩
  · rintro ⟨middle, first, others⟩
    exact .cons first others

/-- A separator between two types is seen as one, and so is its absence. -/
theorem spellsSeparator_of_mem {separator : List Symbol} (isSeparator : separator ∈ separators)
    (spells : SpellsAll separator bytes rest)
    (name : rest.head?.any Byte.isIdentifier = true) : SpellsSeparator bytes rest := by
  simp only [separators, List.mem_cons, List.not_mem_nil, or_false] at isSeparator
  rcases isSeparator with rfl | rfl | rfl
  · cases spells
    refine .absent (stops_of_any_head? name ?_)
    grind [Byte.isIdentifier, Byte.isDigit, Byte.isLetter, Byte.isSeparator]
  · obtain ⟨tail, rfl, rfl⟩ := spellsAll_singleton_iff.1 spells
    exact .present rfl
  · obtain ⟨tail, rfl, rfl⟩ := spellsAll_singleton_iff.1 spells
    exact .present rfl

/-- The tokens of a type, one after the other, spell the type. -/
theorem HasSymbols.spellsType (hasSymbols : type.HasSymbols symbols)
    (spells : SpellsAll symbols bytes rest) : SpellsType type bytes rest := by
  induction hasSymbols generalizing bytes rest with
  | named name => exact .named (spellsAll_singleton_iff.1 spells)
  | map _ isSeparator _ ihKey ihValue =>
      simp only [spellsAll_cons_iff, spellsAll_append_iff] at spells
      obtain ⟨opened, word, inside, opening, afterKey, spellsKey, afterSeparator, between,
        afterValue, spellsValue, last, closing, ends⟩ := spells
      cases ends
      have ofValue := ihValue spellsValue
      exact .map word opening (ihKey spellsKey)
        (spellsSeparator_of_mem isSeparator between ofValue.any_head?) ofValue closing
  | list _ ih =>
      simp only [spellsAll_cons_iff, spellsAll_append_iff] at spells
      obtain ⟨opened, word, inside, opening, afterElement, spellsElement, last, closing, ends⟩ :=
        spells
      cases ends
      exact .list word opening (ih spellsElement) closing
  | set _ ih =>
      simp only [spellsAll_cons_iff, spellsAll_append_iff] at spells
      obtain ⟨opened, word, inside, opening, afterElement, spellsElement, last, closing, ends⟩ :=
        spells
      cases ends
      exact .set word opening (ih spellsElement) closing

/-! ### Tokens and gaps -/

/-- Whether a token is what a type can consist of: a name, or a mark that is part of no name. -/
def Symbol.IsSound : Symbol → Prop
  | .word text => IsName text
  | .mark byte => Gap.isBarrier byte = true ∧ Byte.isIdentifier byte = false

theorem HasSymbols.isSound (hasSymbols : type.HasSymbols symbols) (wellNamed : type.WellNamed) :
    ∀ symbol ∈ symbols, symbol.IsSound := by
  have mark : ∀ byte, Gap.isBarrier byte = true ∧ Byte.isIdentifier byte = false →
      (Symbol.mark byte).IsSound := fun _ sound => sound
  have word : ∀ text, (Token.keyword text).isPlain = true → (Symbol.word text).IsSound :=
    fun _ plain => Token.isName_of_isPlain plain
  induction hasSymbols with
  | named name =>
      intro symbol mem
      obtain rfl := List.mem_singleton.1 mem
      exact wellNamed
  | @map key value keySymbols separator valueSymbols _ isSeparator _ ihKey ihValue =>
      have between : ∀ symbol ∈ separator, symbol.IsSound := by
        intro symbol mem
        simp only [separators, List.mem_cons, List.not_mem_nil, or_false] at isSeparator
        rcases isSeparator with rfl | rfl | rfl
        · cases mem
        · obtain rfl := List.mem_singleton.1 mem
          exact mark _ (by decide)
        · obtain rfl := List.mem_singleton.1 mem
          exact mark _ (by decide)
      simp only [List.forall_mem_cons, List.forall_mem_append]
      exact ⟨word _ (by decide), mark _ (by decide), ihKey wellNamed.1, between,
        ihValue wellNamed.2, mark _ (by decide), by simp⟩
  | list _ ih =>
      simp only [List.forall_mem_cons, List.forall_mem_append]
      exact ⟨word _ (by decide), mark _ (by decide), ih wellNamed, mark _ (by decide), by simp⟩
  | set _ ih =>
      simp only [List.forall_mem_cons, List.forall_mem_append]
      exact ⟨word _ (by decide), mark _ (by decide), ih wellNamed, mark _ (by decide), by simp⟩

theorem Symbol.IsSound.exists_cons {symbol : Symbol} (sound : symbol.IsSound) :
    ∃ byte tail, symbol.bytes = byte :: tail ∧ Gap.isBarrier byte = true ∧
      Byte.isIdentifier byte = symbol.isWord := by
  cases symbol with
  | word text =>
      obtain ⟨byte, tail, encoded⟩ := List.exists_cons_of_ne_nil sound.notEmpty
      have letter : Byte.isIdentifier byte = true := sound.accepted byte (by simp [encoded])
      exact ⟨byte, tail, encoded, Byte.isBarrier_of_isScope (Byte.isScope_of_isIdentifier letter),
        letter⟩
  | mark byte => exact ⟨byte, [], rfl, sound⟩

theorem Symbol.exists_tail {symbol : Symbol} (spells : symbol.Spells bytes rest) :
    ∃ tail, bytes = symbol.bytes ++ tail ∧ rest = Gap.rest tail ∧ symbol.bytes ≠ [] ∧
      (symbol.isWord = true →
        Stops Byte.isIdentifier tail ∧ bytes.head?.any Byte.isIdentifier = true) := by
  cases symbol with
  | word text =>
      have head := SpellsName.any_head? spells
      obtain ⟨isName, tail, rfl, stops, rfl⟩ := spells
      exact ⟨tail, rfl, rfl, isName.notEmpty, fun _ => ⟨stops, head⟩⟩
  | mark byte =>
      obtain ⟨tail, rfl, rfl⟩ := spells
      exact ⟨tail, rfl, rfl, List.cons_ne_nil _ _, nofun⟩

theorem Symbol.IsSound.spells {symbol : Symbol} (sound : symbol.IsSound) {tail : List UInt8}
    (stops : symbol.isWord = true → Stops Byte.isIdentifier tail) :
    symbol.Spells (symbol.bytes ++ tail) (Gap.rest tail) := by
  cases symbol with
  | word text => exact ⟨sound, tail, rfl, stops rfl, rfl⟩
  | mark byte => exact ⟨tail, rfl, rfl⟩

/-- Tokens that are spelled up to the end of some bytes are rendered by these bytes. -/
theorem rendered_of_spellsAll (spells : SpellsAll symbols bytes rest) (atEnd : rest = [])
    (notEmpty : symbols ≠ []) : Rendered symbols bytes := by
  induction spells with
  | nil bytes => exact absurd rfl notEmpty
  | @cons symbol symbols bytes middle rest first others ih =>
      obtain ⟨tail, rfl, behind, -, name⟩ := Symbol.exists_tail first
      cases others with
      | nil => exact .last (Gap.trailing_of_rest_eq_nil (behind ▸ atEnd))
      | @cons next symbols _ _ _ second others =>
          obtain ⟨nextTail, nextSplit, -, nextNotEmpty, nextName⟩ := Symbol.exists_tail second
          have someLeft : Gap.rest tail ≠ [] := by
            rw [← behind, nextSplit]
            simp [nextNotEmpty]
          have rendered := ih atEnd (List.cons_ne_nil _ _)
          cases Gap.shape tail with
          | trailing trailing => exact absurd (Gap.rest_of_trailing trailing) someLeft
          | settled gap filler split _ =>
              rw [← behind] at split
              rw [split]
              refine .more filler (fun isWord nextIsWord empty => ?_) rendered
              rw [empty, List.nil_append] at split
              have stops := (name isWord).1
              have goesOn := (nextName nextIsWord).2
              rw [split, Stops, goesOn] at stops
              cases stops

theorem Rendered.exists_append {symbol : Symbol}
    (rendered : Rendered (symbol :: symbols) bytes) : ∃ tail, bytes = symbol.bytes ++ tail := by
  cases rendered with
  | last _ => exact ⟨_, rfl⟩
  | more _ _ _ => exact ⟨_, rfl⟩

/-- Rendered tokens are spelled one after the other up to the end. -/
theorem Rendered.spellsAll (rendered : Rendered symbols bytes)
    (sound : ∀ symbol ∈ symbols, symbol.IsSound) : SpellsAll symbols bytes [] := by
  have notScope : ∀ {tail : List UInt8}, Stops Byte.isScope tail →
      Stops Byte.isIdentifier tail := fun stops => stops.mono fun _ => Byte.isScope_of_isIdentifier
  induction rendered with
  | @last symbol gap trailing =>
      have spells := (sound symbol (by simp)).spells fun _ => notScope (stops_of_trailing trailing)
      rw [Gap.rest_of_trailing trailing] at spells
      exact spellsAll_singleton spells
  | @more symbol next others gap bytes filler apart rendered ih =>
      obtain ⟨byte, tail, nextBytes, barrier, letter⟩ := (sound next (by simp)).exists_cons
      obtain ⟨after, rfl⟩ := rendered.exists_append
      have settled : Gap.Settled (next.bytes ++ after) := by
        rw [nextBytes]
        exact Gap.settled_of_barrier barrier _
      have stops : symbol.isWord = true → Stops Byte.isIdentifier (gap ++ (next.bytes ++ after)) := by
        intro isWord
        by_cases empty : gap = []
        · have notWord : next.isWord = false := by
            cases nextIsWord : next.isWord with
            | true => exact absurd empty (apart isWord nextIsWord)
            | false => rfl
          rw [empty, nextBytes]
          exact stops_cons.2 (letter.trans notWord)
        · exact notScope (stops_of_filler filler empty _)
      have spells := (sound symbol (by simp)).spells stops
      rw [Gap.rest_append_of_filler filler, Gap.rest_of_settled settled] at spells
      exact .cons spells (ih fun other mem => sound other (by simp [mem]))

/-- A type is spelled up to the end of a text exactly if it is well named and rendered there. -/
theorem spellsType_iff_renders {source : String} :
    SpellsType type (Utf8.encode source) [] ↔ type.WellNamed ∧ type.Renders source := by
  constructor
  · intro spells
    obtain ⟨symbols, hasSymbols, spellsAll⟩ := exists_hasSymbols spells
    have notEmpty : symbols ≠ [] := by cases hasSymbols <;> simp
    exact ⟨spells.wellNamed, symbols, hasSymbols, rendered_of_spellsAll spellsAll rfl notEmpty⟩
  · rintro ⟨wellNamed, symbols, hasSymbols, rendered⟩
    exact hasSymbols.spellsType (rendered.spellsAll (hasSymbols.isSound wellNamed))

/--
A text is read as a type up to its end exactly if it renders the type and the type nests at most 64
levels. No text renders two types.
-/
theorem reads_exactly_renderings :
    (∀ (source : String) (type : FieldType),
      (∃ after, (Grammar.fieldType Grammar.maxNesting).run
          (State.startAt (Utf8.encode source) 0) = .done type after ∧
        after.cursor.atEnd = true) ↔
      type.depth ≤ 64 ∧ type.WellNamed ∧ type.Renders source) ∧
    ∀ source : String,
      Set.Subsingleton { type : FieldType | type.WellNamed ∧ type.Renders source } := by
  constructor
  · intro source type
    rw [← spellsType_iff_renders]
    constructor
    · rintro ⟨after, ran, atEnd⟩
      have found := Rule.read_of_run_done ran
      rw [show after.cursor.remaining = [] from List.isEmpty_iff.1 atEnd] at found
      obtain ⟨spells, shallow⟩ := spellsType_of_read found
      exact ⟨shallow, spells⟩
    · rintro ⟨shallow, spells⟩
      have found : (Grammar.fieldType Grammar.maxNesting).read
          (State.startAt (Utf8.encode source) 0).cursor.remaining = some (type, []) :=
        spells.read shallow (stops_nil _)
      obtain ⟨after, ran, remaining, -⟩ := Rule.exists_run_of_read found
      exact ⟨after, ran, List.isEmpty_iff.2 remaining⟩
  · intro source type isType other isOther
    exact (spellsType_iff_renders.2 isType).unique (spellsType_iff_renders.2 isOther)

end FieldType

end ThriftIdl
