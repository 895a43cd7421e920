import ThriftIdl.Proofs.Grammar.Declarations
import ThriftIdl.Proofs.Grammar.Related

/-!
# More text on a new line

What a text spells does not change when more text follows on a new line. No token reaches over the
line feed, and where the text ends nothing is looked for but a separator or the dot of a longer
reference, so the only texts that could still be taken for a part of it are those that begin with
one of these.
-/

namespace ThriftIdl

open Rule

/-- What remains of some bytes when a line feed and more text follow the source they end. -/
def extend (more bytes : List UInt8) : List UInt8 :=
  if bytes = [] then Gap.rest more else bytes ++ Byte.lineFeed :: more

/-- Whether a text begins with nothing that could belong to a declaration in front of it. -/
def Quiet (more : List UInt8) : Prop :=
  Stops (fun byte => Byte.isSeparator byte || byte == Byte.dot) (Gap.rest more)

/-- A dot with nothing behind it. -/
def Dangling (bytes : List UInt8) : Prop := ∃ tail, bytes = Byte.dot :: tail ∧ Gap.rest tail = []

/-- The end of a source, or a dot in front of it. -/
def Spent (bytes : List UInt8) : Prop := bytes = [] ∨ Dangling bytes

variable {more bytes rest : List UInt8} {room : Nat}

theorem extend_of_ne_nil (notEmpty : bytes ≠ []) :
    extend more bytes = bytes ++ Byte.lineFeed :: more := if_neg notEmpty

@[simp]
theorem extend_nil : extend more [] = Gap.rest more := if_pos rfl

/-- A gap that is extended ends where the gap ended, or goes on in the new line. -/
theorem rest_append_eq_extend (closed : Gap.CommentsClosed bytes) :
    Gap.rest (bytes ++ Byte.lineFeed :: more) = extend more (Gap.rest bytes) :=
  Gap.rest_append_lineFeed closed more

theorem Stops.extend {accepts : UInt8 → Bool} (stops : Stops accepts bytes)
    (quiet : Stops accepts (Gap.rest more)) : Stops accepts (extend more bytes) := by
  cases bytes with
  | nil => exact quiet
  | cons byte tail => exact stops

/-! ### Tokens -/

theorem Token.recognize_append_lineFeed {α : Type} {terminal : Token α}
    (plain : terminal.isPlain = true) {value : α} {length : Nat}
    (found : terminal.recognize bytes = .found value length) :
    terminal.recognize (bytes ++ Byte.lineFeed :: more) = .found value length := by
  have notEmpty : bytes ≠ [] := by
    rintro rfl
    have spans := Token.recognize_spans plain found
    exact absurd spans.head (by simp)
  cases quoted : terminal.isQuoted with
  | false =>
      rw [Token.recognize_append plain quoted notEmpty (stops_cons.2 ?_), found]
      cases terminal <;> rfl
  | true =>
      rw [← List.take_append_drop length bytes, List.append_assoc]
      exact Token.recognize_take_append quoted found _

/-- A token that is there is still there when more text follows. -/
theorem Token.read_extend {α : Type} {terminal : Token α} (plain : terminal.isPlain = true)
    {value : α} (closed : Gap.CommentsClosed bytes)
    (found : terminal.read bytes = some (value, rest)) :
    terminal.read (extend more bytes) = some (value, extend more rest) := by
  obtain ⟨length, recognized, rfl⟩ := Token.read_eq_some_iff.1 found
  have spans := Token.recognize_spans plain recognized
  have notEmpty : bytes ≠ [] := by
    rintro rfl
    exact absurd spans.head (by simp)
  rw [extend_of_ne_nil notEmpty]
  refine Token.read_eq_some_iff.2 ⟨length, Token.recognize_append_lineFeed plain recognized, ?_⟩
  rw [List.drop_append_of_le_length spans.fits,
    rest_append_eq_extend (closed.suffix (List.drop_suffix length bytes))]

theorem closed_of_read {α : Type} {rule : Rule α} (wellFormed : rule.WellFormed) {value : α}
    (closed : Gap.CommentsClosed bytes) (found : rule.read bytes = some (value, rest)) :
    Gap.CommentsClosed rest :=
  closed.suffix (stays_or_consumes wellFormed found).suffix

/-- A rule of one token that matches still matches when more text follows. -/
theorem Rule.Lexical.read_extend {α : Type} {rule : Rule α} (lexical : rule.Lexical)
    (wellFormed : rule.WellFormed) (notNullable : ¬rule.Nullable) {value : α}
    (closed : Gap.CommentsClosed bytes) (found : rule.read bytes = some (value, rest)) :
    rule.read (extend more bytes) = some (value, extend more rest) := by
  have notEmpty : bytes ≠ [] := by
    rintro rfl
    exact absurd (consumes_of_read wellFormed notNullable found).shorter (Nat.not_lt_zero _)
  cases lexical bytes notEmpty with
  | missing read =>
      have missing := read [] (stops_nil _)
      rw [List.append_nil, found] at missing
      cases missing
  | found other length positive fits read =>
      have same := read [] (stops_nil _)
      rw [List.append_nil, List.append_nil, found] at same
      cases same
      rw [extend_of_ne_nil notEmpty, read _ (stops_cons.2 rfl),
        rest_append_eq_extend (closed.suffix (List.drop_suffix length bytes))]

theorem Rule.Lexical.read_extend_eq_none {α : Type} {rule : Rule α} (lexical : rule.Lexical)
    (notEmpty : bytes ≠ []) (missing : rule.read bytes = none) :
    rule.read (extend more bytes) = none := by
  rw [extend_of_ne_nil notEmpty]
  exact (lexical.read_append_eq_none_iff notEmpty (stops_cons.2 rfl)).2 missing

/-! ### Words, marks and separators -/

/-- Whether something is still spelled when more text follows, and no comment is left open. -/
def Extends (more : List UInt8) (spells : List UInt8 → List UInt8 → Prop)
    (bytes rest : List UInt8) : Prop :=
  spells (extend more bytes) (extend more rest) ∧ Gap.CommentsClosed rest

theorem Token.extends_read {α : Type} {terminal : Token α} (plain : terminal.isPlain = true)
    {value : α} (closed : Gap.CommentsClosed bytes)
    (found : terminal.read bytes = some (value, rest)) :
    Extends more (fun bytes rest => terminal.read bytes = some (value, rest)) bytes rest :=
  ⟨Token.read_extend plain closed found,
    @closed_of_read bytes rest α (.token terminal) plain value closed found⟩

theorem SpellsName.extend {text : String} (spells : SpellsName text bytes rest)
    (closed : Gap.CommentsClosed bytes) : Extends more (SpellsName text) bytes rest := by
  obtain ⟨found, closedRest⟩ :=
    Token.extends_read rfl closed (Token.read_identifier_iff.2 spells)
  exact ⟨Token.read_identifier_iff.1 found, closedRest⟩

theorem SpellsWord.extend_scope {text : String} (spells : SpellsWord Byte.isScope text bytes rest)
    (closed : Gap.CommentsClosed bytes) :
    Extends more (SpellsWord Byte.isScope text) bytes rest := by
  obtain ⟨found, closedRest⟩ := Token.extends_read rfl closed (Token.read_scope_iff.2 spells)
  exact ⟨Token.read_scope_iff.1 found, closedRest⟩

theorem SpellsMark.extend {byte : UInt8} (spells : SpellsMark byte bytes rest)
    (closed : Gap.CommentsClosed bytes) : Extends more (SpellsMark byte) bytes rest := by
  obtain ⟨tail, rfl, rfl⟩ := spells
  have closedTail := closed.suffix (List.suffix_cons byte tail)
  refine ⟨⟨tail ++ Byte.lineFeed :: more, ?_, ?_⟩, closedTail.suffix (Gap.rest_suffix tail)⟩
  · rw [extend_of_ne_nil (List.cons_ne_nil _ _), List.cons_append]
  · rw [rest_append_eq_extend closedTail]

theorem SpellsSeparator.extend (quiet : Quiet more) (spells : SpellsSeparator bytes rest)
    (closed : Gap.CommentsClosed bytes) : Extends more SpellsSeparator bytes rest := by
  cases spells with
  | absent stops =>
      exact ⟨.absent (stops.extend (quiet.mono fun byte separator => by simp [separator])), closed⟩
  | @present byte tail separator =>
      have closedTail := closed.suffix (List.suffix_cons byte tail)
      refine ⟨?_, closedTail.suffix (Gap.rest_suffix tail)⟩
      rw [extend_of_ne_nil (List.cons_ne_nil _ _), List.cons_append,
        ← rest_append_eq_extend closedTail]
      exact .present separator

theorem SpellsType.extend {type : FieldType} (quiet : Quiet more)
    (spells : SpellsType type bytes rest) (closed : Gap.CommentsClosed bytes) :
    Extends more (SpellsType type) bytes rest := by
  induction spells with
  | named word =>
      obtain ⟨word, closed⟩ := word.extend closed
      exact ⟨.named word, closed⟩
  | map word opening _ separator _ closing ihKey ihValue =>
      obtain ⟨word, closed⟩ := word.extend closed
      obtain ⟨opening, closed⟩ := opening.extend closed
      obtain ⟨key, closed⟩ := ihKey closed
      obtain ⟨separator, closed⟩ := separator.extend quiet closed
      obtain ⟨value, closed⟩ := ihValue closed
      obtain ⟨closing, closed⟩ := closing.extend closed
      exact ⟨.map word opening key separator value closing, closed⟩
  | list word opening _ closing ih =>
      obtain ⟨word, closed⟩ := word.extend closed
      obtain ⟨opening, closed⟩ := opening.extend closed
      obtain ⟨element, closed⟩ := ih closed
      obtain ⟨closing, closed⟩ := closing.extend closed
      exact ⟨.list word opening element closing, closed⟩
  | set word opening _ closing ih =>
      obtain ⟨word, closed⟩ := word.extend closed
      obtain ⟨opening, closed⟩ := opening.extend closed
      obtain ⟨element, closed⟩ := ih closed
      obtain ⟨closing, closed⟩ := closing.extend closed
      exact ⟨.set word opening element closing, closed⟩

theorem SpellsOption.extend {α : Type} {spells : α → List UInt8 → List UInt8 → Prop}
    {part : Option α} (spelled : SpellsOption spells part bytes rest)
    (ofPart : ∀ part, spells part bytes rest → Extends more (spells part) bytes rest)
    (closed : Gap.CommentsClosed bytes) :
    Extends more (SpellsOption spells part) bytes rest := by
  cases spelled with
  | absent => exact ⟨.absent _, closed⟩
  | present spelledPart =>
      obtain ⟨extended, closed⟩ := ofPart _ spelledPart
      exact ⟨.present extended, closed⟩

/-- Items are extended one by one, where something is known of the bytes behind each of them. -/
theorem Rule.Repeats.extend {α : Type} {step : List UInt8 → α → List UInt8 → Prop}
    (follows : List UInt8 → Prop) {items : List α} (repeats : Repeats step bytes items rest)
    (starts : ∀ bytes item rest, step bytes item rest → follows rest → follows bytes)
    (extends_step : ∀ {bytes item rest}, step bytes item rest → follows rest →
      Gap.CommentsClosed bytes → Extends more (step · item ·) bytes rest)
    (ends : follows rest) (closed : Gap.CommentsClosed bytes) :
    Extends more (Repeats step · items ·) bytes rest := by
  induction repeats with
  | nil bytes => exact ⟨.nil _, closed⟩
  | @cons bytes middle rest item items first others ih =>
      have middleFollows := (others.imp_of_follows starts (fun _ _ _ same _ => same) ends).2
      obtain ⟨firstExtended, closed⟩ := extends_step first middleFollows closed
      obtain ⟨othersExtended, closed⟩ := ih ends closed
      exact ⟨.cons firstExtended othersExtended, closed⟩

/-! ### Dots without a name -/

theorem spent_of_token {α : Type} {terminal : Token α} (plain : terminal.isPlain = true)
    {value : α} (spent : Spent bytes) (found : terminal.read bytes = some (value, rest)) :
    Spent rest := by
  obtain ⟨length, recognized, rfl⟩ := Token.read_eq_some_iff.1 found
  have spans := Token.recognize_spans plain recognized
  rcases spent with rfl | ⟨tail, rfl, nothing⟩
  · exact absurd spans.head (by simp)
  · have opens : terminal.opens Byte.dot = true := spans.head
    have unquoted : terminal.isQuoted = false := by
      cases terminal with
      | string => cases opens
      | path => cases opens
      | _ => rfl
    have stops : Stops Byte.isScope tail :=
      stops_of_trailing (Gap.trailing_of_rest_eq_nil nothing)
    have alone : terminal.recognize [Byte.dot] = .found value length := by
      rw [← recognized]
      exact (Token.recognize_append_of_stops plain unquoted (List.cons_ne_nil _ _) stops).symm
    have fits : length ≤ 1 := (Token.recognize_spans plain alone).fits
    obtain rfl : length = 1 := Nat.le_antisymm fits spans.positive
    exact .inl nothing

/-- From a dot with nothing behind it, reading gets to the end of the source or nowhere. -/
theorem kept_spent : Kept Spent where
  token _ _ _ _ plain spent found := spent_of_token plain spent found
  separator separator spent := by
    rcases spent with nothing | ⟨tail, same, -⟩
    · exact absurd nothing (List.cons_ne_nil _ _)
    · rw [(List.cons.inj same).1] at separator
      exact absurd separator (by decide)

/-- Behind what is read, something is left that can be read on only if it was so in front of it. -/
theorem not_spent_of_read {α : Type} {rule : Rule α} (wellFormed : rule.WellFormed) {value : α}
    (found : rule.read bytes = some (value, rest)) (notSpent : ¬Spent rest) : ¬Spent bytes :=
  fun spent => notSpent (kept_spent.read wellFormed spent found)

theorem not_spent_of_mark {byte : UInt8} (mark : SpellsMark byte bytes rest)
    (notDot : byte ≠ Byte.dot) : ¬Spent bytes := by
  obtain ⟨tail, rfl, -⟩ := mark
  rintro (nothing | ⟨_, same, -⟩)
  · exact List.cons_ne_nil _ _ nothing
  · exact notDot (List.cons.inj same).1

theorem SpellsSeparator.not_spent (separator : SpellsSeparator bytes rest)
    (notSpent : ¬Spent rest) : ¬Spent bytes := by
  cases separator with
  | absent _ => exact notSpent
  | present isSeparator =>
      refine not_spent_of_mark ⟨_, rfl, rfl⟩ ?_
      rintro rfl
      exact absurd isSeparator (by decide)

theorem SpellsSeparator.not_dangling (separator : SpellsSeparator bytes rest)
    (notDangling : ¬Dangling rest) : ¬Dangling bytes := by
  cases separator with
  | absent _ => exact notDangling
  | present isSeparator =>
      rintro ⟨tail, same, -⟩
      rw [(List.cons.inj same).1] at isSeparator
      exact absurd isSeparator (by decide)

/-! ### References -/

/-- A reference that has ended has no further segment in the new line. -/
theorem read_segment_extend_eq_none (quiet : Quiet more) (notDangling : ¬Dangling rest)
    (closed : Gap.CommentsClosed rest) (missing : Grammar.segment.read rest = none) :
    Grammar.segment.read (extend more rest) = none := by
  cases rest with
  | nil => exact read_mark_bind_eq_none (quiet.mono fun byte dot => by simp_all)
  | cons byte tail =>
      rw [extend_of_ne_nil (List.cons_ne_nil _ _)]
      by_cases dot : byte = Byte.dot
      · subst dot
        have closedTail := closed.suffix (List.suffix_cons Byte.dot tail)
        have someLeft : Gap.rest tail ≠ [] := fun nothing => notDangling ⟨tail, rfl, nothing⟩
        have segment : ∀ tail, Grammar.segment.read (Byte.dot :: tail) =
            identifier.read (Gap.rest tail) := fun tail =>
          read_bind_of_some ((@Token.read_mark_iff _ _ _ ()).2 ⟨tail, rfl, rfl⟩)
        have noName := (segment tail).symm.trans missing
        have lexical : identifier.Lexical := lexical_token rfl rfl fun _ => id
        have noNameLater : identifier.read (extend more (Gap.rest tail)) = none :=
          lexical.read_extend_eq_none someLeft noName
        rw [← rest_append_eq_extend closedTail] at noNameLater
        exact (segment _).trans noNameLater
      · refine read_mark_bind_eq_none (stops_cons.2 ?_)
        simpa using dot

theorem SpellsSegment.extend {name : String} (spells : SpellsSegment bytes name rest)
    (closed : Gap.CommentsClosed bytes) : Extends more (SpellsSegment · name ·) bytes rest := by
  obtain ⟨middle, mark, word⟩ := spells
  obtain ⟨mark, closed⟩ := mark.extend closed
  obtain ⟨word, closed⟩ := word.extend closed
  exact ⟨⟨_, mark, word⟩, closed⟩

theorem SpellsReference.extend {segments : List String} (quiet : Quiet more)
    (spells : SpellsReference segments bytes rest) (notDangling : ¬Dangling rest)
    (closed : Gap.CommentsClosed bytes) :
    Extends more (SpellsReference segments) bytes rest := by
  cases spells with
  | intro word others ends =>
      obtain ⟨word, closed⟩ := word.extend closed
      obtain ⟨others, closed⟩ := others.extend (fun _ => True) (fun _ _ _ _ _ => trivial)
        (fun spelled _ => spelled.extend) trivial closed
      exact ⟨.intro word others (read_segment_extend_eq_none quiet notDangling closed ends), closed⟩

end ThriftIdl
