import ThriftIdl.Proofs.Grammar.First
import ThriftIdl.Proofs.Reading.Parallel

/-!
# Either separator

Commas and semicolons are the same to every rule. A separator is looked for as one or the other, no
token begins with one, and outside of quotes no token reaches over one. So two sources that differ
only in their separators, with no quotes in them, are read in parallel: place by place the same
tokens are recognised in both.
-/

namespace ThriftIdl

/-- Whether two bytes are the same one, or two separators. -/
def Byte.SameButSeparator (near far : UInt8) : Prop :=
  far = near ∨ isSeparator near = true ∧ isSeparator far = true

/-- Whether bytes differ at most in which separators they have. -/
abbrev SameButSeparators (near far : List UInt8) : Prop :=
  List.Forall₂ Byte.SameButSeparator near far

/-- Whether there is no quote of either kind in some bytes. -/
def Unquoted (bytes : List UInt8) : Prop := ∀ byte ∈ bytes, Byte.isQuote byte = false

instance (near far : UInt8) : Decidable (Byte.SameButSeparator near far) :=
  inferInstanceAs (Decidable (_ ∨ _))

instance (bytes : List UInt8) : Decidable (Unquoted bytes) :=
  inferInstanceAs (Decidable (∀ byte ∈ bytes, _))

/-! ### Bytes -/

namespace Byte.SameButSeparator

variable {byte other : UInt8} (same : Byte.SameButSeparator byte other)

include same

/-- A byte that is no separator is the same one in both. -/
theorem eq_iff {value : UInt8} (notSeparator : isSeparator value = false) :
    other = value ↔ byte = value := by
  rcases same with rfl | ⟨separator, otherSeparator⟩
  · rfl
  · constructor
    · rintro rfl
      simp [notSeparator] at otherSeparator
    · rintro rfl
      simp [notSeparator] at separator

/-- A class without separators has both bytes or neither. -/
theorem accepts_eq {accepts : UInt8 → Bool}
    (refuses : ∀ byte, isSeparator byte = true → accepts byte = false) :
    accepts other = accepts byte := by
  rcases same with rfl | ⟨separator, otherSeparator⟩
  · rfl
  · rw [refuses byte separator, refuses other otherSeparator]

theorem isSeparator_eq : isSeparator other = isSeparator byte := by
  rcases same with rfl | ⟨separator, otherSeparator⟩
  · rfl
  · rw [separator, otherSeparator]

theorem isBlank_eq : isBlank other = isBlank byte := by
  apply same.accepts_eq
  grind [isSeparator, isBlank]

theorem isLineEnd_eq : isLineEnd other = isLineEnd byte := by
  apply same.accepts_eq
  grind [isSeparator, isLineEnd]

theorem isQuote_eq : isQuote other = isQuote byte := by
  apply same.accepts_eq
  grind [isSeparator, isQuote]

/-- No separator is counted as a line ending. -/
theorem pass_eq (position : Position) : position.pass other = position.pass byte := by
  have lineFeed : isSeparator lineFeed = false := rfl
  have carriageReturn : isSeparator carriageReturn = false := rfl
  simp only [Position.pass, Position.record, same.eq_iff lineFeed, same.eq_iff carriageReturn]

end Byte.SameButSeparator

variable {α : Type} {near far : List UInt8}

/-- No quote is a separator. -/
theorem Unquoted.of_same (unquoted : Unquoted near) (same : SameButSeparators near far) :
    Unquoted far := by
  induction same with
  | nil => exact unquoted
  | cons head _ ih =>
      rcases List.forall_mem_cons.1 unquoted with ⟨first, others⟩
      exact List.forall_mem_cons.2 ⟨head.isQuote_eq.trans first, ih others⟩

/-- A gap ends at the same place, whatever separators stand in its comments. -/
theorem Gap.skip_sameButSeparators (same : SameButSeparators near far) (mode : Mode)
    (position : Position) :
    (skip mode position far).position = (skip mode position near).position ∧
      SameButSeparators (skip mode position near).remaining (skip mode position far).remaining := by
  have hash : Byte.isSeparator Byte.hash = false := rfl
  have slash : Byte.isSeparator Byte.slash = false := rfl
  have star : Byte.isSeparator Byte.star = false := rfl
  fun_induction skip mode position near generalizing far <;> rcases same with _ | ⟨head, tail⟩
  case case1 => exact ⟨rfl, .nil⟩
  -- the bytes of the far source decide as those of the near source do
  all_goals
    rw [skip.eq_def]
    simp only [head.isBlank_eq, head.isLineEnd_eq, head.eq_iff hash, head.eq_iff slash]
  case case2 | case3 | case8 | case12 | case13 => simp_all [head.pass_eq]
  case case4 | case9 =>
    cases tail
    simp_all [head.pass_eq]
  case case5 | case6 | case7 | case10 =>
    rcases tail with _ | ⟨second, tail⟩
    simp_all [head.eq_iff star, second.eq_iff star, second.eq_iff slash]
  case case11 =>
    rename_i goesOn ih _ _
    rcases tail with _ | ⟨second, tail⟩
    simp only [head.pass_eq, head.eq_iff star, second.eq_iff slash, if_neg goesOn]
    exact ih (.cons second tail)

/-! ### Tokens -/

/-- Whether a token is plain and does not begin with a separator. -/
@[mk_iff]
structure Token.SparesSeparators (terminal : Token α) : Prop where
  plain : terminal.isPlain = true
  comma : terminal.opens Byte.comma = false
  semicolon : terminal.opens Byte.semicolon = false

theorem Token.SparesSeparators.opens_eq_false {terminal : Token α}
    (spares : terminal.SparesSeparators) {byte : UInt8}
    (separator : Byte.isSeparator byte = true) : terminal.opens byte = false := by
  simp only [Byte.isSeparator, Bool.or_eq_true, beq_iff_eq] at separator
  rcases separator with rfl | rfl
  · exact spares.comma
  · exact spares.semicolon

/-- The bytes in front of the first separator. -/
def untilSeparator (bytes : List UInt8) : List UInt8 :=
  bytes.takeWhile fun byte => !Byte.isSeparator byte

/-- Up to the first separator there is no difference. -/
theorem untilSeparator_eq (same : SameButSeparators near far) :
    untilSeparator far = untilSeparator near := by
  induction same with
  | nil => rfl
  | cons head _ ih =>
      rcases head with rfl | ⟨separator, otherSeparator⟩
      · simp only [untilSeparator, List.takeWhile_cons] at ih ⊢
        rw [ih]
      · simp [untilSeparator, separator, otherSeparator]

/-- Bytes are at their end or go on with a separator behind those in front of the first one. -/
theorem exists_untilSeparator_append (bytes : List UInt8) :
    ∃ back, bytes = untilSeparator bytes ++ back ∧
      ∀ byte ∈ back.head?, Byte.isSeparator byte = true := by
  refine ⟨_, List.takeWhile_append_dropWhile.symm, ?_⟩
  intro byte mem
  have stopped := List.head?_dropWhile_not (fun byte => !Byte.isSeparator byte) bytes
  rw [Option.mem_def.1 mem] at stopped
  simpa using stopped

/-- Outside of quotes a token does not reach over a separator. -/
theorem Token.recognize_untilSeparator {terminal : Token α} (spares : terminal.SparesSeparators)
    (unquoted : terminal.isQuoted = false) (bytes : List UInt8) :
    terminal.recognize (untilSeparator bytes) = terminal.recognize bytes := by
  rcases exists_untilSeparator_append bytes with ⟨back, whole, separator⟩
  generalize untilSeparator bytes = front at whole ⊢
  subst whole
  by_cases empty : front = []
  · subst empty
    refine (recognize_of_not_opens spares.plain ?_).symm
    exact fun byte mem => spares.opens_eq_false (separator byte mem)
  · have stops : Stops Byte.isScope back := by
      cases back with
      | nil => exact stops_nil _
      | cons byte tail =>
          have isSeparator : Byte.isSeparator byte = true := separator byte rfl
          refine stops_cons.2 ?_
          grind [Byte.isSeparator, Byte.isScope, Byte.isIdentifier, Byte.isDigit, Byte.isLetter]
    exact (recognize_append_of_stops spares.plain unquoted empty stops).symm

/-- Where no quotes are, no quoted text is recognised. -/
theorem Token.recognize_of_unquoted {terminal : Token α} (plain : terminal.isPlain = true)
    (quoted : terminal.isQuoted = true) {bytes : List UInt8} (unquoted : Unquoted bytes) :
    terminal.recognize bytes = terminal.recognize [] := by
  apply recognize_of_not_opens plain
  intro byte mem
  have notQuote := unquoted byte (List.mem_of_mem_head? mem)
  cases terminal with
  | string | path => exact notQuote
  | _ => cases quoted

/-- Where no quotes are, the same tokens are recognised. -/
theorem Token.recognize_sameButSeparators {terminal : Token α}
    (spares : terminal.SparesSeparators) (same : SameButSeparators near far)
    (unquoted : Unquoted near) : terminal.recognize far = terminal.recognize near := by
  cases quoted : terminal.isQuoted with
  | false =>
      rw [← recognize_untilSeparator spares quoted far, untilSeparator_eq same,
        recognize_untilSeparator spares quoted near]
  | true =>
      rw [recognize_of_unquoted spares.plain quoted (unquoted.of_same same),
        recognize_of_unquoted spares.plain quoted unquoted]

/-! ### Places -/

/-- Whether two places are the same one, in front of bytes without quotes and with the same ones
but for separators. -/
structure Mark.SameButSeparators (near far : Mark) : Prop where
  position : far.position = near.position
  remaining : ThriftIdl.SameButSeparators near.remaining far.remaining
  unquoted : Unquoted near.remaining

namespace Mark.SameButSeparators

variable {near far : Mark}

theorem bump (same : near.SameButSeparators far) (count : Nat) :
    (near.bump count).SameButSeparators (far.bump count) := by
  have length := same.remaining.length_eq
  constructor
  · simp only [Mark.bump, same.position, List.length_take, length]
  · exact List.forall₂_drop count same.remaining
  · intro byte mem
    exact same.unquoted byte (List.mem_of_mem_drop mem)

theorem skipGap (same : near.SameButSeparators far) :
    near.skipGap.SameButSeparators far.skipGap := by
  rcases Gap.skip_sameButSeparators same.remaining .between near.position with
    ⟨position, remaining⟩
  constructor
  · rw [Mark.skipGap, Mark.skipGap, same.position, position]
  · rw [Mark.skipGap, Mark.skipGap, same.position]
    exact remaining
  · intro byte mem
    rw [Mark.skipGap, Gap.remaining_skip] at mem
    exact same.unquoted byte ((Gap.rest_suffix near.remaining).mem mem)

theorem head_isSeparator (same : near.SameButSeparators far) :
    far.remaining.head?.any Byte.isSeparator = near.remaining.head?.any Byte.isSeparator := by
  have remaining := same.remaining
  generalize near.remaining = nearBytes at remaining ⊢
  generalize far.remaining = farBytes at remaining ⊢
  cases remaining with
  | nil => rfl
  | cons head _ => exact head.isSeparator_eq

end Mark.SameButSeparators

/-- Places in front of the same bytes but for separators correspond where no quotes are. -/
def separatorCorrespondence : Correspondence where
  knows := Token.SparesSeparators
  source := SameButSeparators
  position near far := far = near
  mark := Mark.SameButSeparators
  position_of_mark same := same.position
  offset_le_iff same sameOther := by rw [same, sameOther]
  length_eq same := same.remaining.length_eq.symm
  separator same := same.head_isSeparator
  recognize spares same := Token.recognize_sameButSeparators spares same.remaining same.unquoted
  bump count same := same.bump count
  skipGap same := same.skipGap

/-! ### Rules -/

namespace Grammar

open Rule

@[simp]
theorem tries_value (room : Nat) : (value room).Tries Token.SparesSeparators := by
  induction room with
  | zero => simp [value]
  | succ room ih =>
      simp +decide [value, valueForms, boolean, listOf, mapOf, entryOf, reference, segment,
        identifier, mark, Rule.as, keyword, Token.sparesSeparators_iff, ih]

@[simp]
theorem tries_fieldType (room : Nat) : (fieldType room).Tries Token.SparesSeparators := by
  induction room with
  | zero => simp [fieldType]
  | succ room ih =>
      simp +decide [fieldType, typeForms, mapType, sequenceType, sequenceWord, Rule.as, keyword,
        identifier, mark, Token.sparesSeparators_iff, ih]

@[simp]
theorem tries_field (room : Nat) : (field room).Tries Token.SparesSeparators := by
  simp +decide [field, fieldId, integer, requiredness, defaultValue, Rule.as, keyword, identifier,
    mark, Token.sparesSeparators_iff]

theorem tries_declaration (room : Nat) : (declaration room).Tries Token.SparesSeparators := by
  simp +decide [declaration, declarations, typedef, constant, enumeration, enumItem, itemValue,
    struct, union, exception, service, parent, function, exceptions, bracedFields, fields,
    parenthesizedFields, namespaceName, inclusion, dottedName, reference, segment, integer,
    keyword, identifier, mark, Token.sparesSeparators_iff]

end Grammar

/-- Reading begins at the same place of both sources. -/
theorem State.sameButSeparators_startAt (same : SameButSeparators near far)
    (unquoted : Unquoted near) (offset : Nat) :
    separatorCorrespondence.States (State.startAt near offset) (State.startAt far offset) := by
  have length := same.length_eq
  refine ⟨⟨same, ⟨?_, ?_, ?_⟩, .nil, .none⟩, .none⟩
  · simp [State.startAt, Cursor.startAt, length]
  · exact List.forall₂_drop offset same
  · intro byte mem
    exact unquoted byte (List.mem_of_mem_drop mem)

namespace Document

/--
Commas and semicolons are the same separator: two sources without quotes that differ in nothing else
have the same document from any offset on, or errors of the same kind on the same line.
-/
theorem parseFrom_separators {first second : String}
    (same : SameButSeparators (Utf8.encode first) (Utf8.encode second))
    (unquoted : Unquoted (Utf8.encode first)) (offset : Nat) :
    (∃ document, parseFrom first offset = .ok document ∧
        parseFrom second offset = .ok document) ∨
      ∃ error other, parseFrom first offset = .error error ∧
        parseFrom second offset = .error other ∧
        other.line = error.line ∧ other.kind = error.kind := by
  have start := State.sameButSeparators_startAt same unquoted offset
  have readings : separatorCorrespondence.Readings (Reading.ofSource first offset)
      (Reading.ofSource second offset) :=
    Correspondence.readings_ofState (Grammar.tries_declaration _)
      (start.mapCursor Correspondence.Cursors.skipGap).prepare
  have sameDeclarations := readings.map_fst_eq
  have sameError := readings.error
  simp only [parseFrom, Reading.document, sameDeclarations]
  generalize (Reading.ofSource first offset).error = nearError at sameError ⊢
  generalize (Reading.ofSource second offset).error = farError at sameError ⊢
  cases sameError with
  | none => exact .inl ⟨_, rfl, rfl⟩
  | some errors =>
      rcases errors with ⟨-, failures⟩
      refine .inr ⟨_, _, rfl, rfl, ?_, failures.kind⟩
      exact congrArg Position.line failures.position

/-- An enumeration whose separators, one of them in a comment, are replaced and which breaks off. -/
theorem parseFrom_separators_enumeration :
    SameButSeparators (Utf8.encode "enum E \x7bA, B; // ;\nC")
        (Utf8.encode "enum E \x7bA; B, // ,\nC") ∧
      Unquoted (Utf8.encode "enum E \x7bA, B; // ;\nC") ∧
      ((∃ document, parseFrom "enum E \x7bA, B; // ;\nC" 0 = .ok document ∧
          parseFrom "enum E \x7bA; B, // ,\nC" 0 = .ok document) ∨
        ∃ error other, parseFrom "enum E \x7bA, B; // ;\nC" 0 = .error error ∧
          parseFrom "enum E \x7bA; B, // ,\nC" 0 = .error other ∧
          other.line = error.line ∧ other.kind = error.kind) := by
  have same : SameButSeparators (Utf8.encode "enum E \x7bA, B; // ;\nC")
      (Utf8.encode "enum E \x7bA; B, // ,\nC") := by decide +kernel
  have unquoted : Unquoted (Utf8.encode "enum E \x7bA, B; // ;\nC") := by decide +kernel
  exact ⟨same, unquoted, parseFrom_separators same unquoted 0⟩

end Document

end ThriftIdl
