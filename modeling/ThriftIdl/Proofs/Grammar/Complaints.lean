import ThriftIdl.Proofs.Grammar.Failing
import ThriftIdl.Proofs.Grammar.First
import ThriftIdl.Proofs.Grammar.Related
import ThriftIdl.Proofs.Text.Lines

/-!
# What rules complain about

A rule that starts behind a gap fails in front of a token that it did not expect, or at the end of
the source. Only numbers are also blamed on a place inside or right behind themselves, and there the
next byte may end the line. What was expected is always said without a line ending.
-/

namespace ThriftIdl

variable {α : Type}

/-- What is missing where a number breaks off or is out of range. -/
def Lexeme.numberFaults : List String :=
  [ "hexadecimal digits", "hexadecimal literal of at most 64 bits", "exponent digits",
    "scientific-notation literal", "well-formed numeric literal",
    "integer literal within 64 bits" ]

/-- Whether a number is blamed on what stands inside or right behind it. -/
def Lexeme.FaultsNumber (kind : FailureKind) (expected : Expected) : Prop :=
  kind = .lexical ∧ ∃ what ∈ numberFaults, expected = .description what

/-- Whether nothing is missing in front of a line ending but the rest of a number. -/
def Lexeme.Misses (bytes : List UInt8) : Lexeme α → Prop
  | .found _ _ => True
  | .missing kind expected understood =>
    Stops Byte.isLineEnd (bytes.drop understood) ∨ FaultsNumber kind expected

namespace Lexeme

variable {bytes : List UInt8} (stops : Stops Byte.isLineEnd bytes)

theorem misses_number {what : String} (isFault : what ∈ numberFaults) (understood : Nat) :
    (malformed what understood : Lexeme α).Misses bytes :=
  .inr ⟨rfl, what, isFault, rfl⟩

include stops

theorem misses_here (expected : String) : (malformed expected 0 : Lexeme α).Misses bytes :=
  .inl stops

theorem misses_word (accepts : UInt8 → Bool) (expected : String) :
    (word accepts expected bytes).Misses bytes := by
  simp only [word]
  split_ifs
  · exact misses_here stops expected
  · trivial

theorem misses_keyword (text : String) : (keyword text bytes).Misses bytes := by
  simp only [keyword]
  split_ifs
  · trivial
  · exact .inl stops

theorem misses_mark (expected : UInt8) : (mark expected bytes).Misses bytes := by
  simp only [mark]
  split_ifs
  · trivial
  · exact .inl stops

theorem misses_hexadecimal : (hexadecimal bytes).Misses bytes := by
  simp only [hexadecimal]
  split_ifs
  · exact misses_number (by decide) _
  · exact misses_number (by decide) _
  · trivial
  · trivial
  · exact misses_here stops _

theorem misses_scientific : (scientific bytes).Misses bytes := by
  simp only [scientific]
  split_ifs
  · exact misses_number (by decide) _
  · split
    · trivial
    · exact misses_number (by decide) _
  · exact misses_here stops _

theorem misses_decimal : (decimal bytes).Misses bytes := by
  unfold decimal
  extract_lets sign body text asDouble number
  clear_value number
  split_ifs
  · exact misses_here stops _
  · cases number with
    | none => exact misses_number (by decide) _
    | some value => trivial

theorem misses_integer : (integer bytes).Misses bytes := by
  simp only [integer]
  split_ifs with empty goesOn
  · exact misses_here stops _
  · have notLineEnd : ∀ byte, continuesNumber byte = true → Byte.isLineEnd byte = false := by
      grind [continuesNumber, Byte.isLineEnd, Byte.isExponentMark, Byte.isHexMark]
    exact .inl (stops_of_any_head? goesOn notLineEnd)
  · split
    · trivial
    · exact misses_number (by decide) _

theorem misses_quoted (body : UInt8 → List UInt8 → Option (List UInt8))
    (opening closing : String) : (quoted body opening closing bytes).Misses bytes := by
  cases bytes with
  | nil => exact misses_here stops opening
  | cons quote rest =>
      simp only [quoted]
      split_ifs
      · split
        · trivial
        · refine .inl ?_
          rw [List.drop_length]
          exact stops_nil _
      · exact misses_here stops opening

end Lexeme

/-- Where no line ends, tokens are missed in front of none, except for the rest of a number. -/
theorem Token.misses_recognize (token : Token α) {bytes : List UInt8}
    (stops : Stops Byte.isLineEnd bytes) : (token.recognize bytes).Misses bytes := by
  cases token with
  | identifier => exact Lexeme.misses_word stops _ _
  | scope => exact Lexeme.misses_word stops _ _
  | keyword word => exact Lexeme.misses_keyword stops word
  | mark byte => exact Lexeme.misses_mark stops byte
  | hexadecimal => exact Lexeme.misses_hexadecimal stops
  | scientific => exact Lexeme.misses_scientific stops
  | decimal => exact Lexeme.misses_decimal stops
  | integer => exact Lexeme.misses_integer stops
  | string => exact Lexeme.misses_quoted stops _ _ _
  | path => exact Lexeme.misses_quoted stops _ _ _

/-- A byte that neither ends a line nor is part of a character is inline. -/
theorem inline_toChar {byte : UInt8} (notLineEnd : Byte.isLineEnd byte = false) :
    Inline (String.singleton (Byte.toChar byte)) := by
  have code : (Byte.toChar byte).toNat = byte.toNat := by
    have upper : byte.toNat < 256 := byte.toNat_lt
    rw [Byte.toChar, Char.toNat_ofNat, if_pos (by unfold Nat.isValidChar; omega)]
  have differ : ∀ other : UInt8, Byte.isLineEnd other = true →
      (Byte.toChar byte).toNat ≠ other.toNat := by
    intro other isLineEnd same
    rw [code, UInt8.toNat_inj] at same
    rw [same, isLineEnd] at notLineEnd
    cases notLineEnd
  constructor
  · intro mem
    rw [String.toList_singleton, List.mem_singleton] at mem
    exact differ Byte.lineFeed rfl (mem ▸ rfl)
  · intro mem
    rw [String.toList_singleton, List.mem_singleton] at mem
    exact differ Byte.carriageReturn rfl (mem ▸ rfl)

/-- What is said to be missing for a plain token is inline. -/
theorem Token.inline_of_missing {token : Token α} (plain : token.isPlain = true)
    {bytes : List UInt8} {kind : FailureKind} {expected : Expected} {understood : Nat}
    (missing : token.recognize bytes = .missing kind expected understood) :
    Inline expected.text := by
  have tick : Inline "`" := by decide
  cases token with
  | keyword word =>
      have letters : ∀ byte ∈ Utf8.encode word, Byte.isLineEnd byte = false := by
        simp only [isPlain, Bool.and_eq_true, List.all_eq_true] at plain
        intro byte mem
        have letter := plain.2 byte mem
        grind [Byte.isIdentifier, Byte.isDigit, Byte.isLetter, Byte.isLineEnd]
      simp only [recognize, Lexeme.keyword] at missing
      split_ifs at missing
      cases missing
      simp only [Expected.text, inline_append, tick, inline_of_bytes letters, and_self]
  | mark byte =>
      have notLineEnd : Byte.isLineEnd byte = false := by
        grind [isPlain, Gap.isBarrier, Byte.isSpace]
      simp only [recognize, Lexeme.mark] at missing
      split_ifs at missing
      cases missing
      simp only [Expected.text, inline_append, tick, inline_toChar notLineEnd, and_self]
  | _ =>
      simp only [recognize, Lexeme.word, Lexeme.hexadecimal, Lexeme.scientific, Lexeme.decimal,
        Lexeme.integer, Lexeme.quoted, Lexeme.malformed] at missing
      repeat' split at missing
      all_goals cases missing <;> decide
/-! ### Rules -/

theorem Gap.Settled.stops_lineEnd {bytes : List UInt8} (settled : Gap.Settled bytes) :
    Stops Byte.isLineEnd bytes := by
  cases bytes with
  | nil => exact stops_nil _
  | cons byte tail =>
      have notSpace : Byte.isSpace byte = false := settled.1
      simp only [Byte.isSpace, Bool.or_eq_false_iff] at notSpace
      exact notSpace.2

/-- Behind a token or a separator there is never a gap, as it was passed over. -/
theorem Gap.kept_settled : Kept Gap.Settled where
  token terminal bytes rest value _ _ found := by
    obtain ⟨length, -, rfl⟩ := Token.read_eq_some_iff.1 found
    exact Gap.settled_rest _
  separator _ _ := Gap.settled_rest _

/-- Whether something holds of the descriptions of all choices in a rule. -/
@[simp]
def Rule.Labels (holds : String → Prop) : {α : Type} → Rule α → Prop
  | _, .pure _ => True
  | _, .bind first next => first.Labels holds ∧ ∀ value, (next value).Labels holds
  | _, .token _ => True
  | _, .separator => True
  | _, .choice label alternatives => holds label ∧ ∀ index, (alternatives index).Labels holds
  | _, .optional rule => rule.Labels holds
  | _, .many rule => rule.Labels holds
  | _, .nested rule => rule.Labels holds
  | _, .refuseNesting => True

@[simp]
theorem Rule.labels_oneOf {holds : String → Prop} {label : String}
    {alternatives : List (Rule α)} :
    (oneOf label alternatives).Labels holds ↔
      holds label ∧ ∀ rule ∈ alternatives, rule.Labels holds := by
  simp [oneOf, List.forall_mem_iff_get]

@[simp]
theorem Rule.labels_separated {holds : String → Prop} {rule : Rule α} :
    (separated rule).Labels holds ↔ rule.Labels holds := by
  simp [separated]

/-- What a complaint in front of some bytes is like. -/
structure Complaint (kind : FailureKind) (expected : Expected) (place : List UInt8) : Prop where
  inline : Inline expected.text
  inLine : Stops Byte.isLineEnd place ∨ Lexeme.FaultsNumber kind expected

/-- Where no gap is in front, a rule complains like this. -/
theorem Rule.Fails.complaint {rule : Rule α} (wellFormed : rule.WellFormed)
    (labels : rule.Labels Inline) {bytes place : List UInt8} (settled : Gap.Settled bytes)
    {kind : FailureKind} {expected : Expected} (fails : rule.Fails bytes kind expected place) :
    Complaint kind expected place := by
  induction rule generalizing bytes with
  | pure value => cases fails
  | bind first next ihFirst ihNext =>
      rcases fails with fails | ⟨value, middle, found, fails⟩
      · exact ihFirst wellFormed.1 labels.1 settled fails
      · have settledMiddle := Gap.kept_settled.read wellFormed.1 settled found
        exact ihNext value (wellFormed.2 value) (labels.2 value) settledMiddle fails
  | token terminal =>
      rcases fails with ⟨understood, missing, rfl⟩
      have misses := terminal.misses_recognize settled.stops_lineEnd
      rw [missing] at misses
      exact ⟨terminal.inline_of_missing wellFormed missing, misses⟩
  | separator => cases fails
  | choice label alternatives ih =>
      rcases fails with ⟨rfl, rfl, rfl⟩ | ⟨index, fails⟩
      · exact ⟨labels.1, .inl settled.stops_lineEnd⟩
      · exact ih index (wellFormed index) (labels.2 index) settled fails
  | optional rule ih => exact ih wellFormed labels settled fails
  | many rule ih =>
      rcases fails with ⟨items, middle, repeats, fails⟩
      have settledMiddle : Gap.Settled middle := by
        induction repeats with
        | nil bytes => exact settled
        | cons found _ ihItems =>
            exact ihItems (Gap.kept_settled.read wellFormed.1 settled found) fails
      exact ih wellFormed.1 labels settledMiddle fails
  | nested rule ih => exact ih wellFormed labels settled fails
  | refuseNesting =>
      rcases fails with ⟨rfl, rfl, rfl⟩
      exact ⟨by decide, .inl settled.stops_lineEnd⟩

namespace Grammar

open Rule

@[simp]
theorem labels_integer : integer.Labels Inline := by
  simp +decide [integer]

@[simp]
theorem labels_boolean : boolean.Labels Inline := by
  simp +decide [boolean, Rule.as, keyword]

@[simp]
theorem labels_dottedName : dottedName.Labels Inline := by
  simp [dottedName, reference, segment, mark, identifier]

@[simp]
theorem labels_value (room : Nat) : (value room).Labels Inline := by
  induction room with
  | zero => simp [value]
  | succ room ih =>
      simp +decide [value, valueForms, listOf, mapOf, entryOf, reference, segment, identifier,
        mark, ih]

@[simp]
theorem labels_fieldType (room : Nat) : (fieldType room).Labels Inline := by
  induction room with
  | zero => simp [fieldType]
  | succ room ih =>
      simp +decide [fieldType, typeForms, mapType, sequenceType, sequenceWord, Rule.as, keyword,
        identifier, mark, ih]

@[simp]
theorem labels_field (room : Nat) : (field room).Labels Inline := by
  simp +decide [field, fieldId, requiredness, defaultValue, Rule.as, keyword, identifier, mark]

@[simp]
theorem labels_fields (room : Nat) (opening closing : UInt8) :
    (fields room opening closing).Labels Inline := by
  simp [fields, mark]

theorem labels_declaration (room : Nat) : (declaration room).Labels Inline := by
  simp +decide [declaration, declarations, typedef, constant, enumeration, enumItem, itemValue,
    struct, union, exception, service, parent, function, exceptions, bracedFields,
    parenthesizedFields, namespaceName, inclusion, keyword, identifier, mark]

end Grammar

end ThriftIdl
