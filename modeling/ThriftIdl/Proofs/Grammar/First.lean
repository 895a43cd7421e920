import ThriftIdl.Grammar.Declaration
import ThriftIdl.Proofs.Grammar.Matching

/-!
# First bytes

With which bytes the parts of the grammar begin. Every rule of the grammar is well formed, and no
rule that is repeated matches nothing, so a rule fails wherever none of its first bytes is. This
decides most of the choices that the grammar makes.
-/

namespace ThriftIdl

namespace Rule

variable {α β : Type}

@[simp]
theorem wellFormed_oneOf {expected : String} {alternatives : List (Rule α)} :
    (oneOf expected alternatives).WellFormed ↔ ∀ rule ∈ alternatives, rule.WellFormed := by
  simp [oneOf, List.forall_mem_iff_get]

@[simp]
theorem nullable_oneOf {expected : String} {alternatives : List (Rule α)} :
    (oneOf expected alternatives).Nullable ↔ ∃ rule ∈ alternatives, rule.Nullable := by
  simp [oneOf, List.exists_mem_iff_get]

@[simp]
theorem opens_oneOf {expected : String} {alternatives : List (Rule α)} {byte : UInt8} :
    (oneOf expected alternatives).Opens byte ↔ ∃ rule ∈ alternatives, rule.Opens byte := by
  simp [oneOf, List.exists_mem_iff_get]

@[simp]
theorem wellFormed_separated {rule : Rule α} :
    (separated rule).WellFormed ↔ rule.WellFormed := by
  simp [separated]

@[simp]
theorem not_nullable_separated {rule : Rule α} (notNullable : ¬rule.Nullable) :
    ¬(separated rule).Nullable := fun nullable => notNullable nullable.1

end Rule

namespace Grammar

open Rule

/-- A keyword begins like an identifier. -/
theorem isIdentifier_of_keyword_opens {word : String} {byte : UInt8}
    (plain : (Token.keyword word).isPlain = true)
    (opens : (Token.keyword word).opens byte = true) : Byte.isIdentifier byte = true := by
  simp only [Token.isPlain, Bool.and_eq_true] at plain
  simp only [Token.opens, beq_iff_eq] at opens
  exact List.all_eq_true.1 plain.2 byte (List.mem_of_mem_head? opens)

/-! ### Values -/

/-- Whether a value may begin with a byte. -/
def opensValue (byte : UInt8) : Bool :=
  Byte.isIdentifier byte || Byte.isSign byte || Byte.isQuote byte || byte == Byte.openBracket
    || byte == Byte.openBrace

/-- Whether an integer may begin with a byte. -/
def opensInteger (byte : UInt8) : Bool := Byte.isSign byte || Byte.isDigit byte

@[simp]
theorem wellFormed_integer : integer.WellFormed := by
  simp +decide [integer]

@[simp]
theorem not_nullable_integer : ¬integer.Nullable := by
  simp [integer]

theorem opensInteger_of_opens {byte : UInt8} (opens : integer.Opens byte) :
    opensInteger byte = true := by
  simp [integer, Token.opens] at opens
  grind [opensInteger, Byte.isSign, Byte.isDigit]

@[simp]
theorem wellFormed_boolean : boolean.WellFormed := by
  simp +decide [boolean, Rule.as, keyword]

@[simp]
theorem not_nullable_boolean : ¬boolean.Nullable := by
  simp [boolean, Rule.as, keyword]

@[simp]
theorem wellFormed_segment : segment.WellFormed := by
  simp +decide [segment, mark, identifier]

@[simp]
theorem not_nullable_segment : ¬segment.Nullable := by
  simp [segment, mark]

@[simp]
theorem wellFormed_reference : reference.WellFormed := by
  simp +decide [reference, identifier]

@[simp]
theorem not_nullable_reference : ¬reference.Nullable := by
  simp [reference, identifier]

@[simp]
theorem wellFormed_dottedName : dottedName.WellFormed := by
  simp [dottedName]

@[simp]
theorem not_nullable_dottedName : ¬dottedName.Nullable := by
  simp [dottedName]

theorem value_sound (room : Nat) : (value room).WellFormed ∧ ¬(value room).Nullable := by
  induction room with
  | zero => simp [value]
  | succ room ih =>
      simp +decide [value, valueForms, listOf, mapOf, entryOf, separated, mark, ih]

@[simp]
theorem wellFormed_value (room : Nat) : (value room).WellFormed := (value_sound room).1

@[simp]
theorem not_nullable_value (room : Nat) : ¬(value room).Nullable := (value_sound room).2

@[simp]
theorem wellFormed_entryOf (room : Nat) : (entryOf (value room)).WellFormed := by
  simp +decide [entryOf, mark]

@[simp]
theorem not_nullable_entryOf (room : Nat) : ¬(entryOf (value room)).Nullable := by
  simp [entryOf]

theorem opensValue_of_opens {room : Nat} {byte : UInt8} (opens : (value room).Opens byte) :
    opensValue byte = true := by
  cases room with
  | zero => simp [value] at opens
  | succ room =>
      have name : Byte.isIdentifier byte = true → opensValue byte = true := by grind [opensValue]
      simp [value, valueForms, boolean, Rule.as, keyword, listOf, mapOf, reference, identifier,
        mark] at opens
      rcases opens with number | number | number | number | quote | word | bracket | brace | letter
      · grind [Token.opens, opensValue, Byte.isSign, Byte.isIdentifier, Byte.isDigit]
      · simp only [Token.opens, Bool.or_eq_true] at number
        rcases number with (minus | numeral) | letter
        · grind [opensValue, Byte.isSign]
        · exact name (Byte.isIdentifier_of_isNumeral numeral)
        · exact name (Byte.isIdentifier_of_isExponentMark letter)
      · simp only [Token.opens, Bool.or_eq_true] at number
        rcases number with sign | numeral
        · grind [opensValue]
        · exact name (Byte.isIdentifier_of_isNumeral numeral)
      · simp only [Token.opens, Bool.or_eq_true] at number
        rcases number with sign | digit
        · grind [opensValue]
        · exact name (Byte.isIdentifier_of_isDigit digit)
      · grind [Token.opens, opensValue]
      · rcases word with word | word <;>
          exact name (isIdentifier_of_keyword_opens (by decide) word)
      · grind [Token.opens, opensValue]
      · grind [Token.opens, opensValue]
      · exact name letter

/-! ### Types -/

theorem fieldType_sound (room : Nat) :
    (fieldType room).WellFormed ∧ ¬(fieldType room).Nullable := by
  induction room with
  | zero => simp [fieldType]
  | succ room ih =>
      simp +decide [fieldType, typeForms, mapType, sequenceType, sequenceWord, Rule.as, separated,
        keyword, identifier, mark, ih]

@[simp]
theorem wellFormed_fieldType (room : Nat) : (fieldType room).WellFormed :=
  (fieldType_sound room).1

@[simp]
theorem not_nullable_fieldType (room : Nat) : ¬(fieldType room).Nullable :=
  (fieldType_sound room).2

theorem isIdentifier_of_fieldType_opens {room : Nat} {byte : UInt8}
    (opens : (fieldType room).Opens byte) : Byte.isIdentifier byte = true := by
  cases room with
  | zero => simp [fieldType] at opens
  | succ room =>
      simp [fieldType, typeForms, mapType, sequenceType, sequenceWord, Rule.as, keyword, identifier]
        at opens
      rcases opens with word | (word | word) | letter
      · exact isIdentifier_of_keyword_opens (by decide) word
      · exact isIdentifier_of_keyword_opens (by decide) word
      · exact isIdentifier_of_keyword_opens (by decide) word
      · exact letter

/-! ### Declarations -/

@[simp]
theorem wellFormed_requiredness : requiredness.WellFormed := by
  simp +decide [requiredness, Rule.as, keyword]

@[simp]
theorem wellFormed_fieldId : fieldId.WellFormed := by
  simp +decide [fieldId, mark]

@[simp]
theorem wellFormed_defaultValue (room : Nat) : (defaultValue room).WellFormed := by
  simp +decide [defaultValue, mark]

@[simp]
theorem wellFormed_field (room : Nat) : (field room).WellFormed := by
  simp +decide [field, separated, identifier]

@[simp]
theorem not_nullable_field (room : Nat) : ¬(field room).Nullable := by
  simp [field]

/-- Whether a field may begin with a byte. -/
def opensField (byte : UInt8) : Bool := Byte.isIdentifier byte || Byte.isSign byte

theorem opensField_of_opens {room : Nat} {byte : UInt8} (opens : (field room).Opens byte) :
    opensField byte = true := by
  simp [field, fieldId, requiredness, Rule.as, keyword] at opens
  have name : Byte.isIdentifier byte = true → opensField byte = true := by
    intro letter
    simp [opensField, letter]
  rcases opens with number | (word | word) | letter
  · have digit := @Byte.isIdentifier_of_isDigit byte
    have start := opensInteger_of_opens number
    grind [opensInteger, opensField]
  · exact name (isIdentifier_of_keyword_opens (by decide) word)
  · exact name (isIdentifier_of_keyword_opens (by decide) word)
  · exact name (isIdentifier_of_fieldType_opens letter)

@[simp]
theorem wellFormed_fields (room : Nat) {opening closing : UInt8}
    (plainOpening : (Token.mark opening).isPlain = true)
    (plainClosing : (Token.mark closing).isPlain = true) :
    (fields room opening closing).WellFormed := by
  simp [fields, mark, plainOpening, plainClosing]

@[simp]
theorem wellFormed_itemValue : itemValue.WellFormed := by
  simp +decide [itemValue, mark]

@[simp]
theorem wellFormed_enumItem : enumItem.WellFormed := by
  simp +decide [enumItem, separated, identifier]

@[simp]
theorem not_nullable_enumItem : ¬enumItem.Nullable := by
  simp [enumItem, identifier]

theorem isIdentifier_of_enumItem_opens {byte : UInt8} (opens : enumItem.Opens byte) :
    Byte.isIdentifier byte = true := by
  simpa [enumItem, identifier, Token.opens] using opens

@[simp]
theorem wellFormed_exceptions (room : Nat) : (exceptions room).WellFormed := by
  simp +decide [exceptions, parenthesizedFields, keyword]

@[simp]
theorem wellFormed_function (room : Nat) : (function room).WellFormed := by
  simp +decide [function, parenthesizedFields, separated, keyword, identifier]

@[simp]
theorem not_nullable_function (room : Nat) : ¬(function room).Nullable := by
  simp [function]

theorem isIdentifier_of_function_opens {room : Nat} {byte : UInt8}
    (opens : (function room).Opens byte) : Byte.isIdentifier byte = true := by
  simp [function, keyword] at opens
  rcases opens with word | letter
  · exact isIdentifier_of_keyword_opens (by decide) word
  · exact isIdentifier_of_fieldType_opens letter

@[simp]
theorem wellFormed_parent : parent.WellFormed := by
  simp +decide [parent, keyword]

@[simp]
theorem not_nullable_parent : ¬parent.Nullable := by
  simp [parent]

theorem isIdentifier_of_parent_opens {byte : UInt8} (opens : parent.Opens byte) :
    Byte.isIdentifier byte = true := by
  simp [parent, keyword] at opens
  exact isIdentifier_of_keyword_opens (by decide) opens

theorem wellFormed_declarations (room : Nat) :
    ∀ rule ∈ declarations room, rule.WellFormed := by
  simp +decide [declarations, typedef, constant, enumeration, struct, union, exception, service,
    namespaceName, inclusion, bracedFields, separated, keyword, identifier, mark]

@[simp]
theorem wellFormed_declaration (room : Nat) : (declaration room).WellFormed :=
  wellFormed_oneOf.2 (wellFormed_declarations room)

@[simp]
theorem not_nullable_declaration (room : Nat) : ¬(declaration room).Nullable := by
  simp [declaration, declarations, typedef, constant, enumeration, struct, union, exception,
    service, namespaceName, inclusion, keyword]

end Grammar

end ThriftIdl
