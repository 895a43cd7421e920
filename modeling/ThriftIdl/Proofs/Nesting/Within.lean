import ThriftIdl.Proofs.Nesting.Refusal

/-!
# How deep a place lies

A place lies some levels deep in a value if it comes behind as many opening brackets or braces that
are still open there, each with items or entries behind it that can be read. For types the brackets
are those of containers. The grammar refuses a value or a type exactly as many levels deep as it has
room for, and only in such places.
-/

namespace ThriftIdl

open Rule

/--
Whether bytes begin with values that are open, as many as given, and the place of a further item, key
or entry is in front of the last bytes.
-/
inductive ValueWithin : Nat → List UInt8 → List UInt8 → Prop where
  | here (bytes : List UInt8) : ValueWithin 0 bytes bytes
  | item {room : Nat} {items : List Value} {bytes inside middle place : List UInt8}
      (opening : SpellsMark Byte.openBracket bytes inside)
      (ofItems : Repeats (Separated (SpellsValue room)) inside items middle)
      (deeper : ValueWithin room middle place) : ValueWithin (room + 1) bytes place
  | key {room : Nat} {entries : List (Value × Value)} {bytes inside middle place : List UInt8}
      (opening : SpellsMark Byte.openBrace bytes inside)
      (ofEntries : Repeats (Separated (SpellsEntry (SpellsValue room))) inside entries middle)
      (deeper : ValueWithin room middle place) : ValueWithin (room + 1) bytes place
  | entry {room : Nat} {entries : List (Value × Value)} {key : Value}
      {bytes inside middle afterKey afterColon place : List UInt8}
      (opening : SpellsMark Byte.openBrace bytes inside)
      (ofEntries : Repeats (Separated (SpellsEntry (SpellsValue room))) inside entries middle)
      (ofKey : SpellsValue room key middle afterKey)
      (colon : SpellsMark Byte.colon afterKey afterColon)
      (deeper : ValueWithin room afterColon place) : ValueWithin (room + 1) bytes place

/-- Whether bytes begin with container types that are open, as many as given, up to a place. -/
inductive TypeWithin : Nat → List UInt8 → List UInt8 → Prop where
  | here (bytes : List UInt8) : TypeWithin 0 bytes bytes
  | key {room : Nat} {bytes opened inside place : List UInt8} (word : SpellsName "map" bytes opened)
      (opening : SpellsMark Byte.openAngle opened inside) (deeper : TypeWithin room inside place) :
      TypeWithin (room + 1) bytes place
  | mapped {room : Nat} {key : FieldType}
      {bytes opened inside afterKey afterSeparator place : List UInt8}
      (word : SpellsName "map" bytes opened) (opening : SpellsMark Byte.openAngle opened inside)
      (ofKey : SpellsType key inside afterKey) (separator : SpellsSeparator afterKey afterSeparator)
      (deeper : TypeWithin room afterSeparator place) : TypeWithin (room + 1) bytes place
  | element {room : Nat} {container : String} {bytes opened inside place : List UInt8}
      (isSequence : container = "list" ∨ container = "set") (word : SpellsName container bytes opened)
      (opening : SpellsMark Byte.openAngle opened inside) (deeper : TypeWithin room inside place) :
      TypeWithin (room + 1) bytes place

variable {room levels : Nat} {bytes place : List UInt8}

/-! ### Values -/

theorem valueWithin_of_listOf
    (known : ∀ {bytes}, (Grammar.value room).Refuses levels bytes place →
      levels = room ∧ ValueWithin room bytes place)
    (refuses : (Grammar.listOf fun _ => Grammar.value room).Refuses levels bytes place) :
    levels = room ∧ ValueWithin (room + 1) bytes place := by
  simp only [Grammar.listOf, bind_eq, pure_eq, Refuses, mark, read_token, Token.read_mark_iff,
    refuses_separated, false_or, or_false, and_false, exists_false, read_separated_iff,
    read_value_iff] at refuses
  rcases refuses with ⟨-, inside, opening, items, middle, ofItems, refuses⟩
  rcases known refuses with ⟨full, within⟩
  exact ⟨full, .item opening ofItems within⟩

theorem valueWithin_of_mapOf
    (known : ∀ {bytes}, (Grammar.value room).Refuses levels bytes place →
      levels = room ∧ ValueWithin room bytes place)
    (refuses : (Grammar.mapOf fun _ => Grammar.value room).Refuses levels bytes place) :
    levels = room ∧ ValueWithin (room + 1) bytes place := by
  simp only [Grammar.mapOf, bind_eq, pure_eq, Refuses, mark, read_token, Token.read_mark_iff,
    refuses_separated, false_or, or_false, and_false, exists_false, read_separated_iff,
    read_entry_iff] at refuses
  rcases refuses with ⟨-, inside, opening, entries, middle, ofEntries, refuses⟩
  simp only [Grammar.entryOf, bind_eq, pure_eq, Refuses, mark, read_token, Token.read_mark_iff,
    false_or, or_false, and_false, exists_false, read_value_iff] at refuses
  rcases refuses with refuses | ⟨key, afterKey, ofKey, -, afterColon, colon, refuses⟩
  · rcases known refuses with ⟨full, within⟩
    exact ⟨full, .key opening ofEntries within⟩
  · rcases known refuses with ⟨full, within⟩
    exact ⟨full, .entry opening ofEntries ofKey colon within⟩

theorem not_refuses_boolean : ¬Grammar.boolean.Refuses levels bytes place := by
  simp [Grammar.boolean, Rule.as, Refuses, keyword]

theorem not_refuses_reference : ¬Grammar.reference.Refuses levels bytes place := by
  simp [Grammar.reference, Grammar.segment, Refuses, identifier, mark]

/-- A value is refused exactly as deep as there is room, and in no place but inside itself. -/
theorem valueWithin_of_refuses (refuses : (Grammar.value room).Refuses levels bytes place) :
    levels = room ∧ ValueWithin room bytes place := by
  induction room generalizing levels bytes place with
  | zero =>
      rcases refuses with ⟨rfl, rfl⟩
      exact ⟨rfl, .here place⟩
  | succ room ih =>
      rcases refuses with ⟨fewer, rfl, refuses⟩
      simp only [Grammar.valueForms, refuses_oneOf, List.mem_cons, List.not_mem_nil, or_false,
        exists_eq_or_imp, exists_eq_left, map_eq, Refuses, and_false, exists_false, false_or,
        not_refuses_boolean, not_refuses_reference] at refuses
      rcases refuses with refuses | refuses
      · rcases valueWithin_of_listOf ih refuses with ⟨rfl, within⟩
        exact ⟨rfl, within⟩
      · rcases valueWithin_of_mapOf ih refuses with ⟨rfl, within⟩
        exact ⟨rfl, within⟩

/-! ### Types -/

theorem typeWithin_of_mapType
    (known : ∀ {bytes}, (Grammar.fieldType room).Refuses levels bytes place →
      levels = room ∧ TypeWithin room bytes place)
    (refuses : (Grammar.mapType fun _ => Grammar.fieldType room).Refuses levels bytes place) :
    levels = room ∧ TypeWithin (room + 1) bytes place := by
  have plain : (Token.keyword "map").isPlain = true := by decide
  simp only [Grammar.mapType, bind_eq, pure_eq, Refuses, keyword, mark, read_token,
    Token.read_keyword_iff plain, Token.read_mark_iff, refuses_separated, false_or, or_false,
    and_false, exists_false, read_separated_iff] at refuses
  rcases refuses with ⟨-, opened, ⟨-, word⟩, -, inside, opening, refuses⟩
  rcases refuses with refuses | ⟨key, middle, ⟨afterKey, foundKey, separator⟩, refuses⟩
  · rcases known refuses with ⟨full, within⟩
    exact ⟨full, .key word opening within⟩
  · rcases known refuses with ⟨full, within⟩
    exact ⟨full, .mapped word opening (spellsType_of_read foundKey).1 separator within⟩

theorem not_refuses_sequenceWord : ¬Grammar.sequenceWord.Refuses levels bytes place := by
  simp [Grammar.sequenceWord, Rule.as, Refuses, keyword]

theorem typeWithin_of_sequenceType
    (known : ∀ {bytes}, (Grammar.fieldType room).Refuses levels bytes place →
      levels = room ∧ TypeWithin room bytes place)
    (refuses : (Grammar.sequenceType fun _ => Grammar.fieldType room).Refuses levels bytes place) :
    levels = room ∧ TypeWithin (room + 1) bytes place := by
  simp only [Grammar.sequenceType, bind_eq, pure_eq, Refuses, mark, read_token,
    Token.read_mark_iff, not_refuses_sequenceWord, read_sequenceWord_iff, false_or, or_false,
    and_false, exists_false] at refuses
  rcases refuses with ⟨container, opened, foundWord, -, inside, opening, refuses⟩
  rcases known refuses with ⟨full, within⟩
  refine ⟨full, ?_⟩
  rcases foundWord with ⟨word, -⟩ | ⟨word, -⟩
  · exact .element (.inl rfl) word opening within
  · exact .element (.inr rfl) word opening within

/-- A type is refused exactly as deep as there is room, and in no place but inside itself. -/
theorem typeWithin_of_refuses (refuses : (Grammar.fieldType room).Refuses levels bytes place) :
    levels = room ∧ TypeWithin room bytes place := by
  induction room generalizing levels bytes place with
  | zero =>
      rcases refuses with ⟨rfl, rfl⟩
      exact ⟨rfl, .here place⟩
  | succ room ih =>
      rcases refuses with ⟨fewer, rfl, refuses⟩
      simp only [Grammar.typeForms, refuses_oneOf, List.mem_cons, List.not_mem_nil, or_false,
        exists_eq_or_imp, exists_eq_left, map_eq, Refuses, identifier, and_false, exists_false]
        at refuses
      rcases refuses with refuses | refuses
      · rcases typeWithin_of_mapType ih refuses with ⟨rfl, within⟩
        exact ⟨rfl, within⟩
      · rcases typeWithin_of_sequenceType ih refuses with ⟨rfl, within⟩
        exact ⟨rfl, within⟩

/-! ### Declarations -/

/-- Whether a place lies that deep in a value or in a type that begins somewhere in the bytes. -/
def DeepWithin (room : Nat) (bytes place : List UInt8) : Prop :=
  ∃ start, start <:+ bytes ∧ (ValueWithin room start place ∨ TypeWithin room start place)

/-- Whether the levels that are open at a refusal are all that there is room for. -/
def RefusedDeep (room levels : Nat) (bytes place : List UInt8) : Prop :=
  levels = room ∧ DeepWithin room bytes place

@[simp]
theorem everyRefusal_value (room : Nat) : (Grammar.value room).EveryRefusal (RefusedDeep room) := by
  cases room with
  | zero => exact fun bytes => ⟨rfl, bytes, List.suffix_rfl, .inl (.here bytes)⟩
  | succ room =>
      intro levels bytes place refuses
      have whole : (Grammar.value (room + 1)).Refuses (levels + 1) bytes place :=
        ⟨levels, rfl, refuses⟩
      rcases valueWithin_of_refuses whole with ⟨full, within⟩
      exact ⟨full, bytes, List.suffix_rfl, .inl within⟩

@[simp]
theorem everyRefusal_fieldType (room : Nat) :
    (Grammar.fieldType room).EveryRefusal (RefusedDeep room) := by
  cases room with
  | zero => exact fun bytes => ⟨rfl, bytes, List.suffix_rfl, .inr (.here bytes)⟩
  | succ room =>
      intro levels bytes place refuses
      have whole : (Grammar.fieldType (room + 1)).Refuses (levels + 1) bytes place :=
        ⟨levels, rfl, refuses⟩
      rcases typeWithin_of_refuses whole with ⟨full, within⟩
      exact ⟨full, bytes, List.suffix_rfl, .inr within⟩

@[simp]
theorem everyRefusal_field (room : Nat) : (Grammar.field room).EveryRefusal (RefusedDeep room) := by
  simp [Grammar.field, Grammar.fieldId, Grammar.integer, Grammar.requiredness,
    Grammar.defaultValue, Rule.as, keyword, mark, identifier, EveryRefusal]

theorem everyRefusal_declaration (room : Nat) :
    (Grammar.declaration room).EveryRefusal (RefusedDeep room) := by
  simp [Grammar.declaration, Grammar.declarations, Grammar.typedef, Grammar.constant,
    Grammar.enumeration, Grammar.enumItem, Grammar.itemValue, Grammar.integer, Grammar.struct,
    Grammar.union, Grammar.exception, Grammar.bracedFields, Grammar.fields, Grammar.service,
    Grammar.parent, Grammar.function, Grammar.parenthesizedFields, Grammar.exceptions,
    Grammar.namespaceName, Grammar.inclusion, Grammar.dottedName, Grammar.reference,
    Grammar.segment, keyword, mark, identifier, EveryRefusal]

/-- In a declaration, a refusal lies exactly as deep in a value or a type as there is room. -/
theorem deepWithin_of_refuses (refuses : (Grammar.declaration room).Refuses levels bytes place) :
    levels = room ∧ DeepWithin room bytes place := by
  refine (everyRefusal_declaration room).of_refuses ?_ refuses
  rintro levels bytes middle place suffix ⟨full, start, startSuffix, within⟩
  exact ⟨full, start, startSuffix.trans suffix, within⟩

end ThriftIdl
