import ThriftIdl.Proofs.Grammar.First
import ThriftIdl.Proofs.Grammar.Words

/-!
# What a type looks like

The grammar of types is an ordered choice in which a container word may also be a name. `SpellsType`
says without any order which bytes spell a type. Whatever is read is spelled that way, and a type
that is spelled is read unless an angle bracket comes behind it, which could turn a name into the
beginning of a container.
-/

namespace ThriftIdl

namespace FieldType

/-- How many levels a type nests; a name is one level. -/
def depth : FieldType → Nat
  | .named _ => 1
  | .map key value => max key.depth value.depth + 1
  | .list element => element.depth + 1
  | .set element => element.depth + 1

/-- Whether the names in a type can be names. -/
def WellNamed : FieldType → Prop
  | .named name => IsName name
  | .map key value => key.WellNamed ∧ value.WellNamed
  | .list element => element.WellNamed
  | .set element => element.WellNamed

end FieldType

/-- Whether bytes are a type, a gap, and the given rest. -/
inductive SpellsType : FieldType → List UInt8 → List UInt8 → Prop where
  | named {name : String} {bytes rest : List UInt8} (word : SpellsName name bytes rest) :
      SpellsType (.named name) bytes rest
  | map {key value : FieldType}
      {bytes inside afterKey afterSeparator afterValue rest opened : List UInt8}
      (word : SpellsName "map" bytes opened) (opening : SpellsMark Byte.openAngle opened inside)
      (spellsKey : SpellsType key inside afterKey)
      (separator : SpellsSeparator afterKey afterSeparator)
      (spellsValue : SpellsType value afterSeparator afterValue)
      (closing : SpellsMark Byte.closeAngle afterValue rest) :
      SpellsType (.map key value) bytes rest
  | list {element : FieldType} {bytes opened inside afterElement rest : List UInt8}
      (word : SpellsName "list" bytes opened) (opening : SpellsMark Byte.openAngle opened inside)
      (spellsElement : SpellsType element inside afterElement)
      (closing : SpellsMark Byte.closeAngle afterElement rest) :
      SpellsType (.list element) bytes rest
  | set {element : FieldType} {bytes opened inside afterElement rest : List UInt8}
      (word : SpellsName "set" bytes opened) (opening : SpellsMark Byte.openAngle opened inside)
      (spellsElement : SpellsType element inside afterElement)
      (closing : SpellsMark Byte.closeAngle afterElement rest) :
      SpellsType (.set element) bytes rest

variable {type : FieldType} {room : Nat} {bytes rest : List UInt8}

theorem SpellsType.any_head? (spells : SpellsType type bytes rest) :
    bytes.head?.any Byte.isIdentifier = true := by
  cases spells with
  | named word => exact word.any_head?
  | map word _ _ _ _ _ => exact word.any_head?
  | list word _ _ _ => exact word.any_head?
  | set word _ _ _ => exact word.any_head?

/-- A type begins with a word: its name, or the word for its container. -/
theorem SpellsType.exists_word (spells : SpellsType type bytes rest) :
    ∃ word middle, SpellsName word bytes middle ∧
      (type = .named word ∧ middle = rest ∨ word ∈ ["map", "list", "set"]) := by
  cases spells with
  | named word => exact ⟨_, _, word, .inl ⟨rfl, rfl⟩⟩
  | map word _ _ _ _ _ => exact ⟨_, _, word, .inr (by simp)⟩
  | list word _ _ _ => exact ⟨_, _, word, .inr (by simp)⟩
  | set word _ _ _ => exact ⟨_, _, word, .inr (by simp)⟩

theorem SpellsType.wellNamed (spells : SpellsType type bytes rest) : type.WellNamed := by
  induction spells with
  | named word => exact word.1
  | map _ _ _ _ _ _ ihKey ihValue => exact ⟨ihKey, ihValue⟩
  | list _ _ _ _ ih => exact ih
  | set _ _ _ _ ih => exact ih

open Rule

theorem read_sequenceWord_iff {container : FieldType → FieldType} :
    Grammar.sequenceWord.read bytes = some (container, rest) ↔
      SpellsName "list" bytes rest ∧ container = .list ∨
        SpellsName "set" bytes rest ∧ container = .set :=
  read_wordChoice_iff (by decide) (by decide) (by decide)

/-- What is read as a type is spelled as one, and it nests no deeper than allowed. -/
theorem spellsType_of_read (found : (Grammar.fieldType room).read bytes = some (type, rest)) :
    SpellsType type bytes rest ∧ type.depth ≤ room := by
  induction room generalizing type bytes rest with
  | zero => cases found
  | succ room ih =>
      obtain ⟨form, mem, found⟩ := exists_mem_of_read_oneOf found
      simp only [Grammar.typeForms, List.mem_cons, List.not_mem_nil, or_false] at mem
      rcases mem with rfl | rfl | rfl
      · simp only [Grammar.mapType, bind_eq, pure_eq] at found
        obtain ⟨opened, word, found⟩ := (read_keyword_bind_iff (by decide)).1 found
        obtain ⟨inside, opening, found⟩ := read_mark_bind_iff.1 found
        obtain ⟨key, afterSeparator, foundKey, found⟩ := read_bind_eq_some_iff.1 found
        obtain ⟨afterKey, foundKey, separator⟩ := read_separated_iff.1 foundKey
        obtain ⟨value, afterValue, foundValue, found⟩ := read_bind_eq_some_iff.1 found
        obtain ⟨last, closing, found⟩ := read_mark_bind_iff.1 found
        cases found
        obtain ⟨spellsKey, keyDepth⟩ := ih foundKey
        obtain ⟨spellsValue, valueDepth⟩ := ih foundValue
        exact ⟨.map word opening spellsKey separator spellsValue closing,
          Nat.succ_le_succ (max_le keyDepth valueDepth)⟩
      · simp only [Grammar.sequenceType, bind_eq, pure_eq] at found
        obtain ⟨container, opened, foundWord, found⟩ := read_bind_eq_some_iff.1 found
        obtain ⟨inside, opening, found⟩ := read_mark_bind_iff.1 found
        obtain ⟨element, afterElement, foundElement, found⟩ := read_bind_eq_some_iff.1 found
        obtain ⟨last, closing, found⟩ := read_mark_bind_iff.1 found
        cases found
        obtain ⟨spellsElement, elementDepth⟩ := ih foundElement
        rcases read_sequenceWord_iff.1 foundWord with ⟨word, rfl⟩ | ⟨word, rfl⟩
        · exact ⟨.list word opening spellsElement closing, Nat.succ_le_succ elementDepth⟩
        · exact ⟨.set word opening spellsElement closing, Nat.succ_le_succ elementDepth⟩
      · rw [map_eq] at found
        obtain ⟨name, middle, word, found⟩ := read_identifier_bind_iff.1 found
        cases found
        exact ⟨.named word, Nat.succ_le_succ (Nat.zero_le room)⟩

/-- Whether bytes do not go on with the bracket that opens a container. -/
abbrev NoBracket (bytes : List UInt8) : Prop := Stops (· == Byte.openAngle) bytes

theorem noBracket_of_any_head? (name : bytes.head?.any Byte.isIdentifier = true) :
    NoBracket bytes :=
  stops_of_any_head? name (by grind [Byte.isIdentifier, Byte.isDigit, Byte.isLetter])

/-- A name without a bracket behind it opens no container. -/
theorem SpellsName.not_opening {name word : String} {opened inside : List UInt8}
    (spells : SpellsName name bytes rest) (noBracket : NoBracket rest)
    (otherSpells : SpellsName word bytes opened)
    (opening : SpellsMark Byte.openAngle opened inside) : False := by
  obtain ⟨-, rfl⟩ := spells.unique otherSpells
  obtain ⟨tail, rfl, -⟩ := opening
  exact absurd (stops_cons.1 noBracket) (by simp)

theorem SpellsName.read_mapType_eq_none {name : String} (spells : SpellsName name bytes rest)
    (noBracket : NoBracket rest) (element : Unit → Rule FieldType) :
    (Grammar.mapType element).read bytes = none := by
  cases found : (Grammar.mapType element).read bytes with
  | none => rfl
  | some result =>
      obtain ⟨opened, word, found⟩ := (read_keyword_bind_iff (by decide)).1 found
      obtain ⟨inside, opening, -⟩ := read_mark_bind_iff.1 found
      exact (spells.not_opening noBracket word opening).elim

theorem SpellsName.read_sequenceType_eq_none {name : String}
    (spells : SpellsName name bytes rest) (noBracket : NoBracket rest)
    (element : Unit → Rule FieldType) : (Grammar.sequenceType element).read bytes = none := by
  cases found : (Grammar.sequenceType element).read bytes with
  | none => rfl
  | some result =>
      obtain ⟨container, opened, foundWord, found⟩ := read_bind_eq_some_iff.1 found
      obtain ⟨inside, opening, -⟩ := read_mark_bind_iff.1 found
      rcases read_sequenceWord_iff.1 foundWord with ⟨word, -⟩ | ⟨word, -⟩
      · exact (spells.not_opening noBracket word opening).elim
      · exact (spells.not_opening noBracket word opening).elim

/-- A list or a set is read where its word is, since that is not the word of a map. -/
theorem read_fieldType_of_sequence {container : FieldType → FieldType} {name : String}
    {opened inside afterElement : List UInt8} (word : SpellsName name bytes opened)
    (notMap : "map" ≠ name)
    (foundWord : Grammar.sequenceWord.read bytes = some (container, opened))
    (opening : SpellsMark Byte.openAngle opened inside)
    (foundElement : (Grammar.fieldType room).read inside = some (type, afterElement))
    (closing : SpellsMark Byte.closeAngle afterElement rest) :
    (Grammar.fieldType (room + 1)).read bytes = some (container type, rest) := by
  refine (read_oneOf_of_none ?_).trans (read_oneOf_of_some ?_)
  · exact word.read_keyword_bind_eq_none (by decide) notMap
  · refine read_bind_eq_some_iff.2 ⟨_, _, foundWord, ?_⟩
    refine read_mark_bind_iff.2 ⟨_, opening, ?_⟩
    refine read_bind_eq_some_iff.2 ⟨_, _, foundElement, ?_⟩
    exact read_mark_bind_iff.2 ⟨_, closing, rfl⟩

/-- A type that is spelled is read, unless it is a name that a bracket could make a container. -/
theorem SpellsType.read (spells : SpellsType type bytes rest) (shallow : type.depth ≤ room)
    (noBracket : NoBracket rest) :
    (Grammar.fieldType room).read bytes = some (type, rest) := by
  induction spells generalizing room with
  | named word =>
      cases room with
      | zero => simp [FieldType.depth] at shallow
      | succ room =>
          refine (read_oneOf_of_none (word.read_mapType_eq_none noBracket _)).trans ?_
          refine (read_oneOf_of_none (word.read_sequenceType_eq_none noBracket _)).trans ?_
          exact read_oneOf_of_some (read_identifier_bind_iff.2 ⟨_, _, word, rfl⟩)
  | map word opening spellsKey separator spellsValue closing ihKey ihValue =>
      cases room with
      | zero => simp [FieldType.depth] at shallow
      | succ room =>
          have shallows := max_le_iff.1 (Nat.le_of_succ_le_succ shallow)
          have noBracketKey := separator.stops (noBracket_of_any_head? spellsValue.any_head?)
            (by grind [Byte.isSeparator])
          have foundKey := ihKey shallows.1 noBracketKey
          have foundValue := ihValue shallows.2 (closing.stops rfl)
          refine read_oneOf_of_some ?_
          refine (read_keyword_bind_iff (by decide)).2 ⟨_, word, ?_⟩
          refine read_mark_bind_iff.2 ⟨_, opening, ?_⟩
          refine read_bind_eq_some_iff.2 ⟨_, _, read_separated_iff.2 ⟨_, foundKey, separator⟩, ?_⟩
          refine read_bind_eq_some_iff.2 ⟨_, _, foundValue, ?_⟩
          exact read_mark_bind_iff.2 ⟨_, closing, rfl⟩
  | list word opening _ closing ih =>
      cases room with
      | zero => simp [FieldType.depth] at shallow
      | succ room =>
          have foundElement := ih (Nat.le_of_succ_le_succ shallow) (closing.stops rfl)
          exact read_fieldType_of_sequence word (by decide)
            (read_sequenceWord_iff.2 (.inl ⟨word, rfl⟩)) opening foundElement closing
  | set word opening _ closing ih =>
      cases room with
      | zero => simp [FieldType.depth] at shallow
      | succ room =>
          have foundElement := ih (Nat.le_of_succ_le_succ shallow) (closing.stops rfl)
          exact read_fieldType_of_sequence word (by decide)
            (read_sequenceWord_iff.2 (.inr ⟨word, rfl⟩)) opening foundElement closing

/-- At most one type is spelled by bytes that have nothing behind it. -/
theorem SpellsType.unique {other : FieldType} (spells : SpellsType type bytes [])
    (otherSpells : SpellsType other bytes []) : type = other := by
  have found := spells.read (le_max_left type.depth other.depth) (stops_nil _)
  rw [otherSpells.read (le_max_right type.depth other.depth) (stops_nil _)] at found
  cases found
  rfl

end ThriftIdl
