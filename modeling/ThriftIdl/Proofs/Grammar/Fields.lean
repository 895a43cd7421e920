import ThriftIdl.Proofs.Grammar.Types
import ThriftIdl.Proofs.Grammar.Values

/-!
# What fields, enum items and functions look like

The optional parts of a field are told apart by what comes behind them: an id has a colon behind it,
a requiredness is a word that no type may be in its place, and a default value begins with an equals
sign, with which nothing else in a list of fields begins. Functions are alike.
-/

namespace ThriftIdl

open Rule

/-- Whether bytes are an optional part, or there is none. -/
inductive SpellsOption {α : Type} (spells : α → List UInt8 → List UInt8 → Prop) :
    Option α → List UInt8 → List UInt8 → Prop where
  | absent (bytes : List UInt8) : SpellsOption spells none bytes bytes
  | present {part : α} {bytes rest : List UInt8} (ofPart : spells part bytes rest) :
      SpellsOption spells (some part) bytes rest

/-- Whether bytes are a certain word. -/
def SpellsKeyword (word text : String) (bytes rest : List UInt8) : Prop :=
  text = word ∧ SpellsName word bytes rest

/-- Whether bytes are an integer and a colon. -/
def SpellsId (id : Int64) (bytes rest : List UInt8) : Prop :=
  ∃ middle, Grammar.integer.read bytes = some (id, middle) ∧ SpellsMark Byte.colon middle rest

/-- Whether bytes are the word for a requiredness. -/
def SpellsRequiredness (requiredness : Requiredness) (bytes rest : List UInt8) : Prop :=
  SpellsName requiredness.keyword bytes rest

/-- Whether bytes are an equals sign and something behind it. -/
def Assigned {α : Type} (spells : α → List UInt8 → List UInt8 → Prop) (part : α)
    (bytes rest : List UInt8) : Prop :=
  ∃ middle, SpellsMark Byte.equals bytes middle ∧ spells part middle rest

/-- Whether bytes are a field in which values and types nest at most that many levels. -/
inductive SpellsField (room : Nat) : List UInt8 → Field → List UInt8 → Prop where
  | intro {type : FieldType} {name : String} {id : Option Int64}
      {requiredness : Option Requiredness} {defaultValue : Option Value}
      {bytes afterId afterRequiredness afterType afterName afterDefault rest : List UInt8}
      (ofId : SpellsOption SpellsId id bytes afterId)
      (ofRequiredness :
        SpellsOption SpellsRequiredness requiredness afterId afterRequiredness)
      (noWord : requiredness = none → ∀ word : Requiredness, type ≠ .named word.keyword)
      (ofType : SpellsType type afterRequiredness afterType) (shallow : type.depth ≤ room)
      (ofName : SpellsName name afterType afterName)
      (ofDefault : SpellsOption (Assigned (SpellsValue room)) defaultValue afterName afterDefault)
      (separator : SpellsSeparator afterDefault rest) :
      SpellsField room bytes { type, name, id, requiredness, defaultValue } rest

/-- Whether bytes are fields between two marks. -/
def SpellsFields (room : Nat) (opening closing : UInt8) (fields : List Field)
    (bytes rest : List UInt8) : Prop :=
  ∃ inside last, SpellsMark opening bytes inside ∧
    Repeats (SpellsField room) inside fields last ∧ SpellsMark closing last rest

/-- Whether bytes are an item of an enumeration. -/
inductive SpellsItem : List UInt8 → EnumItem → List UInt8 → Prop where
  | intro {name : String} {value : Option Int64} {bytes afterName afterValue rest : List UInt8}
      (ofName : SpellsName name bytes afterName)
      (ofValue : SpellsOption (Assigned fun number bytes rest =>
        Grammar.integer.read bytes = some (number, rest)) value afterName afterValue)
      (separator : SpellsSeparator afterValue rest) : SpellsItem bytes { name, value } rest

/-- Whether bytes are the exceptions of a function. -/
def SpellsThrows (room : Nat) (exceptions : List Field) (bytes rest : List UInt8) : Prop :=
  ∃ middle, SpellsName "throws" bytes middle ∧
    SpellsFields room Byte.openParenthesis Byte.closeParenthesis exceptions middle rest

/-- Whether bytes are a function in which values and types nest at most that many levels. -/
inductive SpellsFunction (room : Nat) : List UInt8 → Function → List UInt8 → Prop where
  | intro {oneway : Option String} {resultType : FieldType} {name : String} {arguments : List Field}
      {thrown : Option (List Field)}
      {bytes afterOneway afterType afterName afterArguments afterThrows rest : List UInt8}
      (ofOneway : SpellsOption (SpellsKeyword "oneway") oneway bytes afterOneway)
      (noWord : oneway = none → resultType ≠ .named "oneway")
      (ofType : SpellsType resultType afterOneway afterType) (shallow : resultType.depth ≤ room)
      (ofName : SpellsName name afterType afterName)
      (ofArguments : SpellsFields room Byte.openParenthesis Byte.closeParenthesis arguments
        afterName afterArguments)
      (ofThrows : SpellsOption (SpellsThrows room) thrown afterArguments afterThrows)
      (separator : SpellsSeparator afterThrows rest) :
      SpellsFunction room bytes
        { resultType, name, arguments, exceptions := thrown.getD [], oneway := oneway.isSome } rest

variable {room : Nat} {bytes rest : List UInt8}

theorem read_optional_iff {α : Type} {rule : Rule α}
    {spells : α → List UInt8 → List UInt8 → Prop}
    (known : ∀ {value : α} {bytes rest : List UInt8},
      rule.read bytes = some (value, rest) ↔ spells value bytes rest) {value : Option α} :
    (Rule.optional rule).read bytes = some (value, rest) ↔
      SpellsOption spells value bytes rest ∧ (value = none → rule.read bytes = none) := by
  constructor
  · intro found
    cases attempt : rule.read bytes with
    | none =>
        rw [read_optional_of_none attempt] at found
        cases found
        exact ⟨.absent bytes, fun _ => rfl⟩
    | some result =>
        rw [read_optional_of_some attempt] at found
        cases found
        exact ⟨.present (known.1 attempt), nofun⟩
  · rintro ⟨spelled, missing⟩
    cases spelled with
    | absent => exact read_optional_of_none (missing rfl)
    | present ofPart => exact read_optional_of_some (known.2 ofPart)

theorem read_fieldId_iff {id : Int64} :
    Grammar.fieldId.read bytes = some (id, rest) ↔ SpellsId id bytes rest := by
  simp only [Grammar.fieldId, bind_eq, pure_eq, read_bind_eq_some_iff, mark, read_token,
    Token.read_mark_iff, read_pure, SpellsId]
  constructor
  · rintro ⟨_, middle, found, _, _, colon, ⟨⟩⟩
    exact ⟨middle, found, colon⟩
  · rintro ⟨middle, found, colon⟩
    exact ⟨id, middle, found, (), rest, colon, rfl⟩

theorem read_requiredness_iff {requiredness : Requiredness} :
    Grammar.requiredness.read bytes = some (requiredness, rest) ↔
      SpellsRequiredness requiredness bytes rest := by
  rw [Grammar.requiredness, read_wordChoice_iff (by decide) (by decide) (by decide)]
  cases requiredness <;> simp [SpellsRequiredness, Requiredness.keyword]

theorem read_defaultValue_iff {value : Value} :
    (Grammar.defaultValue room).read bytes = some (value, rest) ↔
      Assigned (SpellsValue room) value bytes rest := by
  simp only [Grammar.defaultValue, bind_eq, read_mark_bind_iff, read_value_iff, Assigned]

theorem read_itemValue_iff {number : Int64} :
    Grammar.itemValue.read bytes = some (number, rest) ↔
      Assigned (fun number bytes rest => Grammar.integer.read bytes = some (number, rest))
        number bytes rest := by
  simp only [Grammar.itemValue, bind_eq, read_mark_bind_iff, Assigned]

/-! ### Fields -/

variable {type : FieldType} {name : String}

/-- A container word begins with no byte of an integer. -/
theorem read_integer_eq_none_of_container {word : String} {middle : List UInt8}
    (container : word ∈ ["map", "list", "set"]) (spells : SpellsName word bytes middle) :
    Grammar.integer.read bytes = none := by
  refine read_eq_none_of_stops Grammar.wellFormed_integer Grammar.not_nullable_integer
    (fun _ => Grammar.opensInteger_of_opens) ?_
  obtain ⟨-, tail, rfl, -, -⟩ := spells
  simp only [List.mem_cons, List.not_mem_nil, or_false] at container
  rcases container with rfl | rfl | rfl <;> rfl

theorem read_integer_eq_none_of_requiredness {requiredness : Requiredness} {middle : List UInt8}
    (spells : SpellsRequiredness requiredness bytes middle) :
    Grammar.integer.read bytes = none := by
  refine read_eq_none_of_stops Grammar.wellFormed_integer Grammar.not_nullable_integer
    (fun _ => Grammar.opensInteger_of_opens) ?_
  obtain ⟨-, tail, rfl, -, -⟩ := spells
  cases requiredness <;> rfl

/-- No colon stands behind an integer with which a name begins. -/
theorem SpellsName.read_fieldId_eq_none {middle : List UInt8} (spells : SpellsName name bytes middle)
    (noColon : Stops (· == Byte.colon) middle) : Grammar.fieldId.read bytes = none := by
  obtain ⟨isName, tail, rfl, stops, rfl⟩ := spells
  cases Grammar.lexical_integer (Utf8.encode name) isName.notEmpty with
  | missing read => exact read_bind_of_none (read tail stops)
  | found value length positive fits read =>
      refine (read_bind_of_some (read tail stops)).trans (read_mark_bind_eq_none ?_)
      cases behind : (Utf8.encode name).drop length with
      | nil => exact noColon
      | cons byte others =>
          have letter : Byte.isIdentifier byte = true :=
            isName.accepted byte (List.mem_of_mem_drop (behind ▸ List.mem_cons_self))
          rw [List.cons_append,
            Gap.rest_barrier (Byte.isBarrier_of_isScope (Byte.isScope_of_isIdentifier letter))]
          refine stops_cons.2 (beq_eq_false_iff_ne.2 ?_)
          rintro rfl
          exact absurd letter (by decide)

/-- A type and a name behind it are not the id of a field. -/
theorem SpellsType.read_fieldId_eq_none (spells : SpellsType type bytes rest)
    (noColon : Stops (· == Byte.colon) rest) : Grammar.fieldId.read bytes = none := by
  obtain ⟨word, middle, spellsWord, ⟨-, rfl⟩ | container⟩ := spells.exists_word
  · exact spellsWord.read_fieldId_eq_none noColon
  · exact read_bind_of_none (read_integer_eq_none_of_container container spellsWord)

/-- A type is not the word for a requiredness, unless it is a name with these letters. -/
theorem SpellsType.read_requiredness_eq_none (spells : SpellsType type bytes rest)
    (noWord : ∀ word : Requiredness, type ≠ .named word.keyword) :
    Grammar.requiredness.read bytes = none := by
  cases found : Grammar.requiredness.read bytes with
  | none => rfl
  | some result =>
      have ofWord := read_requiredness_iff.1 found
      obtain ⟨word, middle, spellsWord, ⟨rfl, -⟩ | container⟩ := spells.exists_word
      · exact absurd (congrArg _ (spellsWord.unique ofWord).1) (noWord result.1)
      · have notContainer : ∀ word : Requiredness, word.keyword ∉ ["map", "list", "set"] := by
          intro word
          cases word <;> decide
        obtain ⟨rfl, -⟩ := spellsWord.unique ofWord
        exact absurd container (notContainer result.1)

/-- What is read as a field is spelled as one. -/
theorem spellsField_of_read {field : Field}
    (found : (Grammar.field room).read bytes = some (field, rest)) :
    SpellsField room bytes field rest := by
  simp only [Grammar.field, bind_eq, pure_eq, read_bind_eq_some_iff, read_separated_iff, read_pure,
    read_optional_iff read_fieldId_iff, read_optional_iff read_requiredness_iff,
    read_optional_iff read_defaultValue_iff, identifier, read_token,
    Token.read_identifier_iff] at found
  obtain ⟨id, afterId, ⟨ofId, -⟩, requiredness, afterRequiredness, ⟨ofRequiredness, missing⟩, type,
    afterType, foundType, name, afterName, ofName, defaultValue, _, ⟨afterDefault, ⟨ofDefault, -⟩,
    separator⟩, ⟨⟩⟩ := found
  obtain ⟨ofType, shallow⟩ := spellsType_of_read foundType
  refine .intro ofId ofRequiredness (fun absent word same => ?_) ofType shallow ofName ofDefault
    separator
  subst absent same
  cases ofRequiredness
  cases ofType with
  | named ofWord =>
      have found := read_requiredness_iff.2 (show SpellsRequiredness word _ _ from ofWord)
      rw [missing rfl] at found
      cases found

/-- Whether bytes do not go on with an equals sign, with which a default value begins. -/
abbrev NoEquals (bytes : List UInt8) : Prop := Stops (· == Byte.equals) bytes

theorem SpellsField.any_head? {field : Field} (spells : SpellsField room bytes field rest) :
    bytes.head?.any Grammar.opensField = true := by
  have name : ∀ byte, Byte.isIdentifier byte = true → Grammar.opensField byte = true := by
    grind [Grammar.opensField]
  obtain ⟨ofId, ofRequiredness, -, ofType, -, -, -, -⟩ := spells
  cases ofId with
  | present ofId =>
      obtain ⟨middle, found, -⟩ := ofId
      refine any_head?_of_read Grammar.wellFormed_integer Grammar.not_nullable_integer
        (fun byte opens => ?_) found
      have opening := Grammar.opensInteger_of_opens opens
      have digit := @Byte.isIdentifier_of_isDigit byte
      grind [Grammar.opensInteger, Grammar.opensField]
  | absent =>
      cases ofRequiredness with
      | present ofWord => exact any_head?_mono (SpellsName.any_head? ofWord) name
      | absent => exact any_head?_mono ofType.any_head? name

theorem SpellsField.noEquals {field : Field} (spells : SpellsField room bytes field rest) :
    NoEquals bytes :=
  stops_of_any_head? spells.any_head? (by
    grind [Grammar.opensField, Byte.isIdentifier, Byte.isDigit, Byte.isLetter, Byte.isSign])

/-- A separator or its absence lets no equals sign through. -/
theorem SpellsSeparator.noEquals (separator : SpellsSeparator bytes rest)
    (noEquals : NoEquals rest) : NoEquals bytes :=
  separator.stops noEquals (by grind [Byte.isSeparator])

/-- What is spelled as a field is read as one, unless what follows could be a default value. -/
theorem SpellsField.read {field : Field} (spells : SpellsField room bytes field rest)
    (noEquals : NoEquals rest) :
    (Grammar.field room).read bytes = some (field, rest) := by
  obtain ⟨ofId, ofRequiredness, noWord, ofType, shallow, ofName, ofDefault, separator⟩ := spells
  simp only [Grammar.field, bind_eq, pure_eq, read_bind_eq_some_iff, read_separated_iff, read_pure,
    read_optional_iff read_fieldId_iff, read_optional_iff read_requiredness_iff,
    read_optional_iff read_defaultValue_iff, identifier, read_token,
    Token.read_identifier_iff]
  have foundType := ofType.read shallow (noBracket_of_any_head? ofName.any_head?)
  refine ⟨_, _, ⟨ofId, fun noId => ?_⟩, _, _, ⟨ofRequiredness, fun absent => ?_⟩, _, _, foundType,
    _, _, ofName, _, _, ⟨_, ⟨ofDefault, fun noDefault => ?_⟩, separator⟩, rfl⟩
  · subst noId
    cases ofId
    cases ofRequiredness with
    | present ofWord => exact read_bind_of_none (read_integer_eq_none_of_requiredness ofWord)
    | absent => exact ofType.read_fieldId_eq_none (ofName.stops (by grind [Byte.isIdentifier,
        Byte.isDigit, Byte.isLetter]))
  · subst absent
    cases ofRequiredness
    exact ofType.read_requiredness_eq_none (noWord rfl)
  · subst noDefault
    cases ofDefault
    exact read_mark_bind_eq_none (separator.noEquals noEquals)

/-! ### Lists of fields -/

/-- Fields between two marks are read as they are spelled, if no field begins like the last mark. -/
theorem read_fields_iff {opening closing : UInt8} (closes : Grammar.opensField closing = false)
    (notEquals : (closing == Byte.equals) = false) {fields : List Field} :
    (Grammar.fields room opening closing).read bytes = some (fields, rest) ↔
      SpellsFields room opening closing fields bytes rest := by
  have wellFormed : (Rule.many (Grammar.field room)).WellFormed := by simp
  simp only [Grammar.fields, bind_eq, pure_eq, read_bind_eq_some_iff, mark, read_token,
    Token.read_mark_iff, read_many_eq_some_iff wellFormed, read_pure, SpellsFields]
  constructor
  · rintro ⟨_, inside, ofOpening, items, last, ⟨repeats, -⟩, _, _, ofClosing, ⟨⟩⟩
    exact ⟨inside, last, ofOpening, repeats.imp fun _ _ _ => spellsField_of_read, ofClosing⟩
  · rintro ⟨inside, last, ofOpening, spells, ofClosing⟩
    have missing : (Grammar.field room).read last = none :=
      read_eq_none_of_stops (Grammar.wellFormed_field room) (Grammar.not_nullable_field room)
        (fun _ => Grammar.opensField_of_opens) (ofClosing.stops closes)
    have starts : ∀ bytes field rest,
        SpellsField room bytes field rest → NoEquals rest → NoEquals bytes :=
      fun _ _ _ ofField _ => ofField.noEquals
    have repeats := (spells.imp_of_follows starts (fun _ _ _ => SpellsField.read)
      (ofClosing.stops notEquals)).1
    exact ⟨(), inside, ofOpening, fields, last, ⟨repeats, missing⟩, (), rest, ofClosing, rfl⟩

/-! ### Items of enumerations -/

theorem SpellsItem.any_head? {item : EnumItem} (spells : SpellsItem bytes item rest) :
    bytes.head?.any Byte.isIdentifier = true := by
  obtain ⟨ofName, -, -⟩ := spells
  exact ofName.any_head?

theorem spellsItem_of_read {item : EnumItem}
    (found : Grammar.enumItem.read bytes = some (item, rest)) : SpellsItem bytes item rest := by
  simp only [Grammar.enumItem, bind_eq, pure_eq, read_bind_eq_some_iff, read_separated_iff,
    read_pure, read_optional_iff read_itemValue_iff, identifier, read_token,
    Token.read_identifier_iff] at found
  obtain ⟨name, afterName, ofName, value, _, ⟨afterValue, ⟨ofValue, -⟩, separator⟩, ⟨⟩⟩ := found
  exact .intro ofName ofValue separator

theorem SpellsItem.read {item : EnumItem} (spells : SpellsItem bytes item rest)
    (noEquals : NoEquals rest) : Grammar.enumItem.read bytes = some (item, rest) := by
  obtain ⟨ofName, ofValue, separator⟩ := spells
  simp only [Grammar.enumItem, bind_eq, pure_eq, read_bind_eq_some_iff, read_separated_iff,
    read_pure, read_optional_iff read_itemValue_iff, identifier, read_token,
    Token.read_identifier_iff]
  refine ⟨_, _, ofName, _, _, ⟨_, ⟨ofValue, fun noValue => ?_⟩, separator⟩, rfl⟩
  subst noValue
  cases ofValue
  exact read_mark_bind_eq_none (separator.noEquals noEquals)

theorem noEquals_of_name (name : bytes.head?.any Byte.isIdentifier = true) : NoEquals bytes :=
  stops_of_any_head? name (by grind [Byte.isIdentifier, Byte.isDigit, Byte.isLetter])

/-- Items in front of the last brace are read as they are spelled. -/
theorem read_items_iff {items : List EnumItem} {after : List UInt8}
    (closing : SpellsMark Byte.closeBrace rest after) :
    (Rule.many Grammar.enumItem).read bytes = some (items, rest) ↔
      Repeats SpellsItem bytes items rest := by
  have wellFormed : (Rule.many Grammar.enumItem).WellFormed := by simp
  rw [read_many_eq_some_iff wellFormed]
  constructor
  · rintro ⟨repeats, -⟩
    exact repeats.imp fun _ _ _ => spellsItem_of_read
  · intro spells
    have starts : ∀ bytes item rest, SpellsItem bytes item rest → NoEquals rest → NoEquals bytes :=
      fun _ _ _ ofItem _ => noEquals_of_name ofItem.any_head?
    refine ⟨(spells.imp_of_follows starts (fun _ _ _ => SpellsItem.read)
      (closing.stops (by decide))).1, ?_⟩
    exact read_eq_none_of_stops Grammar.wellFormed_enumItem Grammar.not_nullable_enumItem
      (fun _ => Grammar.isIdentifier_of_enumItem_opens) (closing.stops (by decide))

/-! ### Functions -/

theorem read_parenthesizedFields_iff {fields : List Field} :
    (Grammar.parenthesizedFields room).read bytes = some (fields, rest) ↔
      SpellsFields room Byte.openParenthesis Byte.closeParenthesis fields bytes rest :=
  read_fields_iff (by decide) (by decide)

theorem read_bracedFields_iff {fields : List Field} :
    (Grammar.bracedFields room).read bytes = some (fields, rest) ↔
      SpellsFields room Byte.openBrace Byte.closeBrace fields bytes rest :=
  read_fields_iff (by decide) (by decide)

theorem read_exceptions_iff {exceptions : List Field} :
    (Grammar.exceptions room).read bytes = some (exceptions, rest) ↔
      SpellsThrows room exceptions bytes rest := by
  simp only [Grammar.exceptions, bind_eq, SpellsThrows]
  rw [read_keyword_bind_iff (by decide)]
  simp only [read_parenthesizedFields_iff]

theorem read_oneway_iff {text : String} :
    (keyword "oneway").read bytes = some (text, rest) ↔ SpellsKeyword "oneway" text bytes rest :=
  Token.read_keyword_iff (by decide)

theorem spellsFunction_of_read {function : Function}
    (found : (Grammar.function room).read bytes = some (function, rest)) :
    SpellsFunction room bytes function rest := by
  simp only [Grammar.function, bind_eq, pure_eq, read_bind_eq_some_iff, read_separated_iff,
    read_pure, read_optional_iff read_oneway_iff, read_optional_iff read_exceptions_iff,
    read_parenthesizedFields_iff, identifier, read_token, Token.read_identifier_iff] at found
  obtain ⟨oneway, afterOneway, ⟨ofOneway, missing⟩, resultType, afterType, foundType, name,
    afterName, ofName, arguments, afterArguments, ofArguments, thrown, _, ⟨afterThrows,
    ⟨ofThrows, -⟩, separator⟩, ⟨⟩⟩ := found
  obtain ⟨ofType, shallow⟩ := spellsType_of_read foundType
  refine .intro ofOneway (fun absent same => ?_) ofType shallow ofName ofArguments ofThrows
    separator
  subst absent same
  cases ofOneway
  cases ofType with
  | named ofWord =>
      have found := read_oneway_iff.2 (⟨rfl, ofWord⟩ : SpellsKeyword "oneway" "oneway" _ _)
      rw [missing rfl] at found
      cases found

/-- Whether bytes do not go on with the exceptions of a function. -/
def NoThrows (bytes : List UInt8) : Prop :=
  ∀ middle, SpellsName "throws" bytes middle → Stops (· == Byte.openParenthesis) middle

/-- A function whose result type is named after the word for exceptions has no list of them. -/
theorem SpellsFunction.noThrows {function : Function}
    (spells : SpellsFunction room bytes function rest) : NoThrows bytes := by
  obtain ⟨ofOneway, -, ofType, -, ofName, -, -, -⟩ := spells
  intro middle throws
  cases ofOneway with
  | present ofWord => exact absurd (ofWord.2.unique throws).1 (by decide)
  | absent =>
      obtain ⟨word, after, spellsWord, ⟨-, rfl⟩ | container⟩ := ofType.exists_word
      · obtain ⟨-, rfl⟩ := spellsWord.unique throws
        exact ofName.stops (by grind [Byte.isIdentifier, Byte.isDigit, Byte.isLetter])
      · obtain ⟨rfl, -⟩ := spellsWord.unique throws
        exact absurd container (by decide)

theorem noThrows_of_mark {byte : UInt8} (mark : SpellsMark byte bytes rest)
    (notName : Byte.isIdentifier byte = false) : NoThrows bytes := by
  intro middle throws
  have stops := mark.stops notName
  rw [Stops, throws.any_head?] at stops
  cases stops

theorem SpellsSeparator.noThrows (separator : SpellsSeparator bytes rest)
    (noThrows : NoThrows rest) : NoThrows bytes := by
  cases separator with
  | absent _ => exact noThrows
  | present isSeparator =>
      exact noThrows_of_mark ⟨_, rfl, rfl⟩ (by grind [Byte.isSeparator, Byte.isIdentifier,
        Byte.isDigit, Byte.isLetter])

theorem NoThrows.read_exceptions_eq_none (noThrows : NoThrows bytes) :
    (Grammar.exceptions room).read bytes = none := by
  cases found : (Grammar.exceptions room).read bytes with
  | none => rfl
  | some result =>
      obtain ⟨middle, throws, inside, last, opening, -⟩ := read_exceptions_iff.1 found
      have stops := noThrows middle throws
      obtain ⟨tail, rfl, -⟩ := opening
      exact absurd (stops_cons.1 stops) (by simp)

/-- What is spelled as a function is read as one, unless what follows could be its exceptions. -/
theorem SpellsFunction.read {function : Function}
    (spells : SpellsFunction room bytes function rest) (noThrows : NoThrows rest) :
    (Grammar.function room).read bytes = some (function, rest) := by
  obtain ⟨ofOneway, noWord, ofType, shallow, ofName, ofArguments, ofThrows, separator⟩ := spells
  simp only [Grammar.function, bind_eq, pure_eq, read_bind_eq_some_iff, read_separated_iff,
    read_pure, read_optional_iff read_oneway_iff, read_optional_iff read_exceptions_iff,
    read_parenthesizedFields_iff, identifier, read_token, Token.read_identifier_iff]
  have foundType := ofType.read shallow (noBracket_of_any_head? ofName.any_head?)
  refine ⟨_, _, ⟨ofOneway, fun absent => ?_⟩, _, _, foundType, _, _, ofName, _, _, ofArguments, _,
    _, ⟨_, ⟨ofThrows, fun noExceptions => ?_⟩, separator⟩, rfl⟩
  · subst absent
    cases ofOneway
    obtain ⟨word, middle, spellsWord, ⟨rfl, -⟩ | container⟩ := ofType.exists_word
    · exact spellsWord.read_keyword_eq_none (by decide) fun same =>
        noWord rfl (congrArg _ same.symm)
    · refine spellsWord.read_keyword_eq_none (by decide) ?_
      rintro rfl
      exact absurd container (by decide)
  · subst noExceptions
    cases ofThrows
    exact (separator.noThrows noThrows).read_exceptions_eq_none

/-- Functions in front of the last brace are read as they are spelled. -/
theorem read_functions_iff {functions : List Function} {after : List UInt8}
    (closing : SpellsMark Byte.closeBrace rest after) :
    (Rule.many (Grammar.function room)).read bytes = some (functions, rest) ↔
      Repeats (SpellsFunction room) bytes functions rest := by
  have wellFormed : (Rule.many (Grammar.function room)).WellFormed := by simp
  rw [read_many_eq_some_iff wellFormed]
  constructor
  · rintro ⟨repeats, -⟩
    exact repeats.imp fun _ _ _ => spellsFunction_of_read
  · intro spells
    have starts : ∀ bytes function rest,
        SpellsFunction room bytes function rest → NoThrows rest → NoThrows bytes :=
      fun _ _ _ ofFunction _ => ofFunction.noThrows
    refine ⟨(spells.imp_of_follows starts (fun _ _ _ => SpellsFunction.read)
      (noThrows_of_mark closing (by decide))).1, ?_⟩
    exact read_eq_none_of_stops (Grammar.wellFormed_function room)
      (Grammar.not_nullable_function room) (fun _ => Grammar.isIdentifier_of_function_opens)
      (closing.stops (by decide))

end ThriftIdl
