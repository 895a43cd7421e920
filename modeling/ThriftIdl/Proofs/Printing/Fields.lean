import ThriftIdl.Proofs.Printing.Values

/-!
# Printed fields, enum items and functions

Fields and functions are printed with a separator behind them, so they are read back whatever
follows. Optional parts that are absent are not printed; in particular an empty list of exceptions
leaves nothing behind, since it makes no difference to the function.
-/

namespace ThriftIdl

open Rule

variable {α : Type} {room : Nat} {bytes rest tail : List UInt8}

/-! ### Optional parts -/

/-- An absent part is read back from nothing. -/
theorem prints_absent {spells : α → List UInt8 → List UInt8 → Prop} (follows : List UInt8 → Prop) :
    Prints (SpellsOption spells none) follows "" := fun tail _ => .absent (Gap.rest tail)

theorem Prints.present {spells : α → List UInt8 → List UInt8 → Prop} {part : α}
    {follows : List UInt8 → Prop} {text : String} (prints : Prints (spells part) follows text) :
    Prints (SpellsOption spells (some part)) follows text := fun tail holds =>
  .present (prints tail holds)

/-- Whatever is assigned is read back behind the equals sign. -/
theorem Prints.assigned {spells : α → List UInt8 → List UInt8 → Prop} {part : α}
    {follows : List UInt8 → Prop} {text : String} (prints : Prints (spells part) follows text) :
    Prints (Assigned spells part) follows (" = " ++ text) := by
  intro tail holds
  have printed : Utf8.encode (" = " ++ text) ++ tail =
      Byte.space :: Byte.equals :: Byte.space :: (Utf8.encode text ++ tail) := by
    rw [Utf8.encode_append, List.append_assoc]
    rfl
  rw [printed, Gap.rest_space_cons]
  exact ⟨_, spellsMark_space rfl _, prints tail holds⟩

theorem stops_assigned (text : String) (tail : List UInt8) :
    Stops Byte.isIdentifier (Utf8.encode (" = " ++ text) ++ tail) := by
  rw [Utf8.encode_append]
  exact stops_cons.2 rfl

/-- A printed integer is read back where only an integer may stand. -/
theorem Print.prints_integer (number : Int64) :
    Prints (fun bytes rest => Grammar.integer.read bytes = some (number, rest))
      (Stops Byte.isIdentifier) (Print.integer number) := by
  intro tail stops
  have denotes := denotes_integer number
  rw [denotes.rest_append]
  exact denotes.read_integer stops

theorem prints_id (id : Option Int64) :
    Prints (SpellsOption SpellsId id) Anything (Print.optional (Print.integer · ++ ": ") id) := by
  cases id with
  | none => exact prints_absent Anything
  | some id =>
      apply Prints.present
      intro tail _
      rw [Print.optional, Utf8.encode_append, List.append_assoc]
      exact ⟨_, Print.prints_integer id (Byte.colon :: Byte.space :: tail) (stops_cons.2 rfl),
        spellsMark_space rfl tail⟩

theorem Requiredness.isName_keyword (requiredness : Requiredness) : IsName requiredness.keyword := by
  cases requiredness <;> exact Token.isName_of_isPlain (by decide)

theorem prints_requiredness (requiredness : Option Requiredness) :
    Prints (SpellsOption SpellsRequiredness requiredness) Anything
      (Print.optional (fun requiredness => requiredness.keyword ++ " ") requiredness) := by
  cases requiredness with
  | none => exact prints_absent Anything
  | some requiredness =>
      apply Prints.present
      intro tail _
      rw [Print.optional, Utf8.encode_append, List.append_assoc]
      exact requiredness.isName_keyword.prints_space tail

/-- A default value that was read can be printed, and then it is read back behind a name. -/
theorem exists_prints_defaultValue {defaultValue : Option Value}
    (spells : SpellsOption (Assigned (SpellsValue room)) defaultValue bytes rest)
    (noDouble : defaultValue.any Value.hasDouble = false) :
    ∃ text, Print.defaultValue? defaultValue = some text ∧
      Prints (SpellsOption (Assigned (SpellsValue room)) defaultValue) EndsValue text ∧
        ∀ tail, EndsValue tail → Stops Byte.isIdentifier (Utf8.encode text ++ tail) := by
  cases spells with
  | absent => exact ⟨"", rfl, prints_absent _, fun tail ends => ends.noName⟩
  | present assigned =>
      rcases assigned with ⟨_, -, ofValue⟩
      rcases ofValue.exists_prints noDouble with ⟨text, printed, prints⟩
      exact ⟨" = " ++ text, by rw [Print.defaultValue?, printed]; rfl, prints.assigned.present,
        fun tail _ => stops_assigned text tail⟩

/-! ### Fields -/

/-- A field that was read can be printed, and then it is read back. -/
theorem SpellsField.exists_prints {field : Field} (spells : SpellsField room bytes field rest)
    (noDouble : field.hasDouble = false) :
    ∃ text, Print.field? field = some text ∧ Prints (SpellsField room · field ·) Anything text := by
  obtain @⟨type, name, id, requiredness, _, _, _, _, _, _, _, _, -, -, noWord, ofType, shallow,
    ofName, ofDefault, -⟩ := spells
  rcases exists_prints_defaultValue ofDefault noDouble with ⟨text, printed, printsDefault, stops⟩
  refine ⟨_, by rw [Print.field?, printed]; rfl, ?_⟩
  intro tail _
  simp only [Utf8.encode_append, List.append_assoc]
  have ends : EndsValue (Byte.semicolon :: tail) := endsValue_cons rfl rfl tail
  exact .intro (prints_id id _ trivial) (prints_requiredness requiredness _ trivial) noWord
    (ofType.wellNamed.prints_space _) shallow (IsName.prints ofName.1 _ (stops _ ends))
    (printsDefault _ ends) (spellsSeparator_rest rfl tail)

/-- Fields that were read can be printed, and then they are read back. -/
theorem exists_prints_fields {fields : List Field}
    (spells : Repeats (SpellsField room) bytes fields rest)
    (noDouble : fields.any Field.hasDouble = false) :
    ∃ text, Print.fields? fields = some text ∧
      Prints (Repeats (SpellsField room) · fields ·) Anything text := by
  rw [List.any_eq_false] at noDouble
  obtain ⟨texts, printed, related⟩ := exists_mapM fun field mem => by
    rcases spells.exists_step mem with ⟨_, _, ofField⟩
    exact ofField.exists_prints (by simpa using noDouble field mem)
  refine ⟨" ".intercalate texts, by rw [Print.fields?, printed]; rfl, ?_⟩
  exact prints_intercalate (related.imp fun field text prints => ⟨prints.append_space, prints⟩)

/-- Fields are read back between their marks. -/
theorem spellsFields_rest {fields : List Field} {text : String} {opening closing : UInt8}
    (prints : Prints (Repeats (SpellsField room) · fields ·) Anything text)
    (opens : Gap.isBarrier opening = true) (closes : Gap.isBarrier closing = true)
    (tail : List UInt8) :
    SpellsFields room opening closing fields
      (Gap.rest (opening :: (Utf8.encode text ++ closing :: tail))) (Gap.rest tail) :=
  ⟨_, _, spellsMark_rest opens _, prints _ trivial, spellsMark_rest closes tail⟩

/-! ### Items of enumerations -/

theorem SpellsItem.prints_separator {item : EnumItem} (spells : SpellsItem bytes item rest)
    (ends : EndsValue tail) {last : List UInt8} (separator : SpellsSeparator (Gap.rest tail) last) :
    SpellsItem (Gap.rest (Utf8.encode (Print.enumItem item) ++ tail)) item last := by
  obtain @⟨name, value, _, _, _, _, ofName, -, -⟩ := spells
  rw [Print.enumItem, Utf8.encode_append, List.append_assoc]
  cases value with
  | none => exact .intro (IsName.prints ofName.1 _ ends.noName) (.absent _) separator
  | some number =>
      have assigned : Prints (SpellsOption (Assigned fun number bytes rest =>
          Grammar.integer.read bytes = some (number, rest)) (some number)) _ _ :=
        Prints.present (Prints.assigned (Print.prints_integer number))
      exact .intro (IsName.prints ofName.1 _ (stops_assigned _ _)) (assigned tail ends.noName)
        separator

/-- Items with commas between them are read back. -/
theorem prints_items {items : List EnumItem} (spells : Repeats SpellsItem bytes items rest) :
    Prints (Repeats SpellsItem · items ·) EndsItem
      (", ".intercalate (items.map Print.enumItem)) := by
  apply prints_intercalate
  rw [List.forall₂_map_right_iff, List.forall₂_same]
  intro item mem
  rcases spells.exists_step mem with ⟨_, _, ofItem⟩
  constructor
  · intro tail _
    rw [Utf8.encode_append, List.append_assoc]
    exact ofItem.prints_separator (endsValue_cons rfl rfl _) (spellsSeparator_comma tail)
  · exact fun tail ends => ofItem.prints_separator ends.endsValue (.absent ends.noSeparator)

/-! ### Functions -/

theorem prints_oneway {oneway : Option String}
    (spells : SpellsOption (SpellsKeyword "oneway") oneway bytes rest) :
    Prints (SpellsOption (SpellsKeyword "oneway") oneway) Anything
      (if oneway.isSome then "oneway " else "") := by
  cases spells with
  | absent => exact prints_absent Anything
  | present keyword =>
      rcases keyword with ⟨rfl, word⟩
      exact Prints.present fun tail _ => ⟨rfl, IsName.prints_space word.1 tail⟩

/-- Exceptions that were read can be printed; if there are none, they need not be read back. -/
theorem exists_prints_exceptions {thrown : Option (List Field)}
    (spells : SpellsOption (SpellsThrows room) thrown bytes rest)
    (noDouble : (thrown.getD []).any Field.hasDouble = false) :
    ∃ text same, Print.exceptions? (thrown.getD []) = some text ∧
      same.getD [] = thrown.getD [] ∧
        Prints (SpellsOption (SpellsThrows room) same) Anything text := by
  cases spells with
  | absent => exact ⟨"", none, rfl, rfl, prints_absent Anything⟩
  | @present fields _ _ throws =>
      rcases throws with ⟨_, word, _, _, -, ofFields, -⟩
      cases fields with
      | nil =>
          -- with an empty list of exceptions the function is the same as without one
          exact ⟨"", none, rfl, rfl, prints_absent Anything⟩
      | cons field fields =>
          rcases exists_prints_fields ofFields noDouble with ⟨text, printed, prints⟩
          refine ⟨" throws (" ++ text ++ ")", some (field :: fields), ?_, rfl, ?_⟩
          · simp [Print.exceptions?, printed]
          · apply Prints.present
            intro tail _
            have text : Utf8.encode (" throws (" ++ text ++ ")") ++ tail =
                Byte.space :: (Utf8.encode "throws" ++ Byte.space :: Byte.openParenthesis ::
                  (Utf8.encode text ++ Byte.closeParenthesis :: tail)) := by
              simp only [Utf8.encode_append, List.append_assoc]
              rfl
            rw [text, Gap.rest_space_cons]
            exact ⟨_, IsName.prints_space word.1 _, spellsFields_rest prints rfl rfl tail⟩

/-- A function that was read can be printed, and then it is read back. -/
theorem SpellsFunction.exists_prints {function : Function}
    (spells : SpellsFunction room bytes function rest) (noDouble : function.hasDouble = false) :
    ∃ text, Print.function? function = some text ∧
      Prints (SpellsFunction room · function ·) Anything text := by
  obtain @⟨_, _, name, _, _, _, _, _, _, _, _, _, ofOneway, noWord, ofType, shallow, ofName,
    ofArguments, ofThrows, -⟩ := spells
  rcases ofArguments with ⟨_, _, -, ofArguments, -⟩
  rcases Bool.or_eq_false_iff.1 noDouble with ⟨noDoubleArgument, noDoubleException⟩
  rcases exists_prints_fields ofArguments noDoubleArgument with
    ⟨argumentText, printedArguments, printsArguments⟩
  rcases exists_prints_exceptions ofThrows noDoubleException with
    ⟨thrownText, same, printedThrown, sameThrown, printsThrown⟩
  refine ⟨_, by rw [Print.function?, printedArguments, printedThrown]; rfl, ?_⟩
  intro tail _
  simp only [Utf8.encode_append, List.append_assoc]
  rw [← sameThrown]
  exact .intro (prints_oneway ofOneway _ trivial) noWord
    (ofType.wellNamed.prints_space _) shallow (IsName.prints ofName.1 _ (stops_cons.2 rfl))
    (spellsFields_rest printsArguments rfl rfl _)
    (printsThrown _ trivial) (spellsSeparator_rest rfl tail)

/-- Functions that were read can be printed, and then they are read back. -/
theorem exists_prints_functions {functions : List Function}
    (spells : ∀ function ∈ functions, ∃ bytes rest, SpellsFunction room bytes function rest)
    (noDouble : functions.any Function.hasDouble = false) :
    ∃ texts, functions.mapM Print.function? = some texts ∧
      Prints (Repeats (SpellsFunction room) · functions ·) Anything (" ".intercalate texts) := by
  rw [List.any_eq_false] at noDouble
  obtain ⟨texts, printed, related⟩ := exists_mapM fun function mem => by
    rcases spells function mem with ⟨_, _, ofFunction⟩
    exact ofFunction.exists_prints (by simpa using noDouble function mem)
  exact ⟨texts, printed, prints_intercalate (related.imp fun function text prints =>
    ⟨prints.append_space, prints⟩)⟩

end ThriftIdl
