import ThriftIdl.Proofs.Document.Fold
import ThriftIdl.Proofs.Printing.Fields

/-!
# Printed declarations

A declaration that was read can be printed, and what is printed is read back as that declaration if
neither a name nor a separator nor a dot follows. A service is printed with the functions that are
left in it, which are its table again.
-/

namespace ThriftIdl

open Rule

variable {room : Nat} {bytes rest tail : List UInt8}

theorem EndsValue.space (ends : EndsValue tail) : EndsValue (Byte.space :: tail) where
  noName := stops_cons.2 rfl
  noDot := by
    rw [Gap.rest_space_cons]
    exact ends.noDot

/-- The name of another service is read back behind the name of a service. -/
theorem prints_parent {parent : Option String}
    (spells : SpellsOption SpellsParent parent bytes rest) :
    Prints (SpellsOption SpellsParent parent) EndsValue (Print.optional (" extends " ++ ·) parent) ∧
      ∀ tail, EndsValue tail → Stops Byte.isIdentifier
        (Utf8.encode (Print.optional (" extends " ++ ·) parent) ++ tail) := by
  cases spells with
  | absent => exact ⟨prints_absent _, fun tail ends => ends.noName⟩
  | @present name _ _ ofParent =>
      rcases ofParent with ⟨_, word, ofName⟩
      have printed : ∀ tail : List UInt8, Utf8.encode (" extends " ++ name) ++ tail =
          Byte.space :: (Utf8.encode "extends" ++ Byte.space :: (Utf8.encode name ++ tail)) := by
        intro tail
        rw [Utf8.encode_append, List.append_assoc]
        rfl
      constructor
      · apply Prints.present
        intro tail ends
        rw [Print.optional, printed, Gap.rest_space_cons]
        exact ⟨_, IsName.prints_space word.1 _, ofName.prints tail ends⟩
      · intro tail _
        rw [Print.optional, printed]
        exact stops_cons.2 rfl

/-- An enumeration is read back with its items. -/
theorem prints_enumeration {name : String} {items : List EnumItem}
    {afterHead inside last : List UInt8} (head : SpellsHead .enumeration name bytes afterHead)
    (ofItems : Repeats SpellsItem inside items last) :
    Prints (SpellsDeclaration room · ⟨.enumeration, name, items⟩ ·) EndsItem
      ("enum " ++ name ++ " \x7b" ++ ", ".intercalate (items.map Print.enumItem) ++ "\x7d") := by
  rcases head with ⟨_, keyword, ofName⟩
  intro tail ends
  have printed : Utf8.encode ("enum " ++ name ++ " \x7b" ++
        ", ".intercalate (items.map Print.enumItem) ++ "\x7d") ++ tail =
      Utf8.encode "enum" ++ Byte.space :: (Utf8.encode name ++ Byte.space :: Byte.openBrace ::
        (Utf8.encode (", ".intercalate (items.map Print.enumItem)) ++
          Byte.closeBrace :: tail)) := by
    simp only [Utf8.encode_append, List.append_assoc]
    rfl
  rw [printed]
  exact .enumeration ⟨_, IsName.prints_space keyword.1 _, IsName.prints_space ofName.1 _⟩
    (spellsMark_rest rfl _) (prints_items ofItems _ (endsItem_cons rfl rfl rfl _))
    (spellsMark_rest rfl tail) (.absent ends.noSeparator)

/-- A struct, a union or an exception can be printed, and then it is read back. -/
theorem exists_prints_structure {kind : Kind} {name : String} {fields : List Field}
    {declaration : Declaration} {afterHead : List UInt8}
    (declares : ∀ {bytes afterHead afterFields rest : List UInt8},
      SpellsHead kind name bytes afterHead →
        SpellsFields room Byte.openBrace Byte.closeBrace fields afterHead afterFields →
          SpellsSeparator afterFields rest → SpellsDeclaration room bytes declaration rest)
    (head : SpellsHead kind name bytes afterHead)
    (ofFields : SpellsFields room Byte.openBrace Byte.closeBrace fields afterHead rest)
    (noDouble : fields.any Field.hasDouble = false) :
    ∃ text, Print.structure? kind name fields = some text ∧
      Prints (SpellsDeclaration room · declaration ·) EndsItem text := by
  rcases head with ⟨_, keyword, ofName⟩
  rcases ofFields with ⟨_, _, -, ofFields, -⟩
  rcases exists_prints_fields ofFields noDouble with ⟨text, printed, prints⟩
  refine ⟨_, by rw [Print.structure?, printed]; rfl, ?_⟩
  intro tail ends
  simp only [Utf8.encode_append, List.append_assoc]
  exact declares ⟨_, IsName.prints_space keyword.1 _, IsName.prints_space ofName.1 _⟩
    (spellsFields_rest prints rfl rfl tail) (.absent ends.noSeparator)

/--
The functions of a table can be printed, and then they are read back. Of several functions with one
name only the last is left, so fewer may be printed than were read.
-/
theorem exists_prints_functionTable {functions : List Function}
    (ofFunctions : Repeats (SpellsFunction room) bytes functions rest)
    (noDouble : (Table.ofList Function.name functions).entries.any (·.2.hasDouble) = false) :
    ∃ texts, ((Table.ofList Function.name functions).entries.map Prod.snd).mapM Print.function? =
        some texts ∧
      Prints (Repeats (SpellsFunction room) ·
        ((Table.ofList Function.name functions).entries.map Prod.snd) ·) Anything
        (" ".intercalate texts) := by
  apply exists_prints_functions
  · intro function mem
    rcases List.mem_map.1 mem with ⟨entry, memEntries, rfl⟩
    exact ofFunctions.exists_step (Table.mem_ofList memEntries).2
  · rw [List.any_map]
    exact noDouble

/-- A service can be printed, and then it is read back with the functions of its table. -/
theorem exists_prints_service {name : String} {parent : Option String} {functions : List Function}
    {afterHead afterParent inside last : List UInt8}
    (head : SpellsHead .service name bytes afterHead)
    (ofParent : SpellsOption SpellsParent parent afterHead afterParent)
    (ofFunctions : Repeats (SpellsFunction room) inside functions last)
    (noDouble : (Table.ofList Function.name functions).entries.any (·.2.hasDouble) = false) :
    ∃ text, Print.declaration? ⟨.service, name,
        { parent, functions := Table.ofList Function.name functions }⟩ = some text ∧
      Prints (SpellsDeclaration room · ⟨.service, name,
        { parent, functions := Table.ofList Function.name functions }⟩ ·) EndsItem text := by
  rcases head with ⟨_, keyword, ofName⟩
  rcases exists_prints_functionTable ofFunctions noDouble with ⟨texts, printed, prints⟩
  refine ⟨_, by rw [Print.declaration?, printed]; rfl, ?_⟩
  intro tail ends
  have printed : Utf8.encode ("service " ++ name ++ Print.optional (" extends " ++ ·) parent ++
        " \x7b" ++ " ".intercalate texts ++ "\x7d") ++ tail =
      Utf8.encode "service" ++ Byte.space :: (Utf8.encode name ++
        (Utf8.encode (Print.optional (" extends " ++ ·) parent) ++ Byte.space ::
          Byte.openBrace :: (Utf8.encode (" ".intercalate texts) ++ Byte.closeBrace :: tail))) := by
    simp only [Utf8.encode_append, List.append_assoc]
    rfl
  have endsParent := fun after : List UInt8 =>
    (endsValue_cons (show Gap.isBarrier Byte.openBrace = true from rfl) rfl after).space
  rcases prints_parent ofParent with ⟨printsParent, stops⟩
  have ofParent := printsParent _ (endsParent (Utf8.encode (" ".intercalate texts) ++
    Byte.closeBrace :: tail))
  rw [Gap.rest_space_cons] at ofParent
  -- the constructor makes a table of the functions that are read, and theirs is the same again
  rw [printed, ← Table.ofList_map_snd Function.name functions]
  exact .service ⟨_, IsName.prints_space keyword.1 _,
    IsName.prints ofName.1 _ (stops _ (endsParent _))⟩ ofParent (spellsMark_rest rfl _)
    (prints _ trivial) (spellsMark_rest rfl tail) (.absent ends.noSeparator)

/-- A declaration that was read can be printed, and then it is read back. -/
theorem SpellsDeclaration.exists_prints {declaration : Declaration}
    (spells : SpellsDeclaration room bytes declaration rest)
    (noDouble : declaration.hasDouble = false) :
    ∃ text, Print.declaration? declaration = some text ∧
      Prints (SpellsDeclaration room · declaration ·) EndsItem text := by
  cases spells with
  | @typedef name type _ _ _ _ _ keyword ofType shallow ofName _ =>
      refine ⟨_, rfl, ?_⟩
      intro tail ends
      have printed : Utf8.encode ("typedef " ++ Print.type type ++ " " ++ name) ++ tail =
          Utf8.encode "typedef" ++ Byte.space :: (Utf8.encode (Print.type type) ++
            Byte.space :: (Utf8.encode name ++ tail)) := by
        simp only [Utf8.encode_append, List.append_assoc]
        rfl
      rw [printed]
      exact .typedef (IsName.prints_space keyword.1 _) (ofType.wellNamed.prints_space _) shallow
        (IsName.prints ofName.1 tail ends.noName) (.absent ends.noSeparator)
  | @constant name type value _ _ _ _ _ _ _ keyword ofType shallow ofName equals ofValue _ =>
      rcases ofValue.exists_prints noDouble with ⟨text, printed, prints⟩
      refine ⟨_, by rw [Print.declaration?, printed]; rfl, ?_⟩
      intro tail ends
      have printed : Utf8.encode ("const " ++ Print.type type ++ " " ++ name ++ " = " ++ text) ++
          tail = Utf8.encode "const" ++ Byte.space :: (Utf8.encode (Print.type type) ++
            Byte.space :: (Utf8.encode name ++ (Utf8.encode (" = " ++ text) ++ tail))) := by
        simp only [Utf8.encode_append, List.append_assoc]
        rfl
      rcases prints.assigned tail ends.endsValue with ⟨_, ofEquals, ofValue⟩
      rw [printed]
      exact .constant (IsName.prints_space keyword.1 _) (ofType.wellNamed.prints_space _) shallow
        (IsName.prints ofName.1 _ (stops_assigned _ _)) ofEquals ofValue (.absent ends.noSeparator)
  | enumeration head opening ofItems closing _ => exact ⟨_, rfl, prints_enumeration head ofItems⟩
  | struct head ofFields _ => exact exists_prints_structure .struct head ofFields noDouble
  | union head ofFields _ => exact exists_prints_structure .union head ofFields noDouble
  | exception head ofFields _ => exact exists_prints_structure .exception head ofFields noDouble
  | service head ofParent opening ofFunctions closing _ =>
      exact exists_prints_service head ofParent ofFunctions noDouble
  | @namespaceName scope name _ _ _ _ _ keyword ofScope ofName _ =>
      refine ⟨_, rfl, ?_⟩
      intro tail ends
      have printed : Utf8.encode ("namespace " ++ scope ++ " " ++ name) ++ tail =
          Utf8.encode "namespace" ++ Byte.space :: (Utf8.encode scope ++
            Byte.space :: (Utf8.encode name ++ tail)) := by
        simp only [Utf8.encode_append, List.append_assoc]
        rfl
      have ofScope := IsWord.prints ofScope.1 (fun _ => id)
        (Byte.space :: (Utf8.encode name ++ tail)) (stops_cons.2 rfl)
      rw [Gap.rest_space_cons] at ofScope
      rw [printed]
      exact .namespaceName (IsName.prints_space keyword.1 _) ofScope
        (ofName.prints tail ends.endsValue) (.absent ends.noSeparator)
  | @inclusion path _ _ _ _ keyword ofPath _ =>
      rcases isEnclosed_untilFirstQuote.prints_token rfl ofPath with ⟨text, printed, prints⟩
      refine ⟨_, by rw [Print.declaration?, printed]; rfl, ?_⟩
      intro tail ends
      have printed : Utf8.encode ("include " ++ text) ++ tail =
          Utf8.encode "include" ++ Byte.space :: (Utf8.encode text ++ tail) := by
        simp only [Utf8.encode_append, List.append_assoc]
        rfl
      rw [printed]
      exact .inclusion (IsName.prints_space keyword.1 _) (prints tail trivial)
        (.absent ends.noSeparator)

end ThriftIdl
