import ThriftIdl.Proofs.Grammar.Fields

/-!
# What a declaration looks like

The keyword of a declaration decides which rule reads it, since no two kinds have the same keyword.
`SpellsDeclaration` is exactly what reading a declaration means.
-/

namespace ThriftIdl

open Rule

/-- Whether bytes are a dotted name. -/
def SpellsDottedName (name : String) (bytes rest : List UInt8) : Prop :=
  ∃ segments, SpellsReference segments bytes rest ∧ name = ".".intercalate segments

/-- Whether bytes are the service that another one extends. -/
def SpellsParent (name : String) (bytes rest : List UInt8) : Prop :=
  ∃ middle, SpellsName "extends" bytes middle ∧ SpellsDottedName name middle rest

/-- Whether bytes are the keyword and the name of a declaration. -/
def SpellsHead (kind : Kind) (name : String) (bytes rest : List UInt8) : Prop :=
  ∃ middle, SpellsName kind.keyword bytes middle ∧ SpellsName name middle rest

/-- Whether bytes are a declaration in which values and types nest at most that many levels. -/
inductive SpellsDeclaration (room : Nat) : List UInt8 → Declaration → List UInt8 → Prop where
  | typedef {name : String} {type : FieldType}
      {bytes afterKeyword afterType afterName rest : List UInt8}
      (keyword : SpellsName "typedef" bytes afterKeyword)
      (ofType : SpellsType type afterKeyword afterType) (shallow : type.depth ≤ room)
      (ofName : SpellsName name afterType afterName) (separator : SpellsSeparator afterName rest) :
      SpellsDeclaration room bytes ⟨.typedef, name, type⟩ rest
  | constant {name : String} {type : FieldType} {value : Value}
      {bytes afterKeyword afterType afterName afterEquals afterValue rest : List UInt8}
      (keyword : SpellsName "const" bytes afterKeyword)
      (ofType : SpellsType type afterKeyword afterType) (shallow : type.depth ≤ room)
      (ofName : SpellsName name afterType afterName)
      (equals : SpellsMark Byte.equals afterName afterEquals)
      (ofValue : SpellsValue room value afterEquals afterValue)
      (separator : SpellsSeparator afterValue rest) :
      SpellsDeclaration room bytes ⟨.constant, name, { type, value }⟩ rest
  | enumeration {name : String} {items : List EnumItem}
      {bytes afterHead inside last afterItems rest : List UInt8}
      (head : SpellsHead .enumeration name bytes afterHead)
      (opening : SpellsMark Byte.openBrace afterHead inside)
      (ofItems : Repeats SpellsItem inside items last)
      (closing : SpellsMark Byte.closeBrace last afterItems)
      (separator : SpellsSeparator afterItems rest) :
      SpellsDeclaration room bytes ⟨.enumeration, name, items⟩ rest
  | struct {name : String} {fields : List Field} {bytes afterHead afterFields rest : List UInt8}
      (head : SpellsHead .struct name bytes afterHead)
      (ofFields : SpellsFields room Byte.openBrace Byte.closeBrace fields afterHead afterFields)
      (separator : SpellsSeparator afterFields rest) :
      SpellsDeclaration room bytes ⟨.struct, name, fields⟩ rest
  | union {name : String} {fields : List Field} {bytes afterHead afterFields rest : List UInt8}
      (head : SpellsHead .union name bytes afterHead)
      (ofFields : SpellsFields room Byte.openBrace Byte.closeBrace fields afterHead afterFields)
      (separator : SpellsSeparator afterFields rest) :
      SpellsDeclaration room bytes ⟨.union, name, fields⟩ rest
  | exception {name : String} {fields : List Field} {bytes afterHead afterFields rest : List UInt8}
      (head : SpellsHead .exception name bytes afterHead)
      (ofFields : SpellsFields room Byte.openBrace Byte.closeBrace fields afterHead afterFields)
      (separator : SpellsSeparator afterFields rest) :
      SpellsDeclaration room bytes ⟨.exception, name, fields⟩ rest
  | service {name : String} {parent : Option String} {functions : List Function}
      {bytes afterHead afterParent inside last afterFunctions rest : List UInt8}
      (head : SpellsHead .service name bytes afterHead)
      (ofParent : SpellsOption SpellsParent parent afterHead afterParent)
      (opening : SpellsMark Byte.openBrace afterParent inside)
      (ofFunctions : Repeats (SpellsFunction room) inside functions last)
      (closing : SpellsMark Byte.closeBrace last afterFunctions)
      (separator : SpellsSeparator afterFunctions rest) :
      SpellsDeclaration room bytes
        ⟨.service, name, { parent, functions := Table.ofList Function.name functions }⟩ rest
  | namespaceName {scope name : String} {bytes afterKeyword afterScope afterName rest : List UInt8}
      (keyword : SpellsName "namespace" bytes afterKeyword)
      (ofScope : SpellsWord Byte.isScope scope afterKeyword afterScope)
      (ofName : SpellsDottedName name afterScope afterName)
      (separator : SpellsSeparator afterName rest) :
      SpellsDeclaration room bytes ⟨.namespaceName, scope, name⟩ rest
  | inclusion {path : String} {bytes afterKeyword afterPath rest : List UInt8}
      (keyword : SpellsName "include" bytes afterKeyword)
      (ofPath : Token.path.read afterKeyword = some (path, afterPath))
      (separator : SpellsSeparator afterPath rest) :
      SpellsDeclaration room bytes ⟨.inclusion, Grammar.nameOfPath path, path⟩ rest

/-- The names between the dots make up a name. -/
theorem SpellsDottedName.isName {name : String} {bytes rest : List UInt8}
    (spells : SpellsDottedName name bytes rest) : IsName name := by
  rcases spells with ⟨segments, spells, rfl⟩
  exact isName_intercalate (isName_of_spellsReference spells) spells.ne_nil

theorem Kind.mem_all (kind : Kind) : kind ∈ Kind.all := by
  cases kind <;> decide

theorem Kind.nodup_all : Kind.all.Nodup := by
  decide

namespace Grammar

/-- The rule for one kind of declaration. -/
def formOf (room : Nat) : Kind → Rule Declaration
  | .typedef => typedef room
  | .constant => constant room
  | .enumeration => enumeration
  | .struct => struct room
  | .union => union room
  | .exception => exception room
  | .service => service room
  | .namespaceName => namespaceName
  | .inclusion => inclusion

theorem plain_keyword (kind : Kind) : (Token.keyword kind.keyword).isPlain = true := by
  cases kind <;> decide

theorem keyword_injective {kind other : Kind} (same : kind.keyword = other.keyword) :
    kind = other := by
  revert same
  cases kind <;> cases other <;> decide

/-- Every declaration begins with the keyword of its kind. -/
theorem exists_formOf_eq (room : Nat) (kind : Kind) :
    ∃ next, formOf room kind = Rule.bind (keyword kind.keyword) next := by
  cases kind <;> exact ⟨_, rfl⟩

variable {room : Nat} {bytes rest : List UInt8} {kind : Kind}

theorem exists_spellsName_of_read {declaration : Declaration}
    (found : (formOf room kind).read bytes = some (declaration, rest)) :
    ∃ middle, SpellsName kind.keyword bytes middle := by
  obtain ⟨next, form⟩ := exists_formOf_eq room kind
  rw [form, read_keyword_bind_iff (plain_keyword kind)] at found
  obtain ⟨middle, word, -⟩ := found
  exact ⟨middle, word⟩

theorem read_formOf_eq_none {other : Kind} {middle : List UInt8}
    (word : SpellsName kind.keyword bytes middle) (differ : other ≠ kind) :
    (formOf room other).read bytes = none := by
  obtain ⟨next, form⟩ := exists_formOf_eq room other
  rw [form]
  exact word.read_keyword_bind_eq_none (plain_keyword other) (mt keyword_injective differ)

/-- Where the keyword of a kind is, the order of the kinds does not matter. -/
theorem read_oneOf_formOf {expected : String} {middle : List UInt8}
    (word : SpellsName kind.keyword bytes middle) (kinds : List Kind) :
    (oneOf expected (kinds.map (formOf room))).read bytes =
      if kind ∈ kinds then (formOf room kind).read bytes else none := by
  induction kinds with
  | nil => rfl
  | cons first others ih =>
      rw [List.map_cons, read_oneOf_cons, ih]
      by_cases same : first = kind
      · subst same
        cases (formOf room first).read bytes <;> simp
      · simp [read_formOf_eq_none word same, Ne.symm same]

/-- A declaration is read by the rule for its keyword. -/
theorem read_declaration_iff_exists {declaration : Declaration} :
    (Grammar.declaration room).read bytes = some (declaration, rest) ↔
      ∃ kind, (formOf room kind).read bytes = some (declaration, rest) := by
  constructor
  · intro found
    obtain ⟨form, mem, found⟩ := exists_mem_of_read_oneOf found
    obtain ⟨kind, -, rfl⟩ : ∃ kind ∈ Kind.all, formOf room kind = form := List.mem_map.1 mem
    exact ⟨kind, found⟩
  · rintro ⟨kind, found⟩
    obtain ⟨middle, word⟩ := exists_spellsName_of_read found
    have whole : (Grammar.declaration room).read bytes = _ := read_oneOf_formOf word Kind.all
    rw [whole, if_pos kind.mem_all, found]

/-! ### Each kind -/

theorem read_parent_iff {name : String} :
    parent.read bytes = some (name, rest) ↔ SpellsParent name bytes rest := by
  simp only [parent, bind_eq]
  rw [read_keyword_bind_iff (by decide)]
  simp only [read_dottedName_iff, SpellsParent, SpellsDottedName]

/-- The three kinds whose body is a list of fields differ in nothing but their keyword. -/
theorem read_structure_iff (kind : Kind) (make : String → List Field → Declaration)
    {declaration : Declaration} :
    (Rule.bind (keyword kind.keyword) fun _ => .bind identifier fun name =>
        .bind (separated (bracedFields room)) fun fields => .pure (make name fields)).read bytes =
        some (declaration, rest) ↔
      ∃ name fields afterHead afterFields, SpellsHead kind name bytes afterHead ∧
        SpellsFields room Byte.openBrace Byte.closeBrace fields afterHead afterFields ∧
          SpellsSeparator afterFields rest ∧ declaration = make name fields := by
  rw [read_keyword_bind_iff (plain_keyword kind)]
  simp only [read_bind_eq_some_iff, read_separated_iff, identifier, read_token,
    Token.read_identifier_iff, read_bracedFields_iff, read_pure]
  constructor
  · rintro ⟨_, keyword, name, afterHead, ofName, fields, _, ⟨afterFields, ofFields, separator⟩, ⟨⟩⟩
    exact ⟨name, fields, afterHead, afterFields, ⟨_, keyword, ofName⟩, ofFields, separator, rfl⟩
  · rintro ⟨name, fields, afterHead, afterFields, ⟨_, keyword, ofName⟩, ofFields, separator, rfl⟩
    exact ⟨_, keyword, name, afterHead, ofName, fields, rest, ⟨afterFields, ofFields, separator⟩,
      rfl⟩

/-- What is read by the rule for a kind is spelled as a declaration of that kind. -/
theorem spellsDeclaration_of_read {declaration : Declaration}
    (found : (formOf room kind).read bytes = some (declaration, rest)) :
    SpellsDeclaration room bytes declaration rest := by
  cases kind with
  | typedef =>
      obtain ⟨afterKeyword, keyword, found⟩ := (read_keyword_bind_iff (by decide)).1 found
      simp only [bind_eq, pure_eq, read_bind_eq_some_iff, read_separated_iff, identifier,
        read_token, Token.read_identifier_iff, read_pure] at found
      obtain ⟨type, afterType, foundType, name, _, ⟨afterName, ofName, separator⟩, ⟨⟩⟩ := found
      obtain ⟨ofType, shallow⟩ := spellsType_of_read foundType
      exact .typedef keyword ofType shallow ofName separator
  | constant =>
      obtain ⟨afterKeyword, keyword, found⟩ := (read_keyword_bind_iff (by decide)).1 found
      simp only [bind_eq, pure_eq, read_bind_eq_some_iff, read_separated_iff, identifier, mark,
        read_token, Token.read_identifier_iff, Token.read_mark_iff, read_value_iff,
        read_pure] at found
      obtain ⟨type, afterType, foundType, name, afterName, ofName, _, afterEquals, equals, value, _,
        ⟨afterValue, ofValue, separator⟩, ⟨⟩⟩ := found
      obtain ⟨ofType, shallow⟩ := spellsType_of_read foundType
      exact .constant keyword ofType shallow ofName equals ofValue separator
  | enumeration =>
      obtain ⟨afterKeyword, keyword, found⟩ := (read_keyword_bind_iff (by decide)).1 found
      simp only [bind_eq, pure_eq, read_bind_eq_some_iff, read_separated_iff, identifier, mark,
        read_token, Token.read_identifier_iff, Token.read_mark_iff, read_pure] at found
      obtain ⟨name, afterHead, ofName, _, inside, opening, items, last, foundItems, _, _,
        ⟨afterItems, closing, separator⟩, ⟨⟩⟩ := found
      exact .enumeration ⟨_, keyword, ofName⟩ opening ((read_items_iff closing).1 foundItems)
        closing separator
  | struct =>
      obtain ⟨_, _, _, _, head, ofFields, separator, rfl⟩ :=
        (read_structure_iff .struct fun name fields => ⟨.struct, name, fields⟩).1 found
      exact .struct head ofFields separator
  | union =>
      obtain ⟨_, _, _, _, head, ofFields, separator, rfl⟩ :=
        (read_structure_iff .union fun name fields => ⟨.union, name, fields⟩).1 found
      exact .union head ofFields separator
  | exception =>
      obtain ⟨_, _, _, _, head, ofFields, separator, rfl⟩ :=
        (read_structure_iff .exception fun name fields => ⟨.exception, name, fields⟩).1 found
      exact .exception head ofFields separator
  | service =>
      obtain ⟨afterKeyword, keyword, found⟩ := (read_keyword_bind_iff (by decide)).1 found
      simp only [bind_eq, pure_eq, read_bind_eq_some_iff, read_separated_iff, identifier, mark,
        read_token, Token.read_identifier_iff, Token.read_mark_iff,
        read_optional_iff read_parent_iff, read_pure] at found
      obtain ⟨name, afterHead, ofName, parent, afterParent, ⟨ofParent, -⟩, _, inside, opening,
        functions, last, foundFunctions, _, _, ⟨afterFunctions, closing, separator⟩, ⟨⟩⟩ := found
      exact .service ⟨_, keyword, ofName⟩ ofParent opening
        ((read_functions_iff closing).1 foundFunctions) closing separator
  | namespaceName =>
      obtain ⟨afterKeyword, keyword, found⟩ := (read_keyword_bind_iff (by decide)).1 found
      simp only [bind_eq, pure_eq, read_bind_eq_some_iff, read_separated_iff, read_token,
        Token.read_scope_iff, read_dottedName_iff, read_pure] at found
      obtain ⟨scope, afterScope, ofScope, name, _, ⟨afterName, ofName, separator⟩, ⟨⟩⟩ := found
      exact .namespaceName keyword ofScope ofName separator
  | inclusion =>
      obtain ⟨afterKeyword, keyword, found⟩ := (read_keyword_bind_iff (by decide)).1 found
      simp only [pure_eq, bind_eq, read_bind_eq_some_iff, read_separated_iff, read_token,
        read_pure] at found
      obtain ⟨path, _, ⟨afterPath, ofPath, separator⟩, ⟨⟩⟩ := found
      exact .inclusion keyword ofPath separator

/-- What is spelled as a declaration is read by the rule for its kind. -/
theorem read_of_spellsDeclaration {declaration : Declaration}
    (spells : SpellsDeclaration room bytes declaration rest) :
    (formOf room declaration.kind).read bytes = some (declaration, rest) := by
  cases spells with
  | typedef keyword ofType shallow ofName separator =>
      have foundType := ofType.read shallow (noBracket_of_any_head? ofName.any_head?)
      refine (read_keyword_bind_iff (by decide)).2 ⟨_, keyword, ?_⟩
      simp only [bind_eq, pure_eq, read_bind_eq_some_iff, read_separated_iff, identifier,
        read_token, Token.read_identifier_iff, read_pure]
      exact ⟨_, _, foundType, _, _, ⟨_, ofName, separator⟩, rfl⟩
  | constant keyword ofType shallow ofName equals ofValue separator =>
      have foundType := ofType.read shallow (noBracket_of_any_head? ofName.any_head?)
      refine (read_keyword_bind_iff (by decide)).2 ⟨_, keyword, ?_⟩
      simp only [bind_eq, pure_eq, read_bind_eq_some_iff, read_separated_iff, identifier, mark,
        read_token, Token.read_identifier_iff, Token.read_mark_iff, read_value_iff, read_pure]
      exact ⟨_, _, foundType, _, _, ofName, (), _, equals, _, _, ⟨_, ofValue, separator⟩, rfl⟩
  | enumeration head opening ofItems closing separator =>
      obtain ⟨_, keyword, ofName⟩ := head
      refine (read_keyword_bind_iff (by decide)).2 ⟨_, keyword, ?_⟩
      simp only [bind_eq, pure_eq, read_bind_eq_some_iff, read_separated_iff, identifier, mark,
        read_token, Token.read_identifier_iff, Token.read_mark_iff, read_pure]
      exact ⟨_, _, ofName, (), _, opening, _, _, (read_items_iff closing).2 ofItems, (), _,
        ⟨_, closing, separator⟩, rfl⟩
  | struct head ofFields separator =>
      exact (read_structure_iff .struct fun name fields => ⟨.struct, name, fields⟩).2
        ⟨_, _, _, _, head, ofFields, separator, rfl⟩
  | union head ofFields separator =>
      exact (read_structure_iff .union fun name fields => ⟨.union, name, fields⟩).2
        ⟨_, _, _, _, head, ofFields, separator, rfl⟩
  | exception head ofFields separator =>
      exact (read_structure_iff .exception fun name fields => ⟨.exception, name, fields⟩).2
        ⟨_, _, _, _, head, ofFields, separator, rfl⟩
  | service head ofParent opening ofFunctions closing separator =>
      obtain ⟨_, keyword, ofName⟩ := head
      refine (read_keyword_bind_iff (by decide)).2 ⟨_, keyword, ?_⟩
      simp only [bind_eq, pure_eq, read_bind_eq_some_iff, read_separated_iff, identifier, mark,
        read_token, Token.read_identifier_iff, Token.read_mark_iff,
        read_optional_iff read_parent_iff, read_pure]
      refine ⟨_, _, ofName, _, _, ⟨ofParent, fun noParent => ?_⟩, (), _, opening, _, _,
        (read_functions_iff closing).2 ofFunctions, (), _, ⟨_, closing, separator⟩, rfl⟩
      subst noParent
      cases ofParent
      exact read_eq_none_of_stops wellFormed_parent not_nullable_parent
        (fun _ => isIdentifier_of_parent_opens) (opening.stops (by decide))
  | namespaceName keyword ofScope ofName separator =>
      refine (read_keyword_bind_iff (by decide)).2 ⟨_, keyword, ?_⟩
      simp only [bind_eq, pure_eq, read_bind_eq_some_iff, read_separated_iff, read_token,
        Token.read_scope_iff, read_dottedName_iff, read_pure]
      exact ⟨_, _, ofScope, _, _, ⟨_, ofName, separator⟩, rfl⟩
  | inclusion keyword ofPath separator =>
      refine (read_keyword_bind_iff (by decide)).2 ⟨_, keyword, ?_⟩
      simp only [pure_eq, bind_eq, read_bind_eq_some_iff, read_separated_iff, read_token,
        read_pure]
      exact ⟨_, _, ⟨_, ofPath, separator⟩, rfl⟩

/-- Reading a declaration means that the bytes spell it. -/
theorem read_declaration_iff {declaration : Declaration} :
    (Grammar.declaration room).read bytes = some (declaration, rest) ↔
      SpellsDeclaration room bytes declaration rest := by
  rw [read_declaration_iff_exists]
  constructor
  · rintro ⟨kind, found⟩
    exact spellsDeclaration_of_read found
  · intro spells
    exact ⟨declaration.kind, read_of_spellsDeclaration spells⟩

end Grammar

end ThriftIdl
