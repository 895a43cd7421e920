import ThriftIdl.Proofs.Document.Fold
import ThriftIdl.Proofs.Grammar.Declarations
import ThriftIdl.Proofs.Reading.Success

/-!
# Well-formed documents

What the grammar promises of all that is read with it: names are made of the bytes of names, a word
that would have been read as a keyword is no type, and types and values nest no deeper than allowed.
Declarations that overwrite each other lose nothing of this, as a document holds nothing that was
not declared.
-/

namespace ThriftIdl

open Rule

namespace Value

mutual

/-- How many levels a value nests; a value without others inside is one level. -/
def depth : Value → Nat
  | .list items => depthOfItems items + 1
  | .map entries => depthOfEntries entries + 1
  | .int _ | .double _ | .string _ | .bool _ | .reference _ => 1

/-- How many levels the deepest of some values nests. -/
def depthOfItems : List Value → Nat
  | [] => 0
  | first :: others => max first.depth (depthOfItems others)

/-- How many levels the deepest key or value of some entries nests. -/
def depthOfEntries : List (Value × Value) → Nat
  | [] => 0
  | (key, value) :: others => max (max key.depth value.depth) (depthOfEntries others)

end

theorem depthOfItems_le {items : List Value} {room : Nat}
    (each : ∀ item ∈ items, item.depth ≤ room) : depthOfItems items ≤ room := by
  induction items with
  | nil => exact Nat.zero_le room
  | cons first others ih =>
      rcases List.forall_mem_cons.1 each with ⟨shallow, shallowOthers⟩
      exact max_le shallow (ih shallowOthers)

theorem depthOfEntries_le {entries : List (Value × Value)} {room : Nat}
    (each : ∀ entry ∈ entries, entry.1.depth ≤ room ∧ entry.2.depth ≤ room) :
    depthOfEntries entries ≤ room := by
  induction entries with
  | nil => exact Nat.zero_le room
  | cons first others ih =>
      rcases List.forall_mem_cons.1 each with ⟨⟨shallowKey, shallowValue⟩, shallowOthers⟩
      exact max_le (max_le shallowKey shallowValue) (ih shallowOthers)

theorem one_le_depth (value : Value) : 1 ≤ value.depth := by
  cases value <;> simp [depth]

theorem depth_le_depthOfItems {items : List Value} {item : Value} (mem : item ∈ items) :
    item.depth ≤ depthOfItems items := by
  induction mem with
  | head others => exact le_max_left _ _
  | tail first _ ih => exact ih.trans (le_max_right _ _)

theorem depth_le_depthOfEntries {entries : List (Value × Value)} {entry : Value × Value}
    (mem : entry ∈ entries) :
    entry.1.depth ≤ depthOfEntries entries ∧ entry.2.depth ≤ depthOfEntries entries := by
  induction mem with
  | head others =>
      exact ⟨(le_max_left _ _).trans (le_max_left _ _),
        (le_max_right _ _).trans (le_max_left _ _)⟩
  | tail first _ ih => exact ⟨ih.1.trans (le_max_right _ _), ih.2.trans (le_max_right _ _)⟩

/-- Whether every reference in a value has segments, and all of them can be names. -/
inductive WellNamed : Value → Prop where
  | int (number : Int64) : WellNamed (.int number)
  | double (number : Binary64) : WellNamed (.double number)
  | string (text : String) : WellNamed (.string text)
  | bool (truth : Bool) : WellNamed (.bool truth)
  | list {items : List Value} (each : ∀ item ∈ items, WellNamed item) : WellNamed (.list items)
  | map {entries : List (Value × Value)} (keys : ∀ entry ∈ entries, WellNamed entry.1)
      (values : ∀ entry ∈ entries, WellNamed entry.2) : WellNamed (.map entries)
  | reference {segments : List String} (notEmpty : segments ≠ [])
      (names : ∀ segment ∈ segments, IsName segment) : WellNamed (.reference segments)

end Value

/-! ### What well-formed means -/

structure FieldType.WellFormed (room : Nat) (type : FieldType) : Prop where
  wellNamed : type.WellNamed
  shallow : type.depth ≤ room

structure Value.WellFormed (room : Nat) (value : Value) : Prop where
  wellNamed : value.WellNamed
  shallow : value.depth ≤ room

structure Field.WellFormed (room : Nat) (field : Field) : Prop where
  name : IsName field.name
  type : field.type.WellFormed room
  /-- The word of a requiredness is read as such where there is none, never as a type. -/
  noWord : field.requiredness = none → field.type ≠ .named "required" ∧
    field.type ≠ .named "optional"
  defaultValue : ∀ value ∈ field.defaultValue, value.WellFormed room

structure Function.WellFormed (room : Nat) (function : Function) : Prop where
  name : IsName function.name
  resultType : function.resultType.WellFormed room
  noWord : function.oneway = false → function.resultType ≠ .named "oneway"
  arguments : ∀ field ∈ function.arguments, field.WellFormed room
  exceptions : ∀ field ∈ function.exceptions, field.WellFormed room

structure Service.WellFormed (room : Nat) (service : Service) : Prop where
  parent : ∀ name ∈ service.parent, IsName name
  keys : ∀ entry ∈ service.functions.entries, entry.1 = entry.2.name
  functions : ∀ entry ∈ service.functions.entries, entry.2.WellFormed room

/-- What is promised of the name and the body of a declaration, by its kind. -/
def Declaration.WellFormed (room : Nat) : Declaration → Prop
  | ⟨.typedef, name, type⟩ => IsName name ∧ type.WellFormed room
  | ⟨.constant, name, constant⟩ =>
    IsName name ∧ constant.type.WellFormed room ∧ constant.value.WellFormed room
  | ⟨.enumeration, name, items⟩ => IsName name ∧ ∀ item ∈ items, IsName item.name
  | ⟨.struct, name, fields⟩ | ⟨.union, name, fields⟩ | ⟨.exception, name, fields⟩ =>
    IsName name ∧ ∀ field ∈ fields, field.WellFormed room
  | ⟨.service, name, service⟩ => IsName name ∧ service.WellFormed room
  | ⟨.namespaceName, scope, name⟩ => IsWord Byte.isScope scope ∧ IsName name
  | ⟨.inclusion, name, path⟩ => name = Grammar.nameOfPath path

/-- Whether everything in a document is what is promised of it. -/
def Document.WellFormed (room : Nat) (document : Document) : Prop :=
  ∀ kind, ∀ entry ∈ (document.table kind).entries,
    Declaration.WellFormed room ⟨kind, entry.1, entry.2⟩

/-! ### What is read is well-formed -/

variable {room : Nat} {bytes rest : List UInt8}

theorem SpellsType.wellFormed {type : FieldType} (spells : SpellsType type bytes rest)
    (shallow : type.depth ≤ room) : type.WellFormed room :=
  ⟨spells.wellNamed, shallow⟩

theorem SpellsValue.wellFormed {value : Value} (spells : SpellsValue room value bytes rest) :
    value.WellFormed room := by
  -- the values inside have one level less, so the induction is on the levels
  induction room generalizing value bytes rest with
  | zero => exact spells.elim
  | succ room ih =>
      have flat : 1 ≤ room + 1 := Nat.le_add_left 1 room
      cases spells with
      | number found =>
          rcases eq_int_or_eq_double_of_read_number found with ⟨number, rfl⟩ | ⟨number, rfl⟩
          · exact ⟨.int number, flat⟩
          · exact ⟨.double number, flat⟩
      | string _ => exact ⟨.string _, flat⟩
      | trueWord _ => exact ⟨.bool true, flat⟩
      | falseWord _ => exact ⟨.bool false, flat⟩
      | @list items _ _ _ _ _ spellsItems _ =>
          have each : ∀ item ∈ items, item.WellFormed room := by
            intro item mem
            rcases spellsItems.exists_step mem with ⟨_, _, _, ofItem, _⟩
            exact ih ofItem
          constructor
          · exact .list fun item mem => (each item mem).wellNamed
          · exact Nat.succ_le_succ
              (Value.depthOfItems_le fun item mem => (each item mem).shallow)
      | @map entries _ _ _ _ _ spellsEntries _ =>
          have each : ∀ entry ∈ entries, entry.1.WellFormed room ∧ entry.2.WellFormed room := by
            intro entry mem
            rcases spellsEntries.exists_step mem with ⟨_, _, _, ⟨_, _, ofKey, _, ofValue⟩, _⟩
            exact ⟨ih ofKey, ih ofValue⟩
          constructor
          · apply Value.WellNamed.map
            · exact fun entry mem => (each entry mem).1.wellNamed
            · exact fun entry mem => (each entry mem).2.wellNamed
          · apply Nat.succ_le_succ
            apply Value.depthOfEntries_le
            exact fun entry mem => ⟨(each entry mem).1.shallow, (each entry mem).2.shallow⟩
      | reference spells _ _ _ =>
          exact ⟨.reference spells.ne_nil (isName_of_spellsReference spells), flat⟩

theorem SpellsField.wellFormed {field : Field} (spells : SpellsField room bytes field rest) :
    field.WellFormed room := by
  cases spells with
  | intro ofId ofRequiredness noWord ofType shallow ofName ofDefault separator =>
      refine ⟨ofName.1, ofType.wellFormed shallow, ?_, ?_⟩
      · intro absent
        exact ⟨noWord absent .required, noWord absent .optional⟩
      · intro value mem
        cases ofDefault with
        | absent => cases mem
        | present ofPart =>
            rcases ofPart with ⟨_, _, ofValue⟩
            cases mem
            exact ofValue.wellFormed

theorem SpellsFields.wellFormed {opening closing : UInt8} {fields : List Field}
    (spells : SpellsFields room opening closing fields bytes rest) :
    ∀ field ∈ fields, field.WellFormed room := by
  rcases spells with ⟨_, _, _, repeats, _⟩
  intro field mem
  rcases repeats.exists_step mem with ⟨_, _, ofField⟩
  exact ofField.wellFormed

theorem SpellsFunction.wellFormed {function : Function}
    (spells : SpellsFunction room bytes function rest) : function.WellFormed room := by
  cases spells with
  | intro ofOneway noWord ofType shallow ofName ofArguments ofThrows separator =>
      refine ⟨ofName.1, ofType.wellFormed shallow, ?_, ofArguments.wellFormed, ?_⟩
      · intro notOneway
        exact noWord (Option.isNone_iff_eq_none.1 (by simpa using notOneway))
      · cases ofThrows with
        | absent => simp
        | present ofPart =>
            rcases ofPart with ⟨_, _, ofFields⟩
            exact ofFields.wellFormed

/-- A service keeps each function under its own name. -/
theorem wellFormed_service {parent : Option String} {functions : List Function}
    {afterHead afterParent inside last : List UInt8}
    (ofParent : SpellsOption SpellsParent parent afterHead afterParent)
    (ofFunctions : Repeats (SpellsFunction room) inside functions last) :
    Service.WellFormed room { parent, functions := Table.ofList Function.name functions } := by
  constructor
  · intro name mem
    cases ofParent with
    | absent => cases mem
    | present ofPart =>
        rcases ofPart with ⟨_, _, ofName⟩
        cases mem
        exact ofName.isName
  · intro entry mem
    exact (Table.mem_ofList mem).1
  · intro entry mem
    rcases ofFunctions.exists_step (Table.mem_ofList mem).2 with ⟨_, _, ofFunction⟩
    exact ofFunction.wellFormed

theorem SpellsHead.isName {kind : Kind} {name : String} (spells : SpellsHead kind name bytes rest) :
    IsName name := by
  rcases spells with ⟨_, _, ofName⟩
  exact ofName.1

theorem SpellsDeclaration.wellFormed {declaration : Declaration}
    (spells : SpellsDeclaration room bytes declaration rest) : declaration.WellFormed room := by
  cases spells with
  | typedef _ ofType shallow ofName _ => exact ⟨ofName.1, ofType.wellFormed shallow⟩
  | constant _ ofType shallow ofName _ ofValue _ =>
      exact ⟨ofName.1, ofType.wellFormed shallow, ofValue.wellFormed⟩
  | enumeration head _ ofItems _ _ =>
      refine ⟨head.isName, ?_⟩
      intro item mem
      rcases ofItems.exists_step mem with ⟨_, _, ⟨ofName, _, _⟩⟩
      exact ofName.1
  | struct head ofFields _ => exact ⟨head.isName, ofFields.wellFormed⟩
  | union head ofFields _ => exact ⟨head.isName, ofFields.wellFormed⟩
  | exception head ofFields _ => exact ⟨head.isName, ofFields.wellFormed⟩
  | service head ofParent _ ofFunctions _ _ =>
      exact ⟨head.isName, wellFormed_service ofParent ofFunctions⟩
  | namespaceName _ ofScope ofName _ => exact ⟨ofScope.1, ofName.isName⟩
  | inclusion _ _ _ => exact rfl

namespace Document

/-- What was declared in a well-formed way is found in a document in the same way. -/
theorem wellFormed_ofList {declarations : List Declaration}
    (each : ∀ declaration ∈ declarations, declaration.WellFormed room) :
    (ofList declarations).WellFormed room := by
  intro kind entry mem
  apply each
  apply mem_of_mem_declarations
  exact List.mem_flatMap.2 ⟨kind, kind.mem_all, List.mem_map_of_mem mem⟩

/-- Everything in a document that was read from any place of a source on is well-formed. -/
theorem wellFormed_of_parseFrom {source : String} {offset : Nat} {document : Document}
    (parsed : parseFrom source offset = .ok document) : document.WellFormed 64 := by
  rcases Reading.document_ofStateWithin_eq_ok_iff.1 parsed with ⟨declarations, repeats, rfl⟩
  apply wellFormed_ofList
  intro declaration mem
  rcases repeats.exists_step mem with ⟨bytes, rest, found⟩
  exact (Grammar.read_declaration_iff.1 found).wellFormed

/-- A service whose function has a requiredness for a type and references in a default value. -/
theorem wellFormed_of_parseFrom_service :
    ∃ document, parseFrom
        "service S extends a . b \x7brequired f(1: 0x1f.c x = [e.f, \x7bg . h: 1\x7d])\x7d" 0 =
          .ok document ∧ document.WellFormed 64 := by
  generalize attempt : parseFrom
    "service S extends a . b \x7brequired f(1: 0x1f.c x = [e.f, \x7bg . h: 1\x7d])\x7d" 0 = result
  cases result with
  | ok document => exact ⟨document, rfl, wellFormed_of_parseFrom attempt⟩
  | error error =>
      have read : none ≠ (parseFrom
        "service S extends a . b \x7brequired f(1: 0x1f.c x = [e.f, \x7bg . h: 1\x7d])\x7d"
        0).toOption := by decide +kernel
      rw [attempt] at read
      exact absurd rfl read

end Document

end ThriftIdl
