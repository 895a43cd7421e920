import ThriftIdl.Proofs.Document.WellFormed

/-!
# The limit on nesting only refuses

A source that can be read under some limit is read to the same document under every larger one.

A refusal is a failure like any other, so a choice may go on to its next alternative after one, and
an option or a repetition may take it for the end of what there was to read. None of this makes a
difference, as the spelling of each part shows: it determines what stands where without any order of
attempts, and the limit enters it only as a bound on the depth of types and values.
-/

namespace ThriftIdl

open Rule

variable {room larger : Nat} {bytes rest : List UInt8}

/-! ### Values -/

/-- What is read inside a value nests less deep than the value. -/
theorem SpellsForm.imp {item other : Value → List UInt8 → List UInt8 → Prop} {value : Value}
    (weaker : ∀ {inner bytes rest}, inner.depth < value.depth → item inner bytes rest →
      other inner bytes rest)
    (spells : SpellsForm item value bytes rest) : SpellsForm other value bytes rest := by
  cases spells with
  | number found => exact .number found
  | string found => exact .string found
  | trueWord word => exact .trueWord word
  | falseWord word => exact .falseWord word
  | list opening spellsItems closing =>
      refine .list opening (spellsItems.imp_of_mem ?_) closing
      rintro bytes rest item mem ⟨middle, ofItem, separator⟩
      have shallower := Nat.lt_succ_of_le (Value.depth_le_depthOfItems mem)
      exact ⟨middle, weaker shallower ofItem, separator⟩
  | map opening spellsEntries closing =>
      refine .map opening (spellsEntries.imp_of_mem ?_) closing
      rintro bytes rest entry mem
        ⟨middle, ⟨afterKey, afterColon, ofKey, colon, ofValue⟩, separator⟩
      rcases Value.depth_le_depthOfEntries mem with ⟨key, mapped⟩
      exact ⟨middle, ⟨afterKey, afterColon, weaker (Nat.lt_succ_of_le key) ofKey, colon,
        weaker (Nat.lt_succ_of_le mapped) ofValue⟩, separator⟩
  | reference spells notNumber notTrue notFalse =>
      exact .reference spells notNumber notTrue notFalse

theorem SpellsValue.mono (le : room ≤ larger) {value : Value}
    (spells : SpellsValue room value bytes rest) : SpellsValue larger value bytes rest := by
  induction room generalizing larger value bytes rest with
  | zero => cases spells
  | succ room ih =>
      obtain ⟨larger, rfl⟩ := Nat.exists_eq_add_of_le' (Nat.le_trans (Nat.succ_pos room) le)
      exact SpellsForm.imp (fun _ inside => ih (Nat.le_of_succ_le_succ le) inside) spells

/-! ### Fields and functions -/

theorem SpellsOption.imp {α : Type} {spells other : α → List UInt8 → List UInt8 → Prop}
    (weaker : ∀ {part bytes rest}, spells part bytes rest → other part bytes rest)
    {part : Option α} (ofPart : SpellsOption spells part bytes rest) :
    SpellsOption other part bytes rest := by
  cases ofPart with
  | absent => exact .absent bytes
  | present ofPart => exact .present (weaker ofPart)

theorem SpellsField.mono (le : room ≤ larger) {field : Field}
    (spells : SpellsField room bytes field rest) : SpellsField larger bytes field rest := by
  obtain ⟨ofId, ofRequiredness, noWord, ofType, shallow, ofName, ofDefault, separator⟩ := spells
  refine .intro ofId ofRequiredness noWord ofType (shallow.trans le) ofName
    (ofDefault.imp fun assigned => ?_) separator
  obtain ⟨middle, equals, ofValue⟩ := assigned
  exact ⟨middle, equals, ofValue.mono le⟩

theorem SpellsFields.mono (le : room ≤ larger) {opening closing : UInt8} {fields : List Field}
    (spells : SpellsFields room opening closing fields bytes rest) :
    SpellsFields larger opening closing fields bytes rest := by
  obtain ⟨inside, last, ofOpening, ofFields, ofClosing⟩ := spells
  exact ⟨inside, last, ofOpening, ofFields.imp fun _ _ _ ofField => ofField.mono le, ofClosing⟩

theorem SpellsThrows.mono (le : room ≤ larger) {exceptions : List Field}
    (spells : SpellsThrows room exceptions bytes rest) :
    SpellsThrows larger exceptions bytes rest := by
  obtain ⟨middle, throws, ofFields⟩ := spells
  exact ⟨middle, throws, ofFields.mono le⟩

theorem SpellsFunction.mono (le : room ≤ larger) {function : Function}
    (spells : SpellsFunction room bytes function rest) :
    SpellsFunction larger bytes function rest := by
  obtain ⟨ofOneway, noWord, ofType, shallow, ofName, ofArguments, ofThrows, separator⟩ := spells
  exact .intro ofOneway noWord ofType (shallow.trans le) ofName (ofArguments.mono le)
    (ofThrows.imp fun throws => throws.mono le) separator

/-! ### Declarations and documents -/

theorem SpellsDeclaration.mono (le : room ≤ larger) {declaration : Declaration}
    (spells : SpellsDeclaration room bytes declaration rest) :
    SpellsDeclaration larger bytes declaration rest := by
  cases spells with
  | typedef keyword ofType shallow ofName separator =>
      exact .typedef keyword ofType (shallow.trans le) ofName separator
  | constant keyword ofType shallow ofName equals ofValue separator =>
      exact .constant keyword ofType (shallow.trans le) ofName equals (ofValue.mono le) separator
  | enumeration head opening ofItems closing separator =>
      exact .enumeration head opening ofItems closing separator
  | struct head ofFields separator => exact .struct head (ofFields.mono le) separator
  | union head ofFields separator => exact .union head (ofFields.mono le) separator
  | exception head ofFields separator => exact .exception head (ofFields.mono le) separator
  | service head ofParent opening ofFunctions closing separator =>
      exact .service head ofParent opening
        (ofFunctions.imp fun _ _ _ ofFunction => ofFunction.mono le) closing separator
  | namespaceName keyword ofScope ofName separator =>
      exact .namespaceName keyword ofScope ofName separator
  | inclusion keyword ofPath separator => exact .inclusion keyword ofPath separator

namespace Document

/--
The document of a source from an offset on, or why it cannot be read, if values and types may nest
that many levels.
-/
def parseWithin (room : Nat) (source : String) (offset : Nat) : Except ParseError Document :=
  (Reading.ofStateWithin room (State.startAt (Utf8.encode source) offset)).document

theorem parseFrom_eq_parseWithin (source : String) (offset : Nat) :
    parseFrom source offset = parseWithin Grammar.maxNesting source offset := rfl

/-- Under a larger limit, every source that could be read is read to the same document. -/
theorem parseWithin_mono (le : room ≤ larger) {source : String} {offset : Nat}
    {document : Document} (parsed : parseWithin room source offset = .ok document) :
    parseWithin larger source offset = .ok document := by
  obtain ⟨declarations, declares, isFold⟩ := Reading.document_ofStateWithin_eq_ok_iff.1 parsed
  refine Reading.document_ofStateWithin_eq_ok_iff.2 ⟨declarations, ?_, isFold⟩
  refine declares.imp fun bytes declaration rest found => ?_
  exact Grammar.read_declaration_iff.2 ((Grammar.read_declaration_iff.1 found).mono le)

/--
At a limit of two levels, the items inside the brackets are refused, and the repetition takes the
refusal for its end.
-/
theorem parseWithin_mono_brackets :
    2 ≤ 64 ∧ parseWithin 2 "const list<i32> A = [[]]" 0 = .ok (ofList
      [⟨.constant, "A", { type := .list (.named "i32"), value := .list [.list []] }⟩]) ∧
    parseWithin 64 "const list<i32> A = [[]]" 0 = .ok (ofList
      [⟨.constant, "A", { type := .list (.named "i32"), value := .list [.list []] }⟩]) := by
  have parsed : parseWithin 2 "const list<i32> A = [[]]" 0 = .ok (ofList
      [⟨.constant, "A", { type := .list (.named "i32"), value := .list [.list []] }⟩]) := by
    decide +kernel
  have le : 2 ≤ 64 := by decide
  exact ⟨le, parsed, parseWithin_mono le parsed⟩

end Document

end ThriftIdl
