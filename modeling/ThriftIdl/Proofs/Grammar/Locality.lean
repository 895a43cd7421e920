import ThriftIdl.Proofs.Grammar.Extension

/-!
# Declarations in front of more text

The values, fields and functions of a declaration end before a new line does, so declarations keep
their spelling in front of any quiet text. Only a value or a dotted name could take a dot along, and
such a dot would have to be the last token of the source: no declaration begins with one.
-/

namespace ThriftIdl

open Rule

variable {more bytes rest : List UInt8} {room : Nat}

/-! ### Values -/

/-- The items between two brackets or braces are extended one by one. -/
theorem extend_items {α : Type} {rule : Rule α} (wellFormed : rule.WellFormed)
    {spells : α → List UInt8 → List UInt8 → Prop}
    (known : ∀ {part : α} {bytes rest : List UInt8},
      rule.read bytes = some (part, rest) ↔ spells part bytes rest)
    (extends_part : ∀ {part : α} {bytes rest : List UInt8}, spells part bytes rest →
      ¬Dangling rest → Gap.CommentsClosed bytes → Extends more (spells part) bytes rest)
    (quiet : Quiet more) {items : List α} {closing : UInt8} {last : List UInt8}
    (spelled : Repeats (Separated spells) bytes items last) (ends : SpellsMark closing last rest)
    (notDot : closing ≠ Byte.dot) (closed : Gap.CommentsClosed bytes) :
    Extends more (Repeats (Separated spells) · items ·) bytes last := by
  refine spelled.extend (fun rest => ¬Spent rest) ?_ ?_ (not_spent_of_mark ends notDot) closed
  · rintro bytes item rest ⟨middle, ofItem, separator⟩ notSpent
    exact not_spent_of_read wellFormed (known.2 ofItem) (separator.not_spent notSpent)
  · rintro bytes item rest ⟨middle, ofItem, separator⟩ notSpent closed
    have notDangling : ¬Dangling middle := fun dangling =>
      separator.not_spent notSpent (.inr dangling)
    obtain ⟨ofItem, closed⟩ := extends_part ofItem notDangling closed
    obtain ⟨separator, closed⟩ := separator.extend quiet closed
    exact ⟨⟨_, ofItem, separator⟩, closed⟩

theorem SpellsMark.not_dangling {byte : UInt8} (mark : SpellsMark byte bytes rest)
    (notDot : byte ≠ Byte.dot) : ¬Dangling bytes := fun dangling =>
  not_spent_of_mark mark notDot (.inr dangling)

/-- A value without a dangling dot behind it is extended. -/
theorem SpellsValue.extend {value : Value} (quiet : Quiet more)
    (spells : SpellsValue room value bytes rest) (notDangling : ¬Dangling rest)
    (closed : Gap.CommentsClosed bytes) : Extends more (SpellsValue room value) bytes rest := by
  induction room generalizing value bytes rest with
  | zero => exact spells.elim
  | succ room ih =>
      cases spells with
      | number found =>
          exact ⟨.number (Grammar.lexical_number.read_extend Grammar.wellFormed_number
            Grammar.not_nullable_number closed found),
            closed_of_read Grammar.wellFormed_number closed found⟩
      | string found =>
          obtain ⟨found, closed⟩ := Token.extends_read rfl closed found
          exact ⟨.string found, closed⟩
      | trueWord word =>
          obtain ⟨word, closed⟩ := word.extend closed
          exact ⟨.trueWord word, closed⟩
      | falseWord word =>
          obtain ⟨word, closed⟩ := word.extend closed
          exact ⟨.falseWord word, closed⟩
      | list opening ofItems closing =>
          obtain ⟨opening, closed⟩ := opening.extend closed
          obtain ⟨ofItems, closed⟩ := extend_items (Grammar.wellFormed_value room) read_value_iff
            ih quiet ofItems closing (by decide) closed
          obtain ⟨closing, closed⟩ := closing.extend closed
          exact ⟨.list opening ofItems closing, closed⟩
      | map opening ofEntries closing =>
          have extends_entry : ∀ {entry : Value × Value} {bytes rest : List UInt8},
              SpellsEntry (SpellsValue room) entry bytes rest → ¬Dangling rest →
                Gap.CommentsClosed bytes →
                  Extends more (SpellsEntry (SpellsValue room) entry) bytes rest := by
            rintro entry bytes rest ⟨afterKey, afterColon, ofKey, colon, ofValue⟩ notDangling closed
            obtain ⟨ofKey, closed⟩ := ih ofKey (colon.not_dangling (by decide)) closed
            obtain ⟨colon, closed⟩ := colon.extend closed
            obtain ⟨ofValue, closed⟩ := ih ofValue notDangling closed
            exact ⟨⟨_, _, ofKey, colon, ofValue⟩, closed⟩
          have wellFormed := Grammar.wellFormed_entryOf room
          obtain ⟨opening, closed⟩ := opening.extend closed
          obtain ⟨ofEntries, closed⟩ := extend_items wellFormed read_entry_iff extends_entry quiet
            ofEntries closing (by decide) closed
          obtain ⟨closing, closed⟩ := closing.extend closed
          exact ⟨.map opening ofEntries closing, closed⟩
      | reference spelled notNumber notTrue notFalse =>
          have notEmpty : bytes ≠ [] := by
            rintro rfl
            cases spelled.any_head?
          have notNumberLater : Grammar.number.read (ThriftIdl.extend more bytes) = none :=
            Grammar.lexical_number.read_extend_eq_none notEmpty notNumber
          obtain ⟨spelled, closed⟩ := spelled.extend quiet notDangling closed
          exact ⟨.reference spelled notNumberLater notTrue notFalse, closed⟩

/-! ### Fields -/

theorem SpellsId.extend {id : Int64} (spells : SpellsId id bytes rest)
    (closed : Gap.CommentsClosed bytes) : Extends more (SpellsId id) bytes rest := by
  obtain ⟨middle, found, colon⟩ := spells
  have closedMiddle := closed_of_read Grammar.wellFormed_integer closed found
  obtain ⟨colon, closedRest⟩ := colon.extend closedMiddle
  exact ⟨⟨_, Grammar.lexical_integer.read_extend Grammar.wellFormed_integer
    Grammar.not_nullable_integer closed found, colon⟩, closedRest⟩

theorem Assigned.extend {α : Type} {spells : α → List UInt8 → List UInt8 → Prop} {part : α}
    (assigned : Assigned spells part bytes rest)
    (ofPart : ∀ {bytes}, spells part bytes rest → Gap.CommentsClosed bytes →
      Extends more (spells part) bytes rest)
    (closed : Gap.CommentsClosed bytes) : Extends more (Assigned spells part) bytes rest := by
  obtain ⟨middle, equals, spelled⟩ := assigned
  obtain ⟨equals, closed⟩ := equals.extend closed
  obtain ⟨spelled, closed⟩ := ofPart spelled closed
  exact ⟨⟨_, equals, spelled⟩, closed⟩

theorem SpellsField.extend {field : Field} (quiet : Quiet more)
    (spells : SpellsField room bytes field rest) (notDangling : ¬Dangling rest)
    (closed : Gap.CommentsClosed bytes) :
    Extends more (SpellsField room · field ·) bytes rest := by
  obtain ⟨ofId, ofRequiredness, noWord, ofType, shallow, ofName, ofDefault, separator⟩ := spells
  obtain ⟨ofId, closed⟩ := ofId.extend (fun _ spelled => spelled.extend closed) closed
  obtain ⟨ofRequiredness, closed⟩ :=
    ofRequiredness.extend (fun _ spelled => SpellsName.extend spelled closed) closed
  obtain ⟨ofType, closed⟩ := ofType.extend quiet closed
  obtain ⟨ofName, closed⟩ := ofName.extend closed
  obtain ⟨ofDefault, closed⟩ := ofDefault.extend (fun _ assigned =>
    assigned.extend (fun spelled => spelled.extend quiet (separator.not_dangling notDangling))
      closed) closed
  obtain ⟨separator, closed⟩ := separator.extend quiet closed
  exact ⟨.intro ofId ofRequiredness noWord ofType shallow ofName ofDefault separator, closed⟩

theorem SpellsFields.extend {opening closing : UInt8} {fields : List Field} (quiet : Quiet more)
    (notEquals : (closing == Byte.equals) = false) (notDot : closing ≠ Byte.dot)
    (spells : SpellsFields room opening closing fields bytes rest)
    (closed : Gap.CommentsClosed bytes) :
    Extends more (SpellsFields room opening closing fields) bytes rest := by
  obtain ⟨inside, last, ofOpening, ofFields, ofClosing⟩ := spells
  obtain ⟨ofOpening, closed⟩ := ofOpening.extend closed
  have ends : ¬Spent last ∧ NoEquals last :=
    ⟨not_spent_of_mark ofClosing notDot, ofClosing.stops notEquals⟩
  have starts : ∀ bytes field rest, SpellsField room bytes field rest →
      ¬Spent rest ∧ NoEquals rest → ¬Spent bytes ∧ NoEquals bytes := by
    rintro bytes field rest ofField ⟨notSpent, noEquals⟩
    exact ⟨not_spent_of_read (Grammar.wellFormed_field room) (ofField.read noEquals) notSpent,
      ofField.noEquals⟩
  obtain ⟨ofFields, closed⟩ := ofFields.extend (fun rest => ¬Spent rest ∧ NoEquals rest) starts
    (fun ofField follows => ofField.extend quiet fun dangling => follows.1 (.inr dangling))
    ends closed
  obtain ⟨ofClosing, closed⟩ := ofClosing.extend closed
  exact ⟨⟨_, _, ofOpening, ofFields, ofClosing⟩, closed⟩

theorem SpellsFields.extend_braced {fields : List Field} (quiet : Quiet more)
    (spells : SpellsFields room Byte.openBrace Byte.closeBrace fields bytes rest)
    (closed : Gap.CommentsClosed bytes) :
    Extends more (SpellsFields room Byte.openBrace Byte.closeBrace fields) bytes rest :=
  spells.extend quiet (by decide) (by decide) closed

theorem SpellsFields.extend_parenthesized {fields : List Field} (quiet : Quiet more)
    (spells : SpellsFields room Byte.openParenthesis Byte.closeParenthesis fields bytes rest)
    (closed : Gap.CommentsClosed bytes) :
    Extends more (SpellsFields room Byte.openParenthesis Byte.closeParenthesis fields)
      bytes rest :=
  spells.extend quiet (by decide) (by decide) closed

/-! ### Items and functions -/

theorem SpellsItem.extend {item : EnumItem} (quiet : Quiet more)
    (spells : SpellsItem bytes item rest) (closed : Gap.CommentsClosed bytes) :
    Extends more (SpellsItem · item ·) bytes rest := by
  obtain ⟨ofName, ofValue, separator⟩ := spells
  obtain ⟨ofName, closed⟩ := ofName.extend closed
  obtain ⟨ofValue, closed⟩ := ofValue.extend (fun _ assigned =>
    assigned.extend (fun found closed =>
      ⟨Grammar.lexical_integer.read_extend Grammar.wellFormed_integer Grammar.not_nullable_integer
        closed found, closed_of_read Grammar.wellFormed_integer closed found⟩) closed) closed
  obtain ⟨separator, closed⟩ := separator.extend quiet closed
  exact ⟨.intro ofName ofValue separator, closed⟩

theorem SpellsThrows.extend {thrown : List Field} (quiet : Quiet more)
    (spells : SpellsThrows room thrown bytes rest) (closed : Gap.CommentsClosed bytes) :
    Extends more (SpellsThrows room thrown) bytes rest := by
  obtain ⟨middle, word, ofFields⟩ := spells
  obtain ⟨word, closed⟩ := word.extend closed
  obtain ⟨ofFields, closed⟩ := ofFields.extend_parenthesized quiet closed
  exact ⟨⟨_, word, ofFields⟩, closed⟩

theorem SpellsKeyword.extend {word text : String} (spells : SpellsKeyword word text bytes rest)
    (closed : Gap.CommentsClosed bytes) : Extends more (SpellsKeyword word text) bytes rest := by
  obtain ⟨same, spelled⟩ := spells
  obtain ⟨spelled, closed⟩ := spelled.extend closed
  exact ⟨⟨same, spelled⟩, closed⟩

theorem SpellsFunction.extend {function : Function} (quiet : Quiet more)
    (spells : SpellsFunction room bytes function rest) (closed : Gap.CommentsClosed bytes) :
    Extends more (SpellsFunction room · function ·) bytes rest := by
  obtain ⟨ofOneway, noWord, ofType, shallow, ofName, ofArguments, ofThrows, separator⟩ := spells
  obtain ⟨ofOneway, closed⟩ := ofOneway.extend (fun _ spelled => spelled.extend closed) closed
  obtain ⟨ofType, closed⟩ := ofType.extend quiet closed
  obtain ⟨ofName, closed⟩ := ofName.extend closed
  obtain ⟨ofArguments, closed⟩ := ofArguments.extend_parenthesized quiet closed
  obtain ⟨ofThrows, closed⟩ :=
    ofThrows.extend (fun _ spelled => spelled.extend quiet closed) closed
  obtain ⟨separator, closed⟩ := separator.extend quiet closed
  exact ⟨.intro ofOneway noWord ofType shallow ofName ofArguments ofThrows separator, closed⟩

/-! ### Declarations -/

theorem SpellsDottedName.extend {name : String} (quiet : Quiet more)
    (spells : SpellsDottedName name bytes rest) (notDangling : ¬Dangling rest)
    (closed : Gap.CommentsClosed bytes) : Extends more (SpellsDottedName name) bytes rest := by
  obtain ⟨segments, ofSegments, joined⟩ := spells
  obtain ⟨ofSegments, closed⟩ := ofSegments.extend quiet notDangling closed
  exact ⟨⟨segments, ofSegments, joined⟩, closed⟩

theorem SpellsParent.extend {name : String} (quiet : Quiet more)
    (spells : SpellsParent name bytes rest) (notDangling : ¬Dangling rest)
    (closed : Gap.CommentsClosed bytes) : Extends more (SpellsParent name) bytes rest := by
  obtain ⟨middle, word, ofName⟩ := spells
  obtain ⟨word, closed⟩ := word.extend closed
  obtain ⟨ofName, closed⟩ := ofName.extend quiet notDangling closed
  exact ⟨⟨_, word, ofName⟩, closed⟩

theorem SpellsHead.extend {kind : Kind} {name : String} (spells : SpellsHead kind name bytes rest)
    (closed : Gap.CommentsClosed bytes) : Extends more (SpellsHead kind name) bytes rest := by
  obtain ⟨middle, keyword, ofName⟩ := spells
  obtain ⟨keyword, closed⟩ := keyword.extend closed
  obtain ⟨ofName, closed⟩ := ofName.extend closed
  exact ⟨⟨_, keyword, ofName⟩, closed⟩

/-- A declaration without a dangling dot behind it is extended. -/
theorem SpellsDeclaration.extend {declaration : Declaration} (quiet : Quiet more)
    (spells : SpellsDeclaration room bytes declaration rest) (notDangling : ¬Dangling rest)
    (closed : Gap.CommentsClosed bytes) :
    Extends more (SpellsDeclaration room · declaration ·) bytes rest := by
  cases spells with
  | typedef keyword ofType shallow ofName separator =>
      obtain ⟨keyword, closed⟩ := keyword.extend closed
      obtain ⟨ofType, closed⟩ := ofType.extend quiet closed
      obtain ⟨ofName, closed⟩ := ofName.extend closed
      obtain ⟨separator, closed⟩ := separator.extend quiet closed
      exact ⟨.typedef keyword ofType shallow ofName separator, closed⟩
  | constant keyword ofType shallow ofName equals ofValue separator =>
      obtain ⟨keyword, closed⟩ := keyword.extend closed
      obtain ⟨ofType, closed⟩ := ofType.extend quiet closed
      obtain ⟨ofName, closed⟩ := ofName.extend closed
      obtain ⟨equals, closed⟩ := equals.extend closed
      obtain ⟨ofValue, closed⟩ :=
        ofValue.extend quiet (separator.not_dangling notDangling) closed
      obtain ⟨separator, closed⟩ := separator.extend quiet closed
      exact ⟨.constant keyword ofType shallow ofName equals ofValue separator, closed⟩
  | enumeration head opening ofItems closing separator =>
      obtain ⟨head, closed⟩ := head.extend closed
      obtain ⟨opening, closed⟩ := opening.extend closed
      obtain ⟨ofItems, closed⟩ := ofItems.extend (fun _ => True) (fun _ _ _ _ _ => trivial)
        (fun ofItem _ => ofItem.extend quiet) trivial closed
      obtain ⟨closing, closed⟩ := closing.extend closed
      obtain ⟨separator, closed⟩ := separator.extend quiet closed
      exact ⟨.enumeration head opening ofItems closing separator, closed⟩
  | struct head ofFields separator =>
      obtain ⟨head, closed⟩ := head.extend closed
      obtain ⟨ofFields, closed⟩ := ofFields.extend_braced quiet closed
      obtain ⟨separator, closed⟩ := separator.extend quiet closed
      exact ⟨.struct head ofFields separator, closed⟩
  | union head ofFields separator =>
      obtain ⟨head, closed⟩ := head.extend closed
      obtain ⟨ofFields, closed⟩ := ofFields.extend_braced quiet closed
      obtain ⟨separator, closed⟩ := separator.extend quiet closed
      exact ⟨.union head ofFields separator, closed⟩
  | exception head ofFields separator =>
      obtain ⟨head, closed⟩ := head.extend closed
      obtain ⟨ofFields, closed⟩ := ofFields.extend_braced quiet closed
      obtain ⟨separator, closed⟩ := separator.extend quiet closed
      exact ⟨.exception head ofFields separator, closed⟩
  | service head ofParent opening ofFunctions closing separator =>
      obtain ⟨head, closed⟩ := head.extend closed
      obtain ⟨ofParent, closed⟩ := ofParent.extend (fun _ spelled =>
        spelled.extend quiet (opening.not_dangling (by decide)) closed) closed
      obtain ⟨opening, closed⟩ := opening.extend closed
      obtain ⟨ofFunctions, closed⟩ := ofFunctions.extend (fun _ => True)
        (fun _ _ _ _ _ => trivial) (fun ofFunction _ => ofFunction.extend quiet) trivial closed
      obtain ⟨closing, closed⟩ := closing.extend closed
      obtain ⟨separator, closed⟩ := separator.extend quiet closed
      exact ⟨.service head ofParent opening ofFunctions closing separator, closed⟩
  | namespaceName keyword ofScope ofName separator =>
      obtain ⟨keyword, closed⟩ := keyword.extend closed
      obtain ⟨ofScope, closed⟩ := ofScope.extend_scope closed
      obtain ⟨ofName, closed⟩ :=
        ofName.extend quiet (separator.not_dangling notDangling) closed
      obtain ⟨separator, closed⟩ := separator.extend quiet closed
      exact ⟨.namespaceName keyword ofScope ofName separator, closed⟩
  | inclusion keyword ofPath separator =>
      obtain ⟨keyword, closed⟩ := keyword.extend closed
      obtain ⟨ofPath, closed⟩ := Token.extends_read rfl closed ofPath
      obtain ⟨separator, closed⟩ := separator.extend quiet closed
      exact ⟨.inclusion keyword ofPath separator, closed⟩

/-- A declaration begins with the keyword of its kind. -/
theorem SpellsDeclaration.exists_keyword {declaration : Declaration}
    (spells : SpellsDeclaration room bytes declaration rest) :
    ∃ middle, SpellsName declaration.kind.keyword bytes middle :=
  Grammar.exists_spellsName_of_read (Grammar.read_of_spellsDeclaration spells)

theorem SpellsDeclaration.stops_dot {declaration : Declaration}
    (spells : SpellsDeclaration room bytes declaration rest) :
    Stops (fun byte => Byte.isSeparator byte || byte == Byte.dot) bytes := by
  obtain ⟨middle, -, tail, rfl, -, -⟩ := spells.exists_keyword
  cases declaration.kind <;> rfl

/-- Declarations begin with nothing that could belong to a declaration in front of them. -/
theorem stops_of_declarations {declarations : List Declaration}
    (spells : Repeats (SpellsDeclaration room) bytes declarations []) :
    Stops (fun byte => Byte.isSeparator byte || byte == Byte.dot) bytes := by
  cases spells with
  | nil => exact stops_nil _
  | cons first _ => exact first.stops_dot

/-- Declarations that end a source are followed by what comes on a new line. -/
theorem extend_declarations {declarations : List Declaration} (quiet : Quiet more)
    (spells : Repeats (SpellsDeclaration room) bytes declarations [])
    (closed : Gap.CommentsClosed bytes) :
    Repeats (SpellsDeclaration room) (extend more bytes) declarations (Gap.rest more) := by
  have notDangling : ∀ {bytes}, Stops (fun byte => Byte.isSeparator byte || byte == Byte.dot) bytes →
      ¬Dangling bytes := by
    rintro _ stops ⟨tail, rfl, -⟩
    exact absurd (stops_cons.1 stops) (by decide)
  rw [← @extend_nil more]
  exact (spells.extend (fun rest => ¬Dangling rest)
    (fun _ _ _ ofDeclaration _ => notDangling ofDeclaration.stops_dot)
    (fun ofDeclaration follows => ofDeclaration.extend quiet follows)
    (notDangling (stops_nil _)) closed).1

end ThriftIdl
