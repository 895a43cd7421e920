import Mathlib.Algebra.BigOperators.Group.Finset.Basic
import ThriftIdl.Proofs.Document.Fold
import ThriftIdl.Proofs.Reading.Success
import ThriftIdl.Proofs.Grammar.Declarations

/-!
# First places, last bodies

A name that is declared again keeps its place and gets the new body. So a table has its names in the
order in which they first came, and under each of them what came last (`Table.KeepsLast`). This is
one law for the nine tables of a document and for the functions of a service, whichever rule has
read them.
-/

namespace ThriftIdl

open Rule

namespace Table

variable {Entry : Type} {table : Table Entry}

theorem names_insert (table : Table Entry) (name : String) (entry : Entry) :
    (table.insert name entry).names =
      if name ∈ table.names then table.names else table.names ++ [name] := by
  obtain ⟨entries, distinct⟩ := table
  change namesOf (put name entry entries) =
    if name ∈ namesOf entries then namesOf entries else namesOf entries ++ [name]
  clear distinct
  induction entries with
  | nil => rfl
  | cons first rest ih =>
      by_cases same : first.1 = name
      · simp [put, namesOf, same]
      · have later : name ∈ namesOf (first :: rest) ↔ name ∈ namesOf rest := by
          simp [namesOf, Ne.symm same]
        rw [put, if_neg same]
        change first.1 :: namesOf (put name entry rest) = _
        rw [ih, if_congr later rfl rfl]
        split_ifs <;> rfl

theorem lookup_cons (first : String × Entry) (rest : List (String × Entry)) (name : String) :
    (first :: rest).lookup name = if name = first.1 then some first.2 else rest.lookup name := by
  rw [List.lookup_cons]
  split_ifs with same
  · rw [beq_iff_eq.2 same]
  · rw [beq_eq_false_iff_ne.2 same]

theorem get?_insert (table : Table Entry) (name other : String) (entry : Entry) :
    (table.insert name entry).get? other =
      if other = name then some entry else table.get? other := by
  obtain ⟨entries, distinct⟩ := table
  change (put name entry entries).lookup other =
    if other = name then some entry else entries.lookup other
  clear distinct
  induction entries with
  | nil => rw [put, lookup_cons]
  | cons first rest ih =>
      by_cases same : first.1 = name
      · rw [put, if_pos same, lookup_cons, lookup_cons, same]
        split_ifs <;> rfl
      · rw [put, if_neg same, lookup_cons, lookup_cons, ih]
        by_cases isName : other = name
        · rw [if_neg (isName ▸ Ne.symm same), if_pos isName, if_pos isName]
        · rw [if_neg isName, if_neg isName]

/-- Whether a table has the names of some entries in the order in which they first came, and under
each name the entry that came last: the first one to be found from the back. -/
structure KeepsLast (entries : List (String × Entry)) (table : Table Entry) : Prop where
  names : table.names = (entries.map Prod.fst).eraseDups
  get? : ∀ name, table.get? name = entries.reverse.lookup name

theorem eraseDups_append_singleton (names : List String) (name : String) :
    (names ++ [name]).eraseDups =
      if name ∈ names then names.eraseDups else names.eraseDups ++ [name] := by
  rw [List.eraseDups_append]
  split_ifs with mem <;> simp [List.removeAll, mem, List.eraseDups_cons]

theorem KeepsLast.insert {entries : List (String × Entry)} (keeps : KeepsLast entries table)
    (name : String) (entry : Entry) :
    KeepsLast (entries ++ [(name, entry)]) (table.insert name entry) := by
  refine ⟨?_, fun other => ?_⟩
  · rw [names_insert, keeps.names, List.map_append, List.map_singleton, eraseDups_append_singleton]
    simp only [List.mem_eraseDups]
  · rw [get?_insert, keeps.get?, List.reverse_append, List.reverse_singleton, List.singleton_append,
      lookup_cons]

theorem keepsLast_insertAll (added : List (String × Entry)) :
    KeepsLast added ((∅ : Table Entry).insertAll added) := by
  induction added using List.reverseRecOn with
  | nil => exact ⟨rfl, fun name => rfl⟩
  | append_singleton front last ih =>
      have snoc : (∅ : Table Entry).insertAll (front ++ [last]) =
          ((∅ : Table Entry).insertAll front).insert last.1 last.2 := by
        simp [insertAll]
      rw [snoc]
      exact ih.insert last.1 last.2

end Table

namespace Document

/-- The kind and the name of a declaration, which a document keeps apart. -/
def keyOf (declaration : Declaration) : Kind × String := (declaration.kind, declaration.name)

/-- Whether a document has, for each kind, the names of some declarations in the order in which they
first came, and under each of them the body that came last; and whether it counts each of them once.
-/
structure KeepsLast (declarations : List Declaration) (document : Document) : Prop where
  names : ∀ kind, document.names kind =
    ((declarations.filterMap (Declaration.entry? kind)).map Prod.fst).eraseDups
  body : ∀ kind name, (document.table kind).get? name =
    (declarations.filterMap (Declaration.entry? kind)).reverse.lookup name
  size : document.size = (declarations.map keyOf).toFinset.card
  isEmpty : document.isEmpty = true ↔ declarations = []

theorem keepsLast_table (declarations : List Declaration) (kind : Kind) :
    Table.KeepsLast (declarations.filterMap (Declaration.entry? kind))
      ((ofList declarations).table kind) := by
  rw [table_ofList]
  exact Table.keepsLast_insertAll _

theorem mem_names_iff {declarations : List Declaration} {kind : Kind} {name : String} :
    name ∈ (ofList declarations).names kind ↔ (kind, name) ∈ declarations.map keyOf := by
  have names : (ofList declarations).names kind = _ := (keepsLast_table declarations kind).names
  rw [names, List.mem_eraseDups]
  simp only [List.mem_map, List.mem_filterMap]
  constructor
  · rintro ⟨entry, ⟨declaration, mem, isEntry⟩, rfl⟩
    unfold Declaration.entry? at isEntry
    split_ifs at isEntry with same
    cases isEntry
    exact ⟨declaration, mem, Prod.ext same rfl⟩
  · rintro ⟨declaration, mem, ⟨⟩⟩
    exact ⟨_, ⟨declaration, mem, dif_pos rfl⟩, rfl⟩

theorem size_eq_sum (document : Document) :
    document.size = (Kind.all.map fun kind => (document.names kind).length).sum := by
  rw [List.sum_eq_foldl, List.foldl_map]
  rfl

theorem size_ofList (declarations : List Declaration) :
    (ofList declarations).size = (declarations.map keyOf).toFinset.card := by
  have ofKind : ∀ kind, ((ofList declarations).names kind).length =
      ((declarations.map keyOf).toFinset.filter fun key => key.1 = kind).card := by
    intro kind
    have distinct : ((ofList declarations).names kind).Nodup :=
      ((ofList declarations).table kind).distinct
    rw [← List.toFinset_card_of_nodup distinct,
      ← Finset.card_image_of_injective _ (Prod.mk_right_injective kind)]
    congr 1
    ext ⟨other, name⟩
    simp only [Finset.mem_image, List.mem_toFinset, mem_names_iff, Finset.mem_filter,
      Prod.mk.injEq]
    constructor
    · rintro ⟨_, mem, rfl, rfl⟩
      exact ⟨mem, rfl⟩
    · rintro ⟨mem, rfl⟩
      exact ⟨name, mem, rfl, rfl⟩
  -- each pair of a kind and a name is counted in the table of its kind and in no other
  rw [size_eq_sum, ← List.sum_toFinset _ Kind.nodup_all,
    Finset.card_eq_sum_card_fiberwise (f := Prod.fst) (t := Kind.all.toFinset)]
  · simp only [ofKind]
  · intro key _
    simp [Kind.mem_all]

theorem keepsLast_ofList (declarations : List Declaration) :
    KeepsLast declarations (ofList declarations) where
  names kind := (keepsLast_table declarations kind).names
  body kind := (keepsLast_table declarations kind).get?
  size := size_ofList declarations
  isEmpty := by
    rw [isEmpty, beq_iff_eq, size_ofList, Finset.card_eq_zero, List.toFinset_eq_empty_iff,
      List.map_eq_nil_iff]

/-- Declarations of different kinds never meet, so only the order within each kind matters. -/
theorem ofList_eq_of_filter_eq {first second : List Declaration}
    (same : ∀ kind, first.filter (fun declaration => declaration.kind = kind) =
      second.filter fun declaration => declaration.kind = kind) :
    ofList first = ofList second := by
  have ofKind : ∀ kind (declarations : List Declaration),
      declarations.filterMap (Declaration.entry? kind) =
        (declarations.filter fun declaration => declaration.kind = kind).filterMap
          (Declaration.entry? kind) := by
    intro kind declarations
    rw [List.filterMap_filter]
    refine List.filterMap_congr fun declaration _ => ?_
    by_cases isKind : declaration.kind = kind <;> simp [Declaration.entry?, isKind]
  refine ext_table fun kind => ?_
  rw [table_ofList, table_ofList, ofKind kind first, ofKind kind second, same]

end Document

/-- Whether bytes are a service with certain functions, in this order. -/
def ListsFunctions (name : String) (parent : Option String) (functions : List Function)
    (bytes rest : List UInt8) : Prop :=
  ∃ afterHead afterParent inside last afterFunctions,
    SpellsHead .service name bytes afterHead ∧
    SpellsOption SpellsParent parent afterHead afterParent ∧
    SpellsMark Byte.openBrace afterParent inside ∧
    Repeats (SpellsFunction Grammar.maxNesting) inside functions last ∧
    SpellsMark Byte.closeBrace last afterFunctions ∧ SpellsSeparator afterFunctions rest

/-- Whether bytes are a declaration, and a service keeps the last of its functions of each name. -/
def SpellsKeeping (bytes : List UInt8) (declaration : Declaration) (rest : List UInt8) : Prop :=
  SpellsDeclaration Grammar.maxNesting bytes declaration rest ∧
    ∀ name service, declaration = ⟨.service, name, service⟩ →
      ∃ functions, ListsFunctions name service.parent functions bytes rest ∧
        service.functions = Table.ofList Function.name functions ∧
        service.functions.KeepsLast (functions.map fun function => (function.name, function))

theorem spellsKeeping_iff {bytes rest : List UInt8} {declaration : Declaration} :
    SpellsKeeping bytes declaration rest ↔
      SpellsDeclaration Grammar.maxNesting bytes declaration rest := by
  refine ⟨And.left, fun spells => ⟨spells, ?_⟩⟩
  rintro name service rfl
  cases spells with
  | @service _ _ functions _ _ _ _ _ _ _ head ofParent opening ofFunctions closing separator =>
      refine ⟨functions, ⟨_, _, _, _, _, head, ofParent, opening, ofFunctions, closing, separator⟩,
        rfl, ?_⟩
      rw [Table.ofList_eq_insertAll]
      exact Table.keepsLast_insertAll _

namespace Document

/--
A document keeps the first place of each name and the last body, whatever is declared and however
often; only the order within each kind matters. The document of a source is that of the declarations
which make it up, from first to last, and so are the functions of each service by their names.
-/
theorem first_place_last_body :
    (∀ declarations, KeepsLast declarations (ofList declarations)) ∧
    (∀ first second : List Declaration,
      (∀ kind, first.filter (fun declaration => declaration.kind = kind) =
        second.filter fun declaration => declaration.kind = kind) →
      ofList first = ofList second) ∧
    ∀ source offset document, parseFrom source offset = .ok document ↔
      ∃ declarations,
        Repeats SpellsKeeping (Gap.rest ((Utf8.encode source).drop offset)) declarations [] ∧
        document = ofList declarations := by
  refine ⟨keepsLast_ofList, fun first second => ofList_eq_of_filter_eq, ?_⟩
  intro source offset document
  have step : SpellsKeeping = SpellsDeclaration Grammar.maxNesting := by
    funext bytes declaration rest
    exact propext spellsKeeping_iff
  have spelled : (fun bytes item rest =>
      (Grammar.declaration Grammar.maxNesting).read bytes = some (item, rest)) =
        SpellsDeclaration Grammar.maxNesting := by
    funext bytes declaration rest
    exact propext Grammar.read_declaration_iff
  rw [step, ← spelled]
  exact Reading.document_ofStateWithin_eq_ok_iff

/-- A struct may change places with an enumeration of its name, but two enumerations may not. -/
theorem first_place_last_body_swapped :
    let first : Declaration := ⟨.enumeration, "A", [⟨"X", none⟩]⟩
    let second : Declaration := ⟨.enumeration, "A", []⟩
    let struct : Declaration := ⟨.struct, "A", []⟩
    (∀ kind, [first, struct, second].filter (fun declaration => declaration.kind = kind) =
        [struct, first, second].filter fun declaration => declaration.kind = kind) ∧
      ofList [first, struct, second] = ofList [struct, first, second] ∧
      ofList [first, struct, second] ≠ ofList [second, struct, first] := by
  intro first second struct
  have sameOrder : ∀ kind,
      [first, struct, second].filter (fun declaration => declaration.kind = kind) =
        [struct, first, second].filter fun declaration => declaration.kind = kind := by
    intro kind
    cases kind <;> rfl
  exact ⟨sameOrder, first_place_last_body.2.1 _ _ sameOrder, by decide +kernel⟩

/-- The second `A` is in front of `B`, where the first one was. -/
example : (parse "enum A {} enum B {} struct A {} enum A { X }").toOption.map
    (fun document => (document.names .enumeration, document.enumerations.get? "A", document.size)) =
      some (["A", "B"], some [⟨"X", none⟩], 3) := by
  decide +kernel

end Document

end ThriftIdl
