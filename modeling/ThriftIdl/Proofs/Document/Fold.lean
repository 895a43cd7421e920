import ThriftIdl.Document.Basic
import ThriftIdl.Proofs.Document.Table

/-!
# Documents as folds

A document is the fold of the declarations of its source, in which declarations of different kinds
never meet. So the declarations that are left in a document, kind by kind, stand for all that its
source declares: inserting them into another document has the same effect.
-/

namespace ThriftIdl

/-- The name and the body of a declaration of the given kind. -/
def Declaration.entry? (kind : Kind) (declaration : Declaration) : Option (String × kind.Body) :=
  if same : declaration.kind = kind then some (declaration.name, same ▸ declaration.body) else none

namespace Document

/-- The declarations of one kind in a document. -/
def declarationsOf (document : Document) (kind : Kind) : List Declaration :=
  (document.table kind).entries.map fun entry => ⟨kind, entry.1, entry.2⟩

/-- The declarations in a document, kind by kind. -/
def declarations (document : Document) : List Declaration :=
  Kind.all.flatMap document.declarationsOf

/-- Inserts declarations one after the other. -/
def insertAll (document : Document) (added : List Declaration) : Document :=
  added.foldl insert document

variable {document : Document} {kind : Kind}

theorem ext_table {first second : Document}
    (same : ∀ kind, first.table kind = second.table kind) : first = second := by
  cases first
  cases second
  congr
  · exact same .typedef
  · exact same .constant
  · exact same .enumeration
  · exact same .struct
  · exact same .union
  · exact same .exception
  · exact same .service
  · exact same .namespaceName
  · exact same .inclusion

theorem table_empty (kind : Kind) : (∅ : Document).table kind = ∅ := by
  cases kind <;> rfl

theorem table_insert_self (document : Document) (kind : Kind) (name : String) (body : kind.Body) :
    (document.insert ⟨kind, name, body⟩).table kind = (document.table kind).insert name body := by
  cases kind <;> rfl

theorem table_insert_of_ne (document : Document) {declaration : Declaration}
    (differ : declaration.kind ≠ kind) :
    (document.insert declaration).table kind = document.table kind := by
  obtain ⟨other, name, body⟩ := declaration
  cases other <;> cases kind <;> first | rfl | exact absurd rfl differ

/-- The table of a kind is the fold of the declarations of that kind. -/
theorem table_insertAll (document : Document) (added : List Declaration) :
    (document.insertAll added).table kind =
      (document.table kind).insertAll (added.filterMap (Declaration.entry? kind)) := by
  induction added generalizing document with
  | nil => rfl
  | cons first rest ih =>
      refine (ih (document.insert first)).trans ?_
      obtain ⟨other, name, body⟩ := first
      by_cases same : other = kind
      · subst same
        rw [table_insert_self]
        simp [Declaration.entry?, Table.insertAll]
      · rw [table_insert_of_ne document same]
        simp [Declaration.entry?, same]

theorem filterMap_declarationsOf (document : Document) (kind other : Kind) :
    (document.declarationsOf other).filterMap (Declaration.entry? kind) =
      if other = kind then (document.table kind).entries else [] := by
  split_ifs with same
  · subst same
    simp [declarationsOf, Declaration.entry?, Function.comp_def]
  · simp [declarationsOf, Declaration.entry?, same]

/-- The entries of a table are the declarations of its kind. -/
theorem filterMap_declarations (document : Document) (kind : Kind) :
    document.declarations.filterMap (Declaration.entry? kind) =
      (document.table kind).entries := by
  simp only [declarations, Kind.all, List.flatMap_cons, List.flatMap_nil, List.filterMap_append,
    filterMap_declarationsOf]
  cases kind <;> simp

/-- The table of a kind in the document of some declarations. -/
theorem table_ofList (added : List Declaration) (kind : Kind) :
    (ofList added).table kind =
      (∅ : Table kind.Body).insertAll (added.filterMap (Declaration.entry? kind)) :=
  (table_insertAll ∅ added).trans (by rw [table_empty])

/-- Inserting what is left of some declarations has the effect of inserting all of them. -/
theorem insertAll_declarations_ofList (document : Document) (added : List Declaration) :
    document.insertAll (ofList added).declarations = document.insertAll added := by
  refine ext_table fun kind => ?_
  rw [table_insertAll, table_insertAll, filterMap_declarations, table_ofList,
    Table.insertAll_entries]

/-- What is in a document was declared. -/
theorem mem_of_mem_declarations {added : List Declaration} {declaration : Declaration}
    (mem : declaration ∈ (ofList added).declarations) : declaration ∈ added := by
  obtain ⟨kind, -, memOfKind⟩ := List.mem_flatMap.1 mem
  obtain ⟨⟨name, body⟩, memTable, rfl⟩ := List.mem_map.1 memOfKind
  rw [table_ofList] at memTable
  rcases Table.mem_insertAll memTable with inserted | before
  · obtain ⟨⟨other, otherName, otherBody⟩, memAdded, named⟩ := List.mem_filterMap.1 inserted
    unfold Declaration.entry? at named
    split_ifs at named with same
    cases same
    cases named
    exact memAdded
  · cases before

/-- A document is the fold of the declarations in it. -/
theorem ofList_declarations_ofList (added : List Declaration) :
    ofList (ofList added).declarations = ofList added :=
  insertAll_declarations_ofList ∅ added

/-- What is declared after a document is inserted into it. -/
theorem ofList_append (first second : List Declaration) :
    ofList (first ++ second) = (ofList first).insertAll second :=
  List.foldl_append

end Document

end ThriftIdl
