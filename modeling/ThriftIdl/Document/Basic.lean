import ThriftIdl.Document.Declaration

/-!
# Documents

A document holds the declarations of a source by kind and name. A later declaration replaces an
earlier one of the same kind and name; declarations of different kinds never meet.
-/

namespace ThriftIdl

/-- The declarations of a source. -/
structure Document where
  typedefs : Table (Kind.Body .typedef) := ∅
  constants : Table (Kind.Body .constant) := ∅
  enumerations : Table (Kind.Body .enumeration) := ∅
  structs : Table (Kind.Body .struct) := ∅
  unions : Table (Kind.Body .union) := ∅
  exceptions : Table (Kind.Body .exception) := ∅
  services : Table (Kind.Body .service) := ∅
  namespaces : Table (Kind.Body .namespaceName) := ∅
  inclusions : Table (Kind.Body .inclusion) := ∅
  deriving DecidableEq

namespace Document

/-- The document without declarations. -/
def empty : Document := { }

instance : EmptyCollection Document := ⟨empty⟩

/-- The table of one kind. -/
def table (document : Document) : (kind : Kind) → Table kind.Body
  | .typedef => document.typedefs
  | .constant => document.constants
  | .enumeration => document.enumerations
  | .struct => document.structs
  | .union => document.unions
  | .exception => document.exceptions
  | .service => document.services
  | .namespaceName => document.namespaces
  | .inclusion => document.inclusions

/-- Puts a declaration into the table of its kind. -/
def insert (document : Document) (declaration : Declaration) : Document :=
  match declaration with
  | ⟨.typedef, name, body⟩ => { document with typedefs := document.typedefs.insert name body }
  | ⟨.constant, name, body⟩ =>
    { document with constants := document.constants.insert name body }
  | ⟨.enumeration, name, body⟩ =>
    { document with enumerations := document.enumerations.insert name body }
  | ⟨.struct, name, body⟩ => { document with structs := document.structs.insert name body }
  | ⟨.union, name, body⟩ => { document with unions := document.unions.insert name body }
  | ⟨.exception, name, body⟩ =>
    { document with exceptions := document.exceptions.insert name body }
  | ⟨.service, name, body⟩ => { document with services := document.services.insert name body }
  | ⟨.namespaceName, name, body⟩ =>
    { document with namespaces := document.namespaces.insert name body }
  | ⟨.inclusion, name, body⟩ =>
    { document with inclusions := document.inclusions.insert name body }

/-- The names of one kind. -/
def names (document : Document) (kind : Kind) : List String := (document.table kind).names

/-- How many declarations a document holds. -/
def size (document : Document) : Nat :=
  Kind.all.foldl (fun total kind => total + (document.names kind).length) 0

/-- Whether a document holds no declaration. -/
def isEmpty (document : Document) : Bool := document.size == 0

/-- The document of some declarations, inserted one after the other. -/
def ofList (declarations : List Declaration) : Document := declarations.foldl insert ∅

end Document

end ThriftIdl
