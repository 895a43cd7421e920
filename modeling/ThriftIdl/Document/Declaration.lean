import ThriftIdl.Document.FieldType
import ThriftIdl.Document.Table
import ThriftIdl.Document.Value

/-!
# Declarations

A declaration gives a name to a body, and the kind of the declaration fixes what the body is. Bodies
keep what was written: nothing is resolved, defaulted or numbered.
-/

namespace ThriftIdl

/-- Whether a field has to be present. -/
inductive Requiredness where
  | required
  | optional
  deriving DecidableEq, Repr

namespace Requiredness

/-- The word for it in the source. -/
def keyword : Requiredness → String
  | .required => "required"
  | .optional => "optional"

end Requiredness

/-- A field of a struct, a union or an exception, or an argument of a function. -/
structure Field where
  type : FieldType
  name : String
  id : Option Int64
  requiredness : Option Requiredness
  defaultValue : Option Value
  deriving DecidableEq, Repr

namespace Field

/-- Whether the field is marked as required. -/
def isRequired (field : Field) : Bool := field.requiredness == some .required

end Field

/-- An item of an enumeration. -/
structure EnumItem where
  name : String
  value : Option Int64
  deriving DecidableEq, Repr

/-- A named value. -/
structure Constant where
  type : FieldType
  value : Value
  deriving DecidableEq, Repr

/-- A function of a service. -/
structure Function where
  resultType : FieldType
  name : String
  arguments : List Field
  exceptions : List Field
  oneway : Bool
  deriving DecidableEq, Repr

/-- A service: the name of the service that it extends, and its functions by name. -/
structure Service where
  parent : Option String
  functions : Table Function
  deriving DecidableEq

/-- The nine kinds of declarations. -/
inductive Kind where
  | typedef
  | constant
  | enumeration
  | struct
  | union
  | exception
  | service
  | namespaceName
  | inclusion
  deriving DecidableEq, Repr

namespace Kind

/-- All kinds in the order in which documents list them. -/
def all : List Kind :=
  [typedef, constant, enumeration, struct, union, exception, service, namespaceName, inclusion]

/-- The word that opens a declaration of the kind. -/
def keyword : Kind → String
  | typedef => "typedef"
  | constant => "const"
  | enumeration => "enum"
  | struct => "struct"
  | union => "union"
  | exception => "exception"
  | service => "service"
  | namespaceName => "namespace"
  | inclusion => "include"

/--
What a declaration of the kind gives a name to. The body of a namespace is the dotted name that its
scope maps to, and the body of an inclusion is the path of the included file.
-/
abbrev Body : Kind → Type
  | typedef => FieldType
  | constant => Constant
  | enumeration => List EnumItem
  | struct => List Field
  | union => List Field
  | exception => List Field
  | service => Service
  | namespaceName => String
  | inclusion => String

instance (kind : Kind) : DecidableEq kind.Body := by
  cases kind <;> infer_instance

end Kind

/-- A named body of some kind. -/
structure Declaration where
  kind : Kind
  name : String
  body : kind.Body
  deriving DecidableEq

end ThriftIdl
