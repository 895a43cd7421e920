/-!
# Field types

A type is a name or a container of types. Base types such as `i32` are names like any other: whether
a name is declared anywhere is not a question of syntax.
-/

namespace ThriftIdl

/-- The type of a field, a constant or a result. -/
inductive FieldType where
  | named (name : String)
  | map (key value : FieldType)
  | list (element : FieldType)
  | set (element : FieldType)
  deriving DecidableEq, Repr

namespace FieldType

/-- The name of a type, or the word that opens a container type. -/
def name : FieldType → String
  | .named name => name
  | .map _ _ => "map"
  | .list _ => "list"
  | .set _ => "set"

end FieldType

end ThriftIdl
