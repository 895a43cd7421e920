import ThriftIdl.Binary64.Basic

/-!
# JSON values

The data model of JSON. The members of an object keep their order, and a real number keeps its
encoding, so that writing a value is a matter of layout alone.
-/

namespace ThriftIdl

/-- A JSON value. -/
inductive Json where
  | null
  | bool (truth : Bool)
  | int (number : Int)
  | real (number : Binary64)
  | string (text : String)
  | array (items : List Json)
  | object (members : List (String × Json))
  deriving Repr, Inhabited

end ThriftIdl
