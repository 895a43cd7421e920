import ThriftIdl.Document.Basic
import ThriftIdl.Json.Basic

/-!
# Documents as JSON

The JSON form of a document: an object with a member for each kind of declaration that occurs, and
in it a member for each name. Optional parts that are absent are left out. Numbers that are whole
have the same form whether they were written as integers or not.
-/

namespace ThriftIdl

/-- A member if there is a value for it. -/
def Json.member? {α : Type} (name : String) (toJson : α → Json) (value : Option α) :
    List (String × Json) :=
  (value.map fun value => (name, toJson value)).toList

/-- An object with a member for each entry of a table. -/
def Table.toJson {Entry : Type} (toJson : Entry → Json) (table : Table Entry) : Json :=
  .object (table.entries.map fun (name, entry) => (name, toJson entry))

/-- A number: null if it is not finite, an integer if it is whole and has 64 bits, else a real. -/
def Binary64.toJson (number : Binary64) : Json :=
  if !number.isFinite then .null
  else
    match number.toInt? with
    | some whole => if whole.natAbs < signWeight then .int whole else .real number
    | none => .real number

namespace Value

mutual

/-- A value; a map is an array of pairs, as its keys need not be strings. -/
def toJson : Value → Json
  | .int number => .int number.toInt
  | .double number => number.toJson
  | .string text => .string text
  | .bool truth => .bool truth
  | .list items => .array (itemsToJson items)
  | .map entries => .array (entriesToJson entries)
  | .reference segments => .object [("=", .array (segments.map Json.string))]

/-- The items of a list. -/
def itemsToJson : List Value → List Json
  | [] => []
  | item :: rest => toJson item :: itemsToJson rest

/-- The entries of a map. -/
def entriesToJson : List (Value × Value) → List Json
  | [] => []
  | (key, value) :: rest =>
    .object [("key", toJson key), ("value", toJson value)] :: entriesToJson rest

end

end Value

/-- A type: its name, or an object with the types inside. -/
def FieldType.toJson : FieldType → Json
  | .named name => .string name
  | .map key value =>
    .object [("name", .string "map"), ("keyType", key.toJson), ("valueType", value.toJson)]
  | .list element => .object [("name", .string "list"), ("valueType", element.toJson)]
  | .set element => .object [("name", .string "set"), ("valueType", element.toJson)]

/-- An integer. -/
def Json.ofInt64 (number : Int64) : Json := .int number.toInt

/-- A field. -/
def Field.toJson (field : Field) : Json :=
  .object <|
    [("type", field.type.toJson), ("name", .string field.name)]
      ++ Json.member? "id" Json.ofInt64 field.id
      ++ Json.member? "option" (fun requiredness => .string requiredness.keyword)
          field.requiredness
      ++ Json.member? "defaultValue" Value.toJson field.defaultValue

/-- Fields in their order. -/
def Field.listToJson (fields : List Field) : Json := .array (fields.map Field.toJson)

/-- An item of an enumeration. -/
def EnumItem.toJson (item : EnumItem) : Json :=
  .object ([("name", .string item.name)] ++ Json.member? "value" Json.ofInt64 item.value)

/-- The value of a constant and its type. -/
def Constant.toJson (constant : Constant) : Json :=
  .object [("type", constant.type.toJson), ("value", constant.value.toJson)]

/-- A function of a service. -/
def Function.toJson (function : Function) : Json :=
  .object
    [ ("type", function.resultType.toJson), ("name", .string function.name),
      ("args", Field.listToJson function.arguments),
      ("throws", Field.listToJson function.exceptions), ("oneway", .bool function.oneway) ]

/-- A service. -/
def Service.toJson (service : Service) : Json :=
  .object (Json.member? "extends" Json.string service.parent
    ++ [("functions", service.functions.toJson Function.toJson)])

/-- The body of a declaration. -/
def Kind.bodyToJson : (kind : Kind) → kind.Body → Json
  | .typedef, type => .object [("type", FieldType.toJson type)]
  | .constant, body => Constant.toJson body
  | .enumeration, items => .object [("items", .array (List.map EnumItem.toJson items))]
  | .struct, fields => Field.listToJson fields
  | .union, fields => Field.listToJson fields
  | .exception, fields => Field.listToJson fields
  | .service, body => Service.toJson body
  | .namespaceName, name => .object [("serviceName", .string name)]
  | .inclusion, path => .object [("path", .string path)]

namespace Document

/-- The member for one kind, if the document has declarations of it. -/
def kindToJson (document : Document) (kind : Kind) : List (String × Json) :=
  if (document.table kind).isEmpty then []
  else [(kind.keyword, (document.table kind).toJson kind.bodyToJson)]

/-- A document. -/
def toJson (document : Document) : Json := .object (Kind.all.flatMap document.kindToJson)

end Document

end ThriftIdl
