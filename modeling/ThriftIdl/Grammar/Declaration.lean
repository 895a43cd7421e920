import ThriftIdl.Document.Declaration
import ThriftIdl.Grammar.FieldType

/-!
# The grammar of declarations

Every declaration is its keyword, its name, its body and an optional separator. Values and types in
it nest at most as deeply as `room` allows.
-/

namespace ThriftIdl

namespace Grammar

open Rule

/-- Whether a field is required, if the field says so. -/
def requiredness : Rule Requiredness :=
  oneOf "`required` or `optional`"
    [(keyword "required").as .required, (keyword "optional").as .optional]

/-- The id of a field and its colon. -/
def fieldId : Rule Int64 := do
  let id ← integer
  mark Byte.colon
  return id

/-- An equals sign and a value. -/
def defaultValue (room : Nat) : Rule Value := do
  mark Byte.equals
  value room

/-- A field of a struct, or an argument. -/
def field (room : Nat) : Rule Field := do
  let id ← optional fieldId
  let requiredness ← optional requiredness
  let type ← fieldType room
  let name ← identifier
  let defaultValue ← separated (optional (defaultValue room))
  return { type, name, id, requiredness, defaultValue }

/-- Fields between two marks. -/
def fields (room : Nat) (opening closing : UInt8) : Rule (List Field) := do
  mark opening
  let fields ← many (field room)
  mark closing
  return fields

/-- The fields of a struct, a union or an exception. -/
def bracedFields (room : Nat) : Rule (List Field) :=
  fields room Byte.openBrace Byte.closeBrace

/-- The arguments or the exceptions of a function. -/
def parenthesizedFields (room : Nat) : Rule (List Field) :=
  fields room Byte.openParenthesis Byte.closeParenthesis

/-- An equals sign and the number of an enum item. -/
def itemValue : Rule Int64 := do
  mark Byte.equals
  integer

/-- An item of an enumeration. -/
def enumItem : Rule EnumItem := do
  let name ← identifier
  let value ← separated (optional itemValue)
  return { name, value }

/-- The exceptions of a function. -/
def exceptions (room : Nat) : Rule (List Field) := do
  let _ ← keyword "throws"
  parenthesizedFields room

/-- A function of a service. -/
def function (room : Nat) : Rule Function := do
  let oneway ← optional (keyword "oneway")
  let resultType ← fieldType room
  let name ← identifier
  let arguments ← parenthesizedFields room
  let exceptions ← separated (optional (exceptions room))
  return { resultType, name, arguments, exceptions := exceptions.getD [], oneway := oneway.isSome }

/-- The service that another one extends. -/
def parent : Rule String := do
  let _ ← keyword "extends"
  dottedName

/-- The last component of a path without the file extension of the language. -/
def nameOfPath (path : String) : String :=
  let isDelimiter (character : Char) : Bool := character = '/' || character = '\\'
  let component := (path.toList.reverse.takeWhile fun character => !isDelimiter character).reverse
  let extension := ".thrift".toList
  if extension.isSuffixOf component then
    String.ofList (component.take (component.length - extension.length))
  else String.ofList component

/-- A new name for a type. -/
def typedef (room : Nat) : Rule Declaration := do
  let _ ← keyword "typedef"
  let type ← fieldType room
  let name ← separated identifier
  return ⟨.typedef, name, type⟩

/-- A constant. -/
def constant (room : Nat) : Rule Declaration := do
  let _ ← keyword "const"
  let type ← fieldType room
  let name ← identifier
  mark Byte.equals
  let value ← separated (value room)
  return ⟨.constant, name, { type, value }⟩

/-- An enumeration. -/
def enumeration : Rule Declaration := do
  let _ ← keyword "enum"
  let name ← identifier
  mark Byte.openBrace
  let items ← many enumItem
  separated (mark Byte.closeBrace)
  return ⟨.enumeration, name, items⟩

/-- A struct. -/
def struct (room : Nat) : Rule Declaration := do
  let _ ← keyword "struct"
  let name ← identifier
  let fields ← separated (bracedFields room)
  return ⟨.struct, name, fields⟩

/-- A union. -/
def union (room : Nat) : Rule Declaration := do
  let _ ← keyword "union"
  let name ← identifier
  let fields ← separated (bracedFields room)
  return ⟨.union, name, fields⟩

/-- An exception. -/
def exception (room : Nat) : Rule Declaration := do
  let _ ← keyword "exception"
  let name ← identifier
  let fields ← separated (bracedFields room)
  return ⟨.exception, name, fields⟩

/-- A service; of two functions with one name the later one counts. -/
def service (room : Nat) : Rule Declaration := do
  let _ ← keyword "service"
  let name ← identifier
  let parent ← optional parent
  mark Byte.openBrace
  let functions ← many (function room)
  separated (mark Byte.closeBrace)
  return ⟨.service, name, { parent, functions := Table.ofList Function.name functions }⟩

/-- A namespace; the scope is its name. -/
def namespaceName : Rule Declaration := do
  let _ ← keyword "namespace"
  let scope ← token .scope
  let name ← separated dottedName
  return ⟨.namespaceName, scope, name⟩

/-- An inclusion, named after the included file. -/
def inclusion : Rule Declaration := do
  let _ ← keyword "include"
  let path ← separated (token .path)
  return ⟨.inclusion, nameOfPath path, path⟩

/-- The rules for the nine kinds of declarations, in the order in which they are tried. -/
def declarations (room : Nat) : List (Rule Declaration) :=
  [ typedef room, constant room, enumeration, struct room, union room, exception room,
    service room, namespaceName, inclusion ]

/-- A declaration of any kind. -/
def declaration (room : Nat) : Rule Declaration :=
  oneOf "a declaration keyword" (declarations room)

end Grammar

end ThriftIdl
