import ThriftIdl.Grammar.Lexeme
import ThriftIdl.Proofs.Document.Fold

/-!
# The canonical text of a document

One text for each document, in one layout: every optional part that is absent is left out, items are
separated by commas, fields end with a semicolon, functions with a comma, and each declaration has
its own line. There is no text for a double, nor for a text that no quote can enclose.
-/

namespace ThriftIdl

/-! ### Values without doubles -/

namespace Value

mutual

/-- Whether a double occurs in a value. -/
def hasDouble : Value → Bool
  | .double _ => true
  | .list items => anyHasDouble items
  | .map entries => anyEntryHasDouble entries
  | .int _ | .string _ | .bool _ | .reference _ => false

/-- Whether a double occurs in one of the items. -/
def anyHasDouble : List Value → Bool
  | [] => false
  | item :: items => item.hasDouble || anyHasDouble items

/-- Whether a double occurs in a key or a value of one of the entries. -/
def anyEntryHasDouble : List (Value × Value) → Bool
  | [] => false
  | (key, value) :: entries => key.hasDouble || value.hasDouble || anyEntryHasDouble entries

end

theorem anyHasDouble_eq_any (items : List Value) : anyHasDouble items = items.any hasDouble := by
  induction items with
  | nil => rfl
  | cons item items ih => rw [anyHasDouble, ih, List.any_cons]

theorem anyEntryHasDouble_eq_any (entries : List (Value × Value)) :
    anyEntryHasDouble entries =
      entries.any fun entry => entry.1.hasDouble || entry.2.hasDouble := by
  induction entries with
  | nil => rfl
  | cons entry entries ih => rw [anyEntryHasDouble, ih, List.any_cons]

end Value

/-- Whether a double occurs in the default value of a field. -/
def Field.hasDouble (field : Field) : Bool := field.defaultValue.any Value.hasDouble

/-- Whether a double occurs in the arguments or the exceptions of a function. -/
def Function.hasDouble (function : Function) : Bool :=
  function.arguments.any Field.hasDouble || function.exceptions.any Field.hasDouble

/-- Whether a double occurs in a declaration. -/
def Declaration.hasDouble : Declaration → Bool
  | ⟨.constant, _, constant⟩ => constant.value.hasDouble
  | ⟨.struct, _, fields⟩ => List.any fields Field.hasDouble
  | ⟨.union, _, fields⟩ => List.any fields Field.hasDouble
  | ⟨.exception, _, fields⟩ => List.any fields Field.hasDouble
  | ⟨.service, _, service⟩ => service.functions.entries.any fun entry => entry.2.hasDouble
  | ⟨.typedef, _, _⟩ | ⟨.enumeration, _, _⟩ | ⟨.namespaceName, _, _⟩ | ⟨.inclusion, _, _⟩ => false

/-- Whether a double occurs in a document. -/
def Document.hasDouble (document : Document) : Bool :=
  document.declarations.any Declaration.hasDouble

/-! ### Printing -/

namespace Print

/-- The text of an optional part, which is empty if the part is absent. -/
def optional {α : Type} (print : α → String) : Option α → String
  | none => ""
  | some part => print part

/-- An integer in decimal. -/
def integer (number : Int64) : String := Numeral.ofInt number.toInt

/-- A text between two quotes, if the second quote is the first one that closes it. -/
def between? (body : UInt8 → List UInt8 → Option (List UInt8)) (quote : UInt8) (text : String) :
    Option String :=
  if body quote (Utf8.encode text ++ [quote]) = some (Utf8.encode text) then
    some (String.singleton (Byte.toChar quote) ++ text ++ String.singleton (Byte.toChar quote))
  else none

/-- A text between whichever quotes can enclose it. -/
def quoted? (body : UInt8 → List UInt8 → Option (List UInt8)) (text : String) : Option String :=
  (between? body Byte.doubleQuote text).or (between? body Byte.singleQuote text)

/-- A type. -/
def type : FieldType → String
  | .named name => name
  | .map key value => "map<" ++ type key ++ ", " ++ type value ++ ">"
  | .list element => "list<" ++ type element ++ ">"
  | .set element => "set<" ++ type element ++ ">"

mutual

/-- A value, if it has a text. -/
def value? : Value → Option String
  | .int number => some (integer number)
  | .double _ => none
  | .string text => quoted? Lexeme.untilQuote text
  | .bool truth => some (if truth then "true" else "false")
  | .list items => (values? items).map fun texts => "[" ++ ", ".intercalate texts ++ "]"
  | .map entries => (entries? entries).map fun texts => "\x7b" ++ ", ".intercalate texts ++ "\x7d"
  | .reference segments => some (" . ".intercalate segments)

/-- Several values. -/
def values? : List Value → Option (List String)
  | [] => some []
  | item :: items => do
    let text ← value? item
    let texts ← values? items
    return text :: texts

/-- Several entries of a map. -/
def entries? : List (Value × Value) → Option (List String)
  | [] => some []
  | (key, value) :: entries => do
    let keyText ← value? key
    let valueText ← value? value
    let texts ← entries? entries
    return (keyText ++ ": " ++ valueText) :: texts

end

/-- An entry of a map. -/
def entry? (entry : Value × Value) : Option String := do
  let keyText ← value? entry.1
  let valueText ← value? entry.2
  return keyText ++ ": " ++ valueText

theorem values?_eq_mapM (items : List Value) : values? items = items.mapM value? := by
  induction items with
  | nil => rfl
  | cons item items ih => rw [values?, ih, List.mapM_cons]

theorem entries?_eq_mapM (entries : List (Value × Value)) :
    entries? entries = entries.mapM entry? := by
  induction entries with
  | nil => rfl
  | cons entry entries ih =>
      rw [entries?, ih, List.mapM_cons, entry?]
      simp [Option.bind_assoc]

/-- A value that may be absent; what is printed of an absent value is empty. -/
def defaultValue? : Option Value → Option String
  | none => some ""
  | some value => (value? value).map (" = " ++ ·)

/-- A field. -/
def field? (field : Field) : Option String := do
  let defaultText ← defaultValue? field.defaultValue
  return optional (integer · ++ ": ") field.id
    ++ optional (fun requiredness => requiredness.keyword ++ " ") field.requiredness
    ++ type field.type ++ " " ++ field.name ++ defaultText ++ ";"

/-- Several fields. -/
def fields? (fields : List Field) : Option String := do
  let texts ← fields.mapM field?
  return " ".intercalate texts

/-- An item of an enumeration. -/
def enumItem (item : EnumItem) : String :=
  item.name ++ optional (" = " ++ integer ·) item.value

/-- The exceptions of a function; nothing is printed if there are none. -/
def exceptions? : List Field → Option String
  | [] => some ""
  | fields => (fields? fields).map fun texts => " throws (" ++ texts ++ ")"

/-- A function. -/
def function? (function : Function) : Option String := do
  let arguments ← fields? function.arguments
  let exceptions ← exceptions? function.exceptions
  return (if function.oneway then "oneway " else "") ++ type function.resultType ++ " "
    ++ function.name ++ "(" ++ arguments ++ ")" ++ exceptions ++ ","

/-- The keyword, the name and the fields of a struct, a union or an exception. -/
def structure? (kind : Kind) (name : String) (fields : List Field) : Option String := do
  let texts ← fields? fields
  return kind.keyword ++ " " ++ name ++ " \x7b" ++ texts ++ "\x7d"

/-- A declaration. -/
def declaration? : Declaration → Option String
  | ⟨.typedef, name, body⟩ => some ("typedef " ++ type body ++ " " ++ name)
  | ⟨.constant, name, constant⟩ => do
    let text ← value? constant.value
    return "const " ++ type constant.type ++ " " ++ name ++ " = " ++ text
  | ⟨.enumeration, name, items⟩ =>
    some ("enum " ++ name ++ " \x7b" ++ ", ".intercalate (items.map enumItem) ++ "\x7d")
  | ⟨.struct, name, fields⟩ => structure? .struct name fields
  | ⟨.union, name, fields⟩ => structure? .union name fields
  | ⟨.exception, name, fields⟩ => structure? .exception name fields
  | ⟨.service, name, service⟩ => do
    let texts ← (service.functions.entries.map Prod.snd).mapM function?
    return "service " ++ name ++ optional (" extends " ++ ·) service.parent ++ " \x7b"
      ++ " ".intercalate texts ++ "\x7d"
  | ⟨.namespaceName, scope, name⟩ => some ("namespace " ++ scope ++ " " ++ name)
  | ⟨.inclusion, _, path⟩ => (quoted? Lexeme.untilFirstQuote path).map ("include " ++ ·)

end Print

namespace Document

/-- The text of a document, kind by kind and with a line for each declaration. -/
def print? (document : Document) : Option String := do
  let lines ← document.declarations.mapM Print.declaration?
  return String.join (lines.map (· ++ "\n"))

end Document

end ThriftIdl
