import ThriftIdl.Binary64.Rounding

/-!
# Constant values

The values that constants and field defaults can have. A reference names a constant or an enum item
elsewhere; its segments are the identifiers between separate dots.
-/

namespace ThriftIdl

/-- A constant value as it is written. -/
inductive Value where
  | int (number : Int64)
  | double (number : Binary64)
  | string (text : String)
  | bool (truth : Bool)
  | list (items : List Value)
  | map (entries : List (Value × Value))
  | reference (segments : List String)
  deriving Repr

namespace Value

mutual

/-- Decides whether two values are equal. -/
def decideEq : (first second : Value) → Decidable (first = second)
  | .int first, .int second =>
    if same : first = second then isTrue (by rw [same]) else isFalse (by simp [same])
  | .double first, .double second =>
    if same : first = second then isTrue (by rw [same]) else isFalse (by simp [same])
  | .string first, .string second =>
    if same : first = second then isTrue (by rw [same]) else isFalse (by simp [same])
  | .bool first, .bool second =>
    if same : first = second then isTrue (by rw [same]) else isFalse (by simp [same])
  | .list first, .list second =>
    match decideItemsEq first second with
    | isTrue same => isTrue (by rw [same])
    | isFalse differ => isFalse (by simpa using differ)
  | .map first, .map second =>
    match decideEntriesEq first second with
    | isTrue same => isTrue (by rw [same])
    | isFalse differ => isFalse (by simpa using differ)
  | .reference first, .reference second =>
    if same : first = second then isTrue (by rw [same]) else isFalse (by simp [same])
  | .int _, .double _ | .int _, .string _ | .int _, .bool _ | .int _, .list _
  | .int _, .map _ | .int _, .reference _ => isFalse (by simp)
  | .double _, .int _ | .double _, .string _ | .double _, .bool _ | .double _, .list _
  | .double _, .map _ | .double _, .reference _ => isFalse (by simp)
  | .string _, .int _ | .string _, .double _ | .string _, .bool _ | .string _, .list _
  | .string _, .map _ | .string _, .reference _ => isFalse (by simp)
  | .bool _, .int _ | .bool _, .double _ | .bool _, .string _ | .bool _, .list _
  | .bool _, .map _ | .bool _, .reference _ => isFalse (by simp)
  | .list _, .int _ | .list _, .double _ | .list _, .string _ | .list _, .bool _
  | .list _, .map _ | .list _, .reference _ => isFalse (by simp)
  | .map _, .int _ | .map _, .double _ | .map _, .string _ | .map _, .bool _
  | .map _, .list _ | .map _, .reference _ => isFalse (by simp)
  | .reference _, .int _ | .reference _, .double _ | .reference _, .string _
  | .reference _, .bool _ | .reference _, .list _ | .reference _, .map _ => isFalse (by simp)

/-- Decides whether the items of two lists are equal. -/
def decideItemsEq : (first second : List Value) → Decidable (first = second)
  | [], [] => isTrue rfl
  | first :: firsts, second :: seconds =>
    match decideEq first second, decideItemsEq firsts seconds with
    | isTrue same, isTrue sameRest => isTrue (by rw [same, sameRest])
    | isFalse differ, _ => isFalse (by simp [differ])
    | _, isFalse differ => isFalse (by simp [differ])
  | [], _ :: _ | _ :: _, [] => isFalse (by simp)

/-- Decides whether the entries of two maps are equal. -/
def decideEntriesEq : (first second : List (Value × Value)) → Decidable (first = second)
  | [], [] => isTrue rfl
  | (firstKey, firstValue) :: firsts, (secondKey, secondValue) :: seconds =>
    match decideEq firstKey secondKey, decideEq firstValue secondValue,
        decideEntriesEq firsts seconds with
    | isTrue sameKey, isTrue sameValue, isTrue sameRest =>
      isTrue (by rw [sameKey, sameValue, sameRest])
    | isFalse differ, _, _ => isFalse (by simp [differ])
    | _, isFalse differ, _ => isFalse (by simp [differ])
    | _, _, isFalse differ => isFalse (by simp [differ])
  | [], _ :: _ | _ :: _, [] => isFalse (by simp)

end

instance : DecidableEq Value := decideEq

/-- The number of an integer value. -/
def asInt? : Value → Option Int64
  | .int number => some number
  | _ => none

/-- The number of a numeric value, rounded to a double if it is an integer. -/
def asDouble? : Value → Option Binary64
  | .int number => some (Binary64.ofInt number.toInt)
  | .double number => some number
  | _ => none

/-- The text of a string value. -/
def asString? : Value → Option String
  | .string text => some text
  | _ => none

end Value

end ThriftIdl
