import ThriftIdl.Json.OfDocument
import ThriftIdl.Proofs.Grammar.Declarations
import ThriftIdl.Proofs.Json.Compact

/-!
# Documents can be told from their JSON

The JSON form of a document leaves out what is absent and writes maps as arrays, types as names or
objects, and references as objects. Still nothing is lost but the difference between a whole double
and an integer and between an empty map and an empty list: documents without doubles and empty maps
are equal if their compact texts are, down to the order of their declarations.
-/

namespace ThriftIdl

/-! ### The values in a document -/

namespace Value

mutual

/-- Whether an empty map occurs in a value. -/
def hasEmptyMap : Value → Bool
  | .list items => anyHasEmptyMap items
  | .map entries => entries.isEmpty || anyEntryHasEmptyMap entries
  | .int _ | .double _ | .string _ | .bool _ | .reference _ => false

/-- Whether an empty map occurs in one of the items. -/
def anyHasEmptyMap : List Value → Bool
  | [] => false
  | item :: items => item.hasEmptyMap || anyHasEmptyMap items

/-- Whether an empty map occurs in a key or a value of one of the entries. -/
def anyEntryHasEmptyMap : List (Value × Value) → Bool
  | [] => false
  | (key, value) :: entries =>
    key.hasEmptyMap || value.hasEmptyMap || anyEntryHasEmptyMap entries

end

/-- A value whose JSON form tells all of it. -/
inductive Faithful : Value → Prop where
  | int (number : Int64) : Faithful (.int number)
  | string (text : String) : Faithful (.string text)
  | bool (truth : Bool) : Faithful (.bool truth)
  | list {items : List Value} (each : ∀ item ∈ items, Faithful item) : Faithful (.list items)
  | map {entries : List (Value × Value)} (notEmpty : entries ≠ [])
      (keys : ∀ entry ∈ entries, Faithful entry.1) (values : ∀ entry ∈ entries, Faithful entry.2) :
      Faithful (.map entries)
  | reference (segments : List String) : Faithful (.reference segments)

mutual

/-- Without doubles and empty maps a value is faithful. -/
theorem faithful_of_has : (value : Value) → value.hasDouble = false → value.hasEmptyMap = false →
    value.Faithful
  | .int number, _, _ => .int number
  | .string text, _, _ => .string text
  | .bool truth, _, _ => .bool truth
  | .reference segments, _, _ => .reference segments
  | .list items, noDouble, noEmptyMap => .list (faithful_items items noDouble noEmptyMap)
  | .map entries, noDouble, noEmptyMap => by
      simp only [hasEmptyMap, Bool.or_eq_false_iff, List.isEmpty_eq_false_iff] at noEmptyMap
      have each := faithful_entries entries noDouble noEmptyMap.2
      exact .map noEmptyMap.1 (fun entry mem => (each entry mem).1)
        fun entry mem => (each entry mem).2

theorem faithful_items : (items : List Value) → anyHasDouble items = false →
    anyHasEmptyMap items = false → ∀ item ∈ items, item.Faithful
  | [], _, _ => by simp
  | item :: items, noDouble, noEmptyMap => by
      simp only [anyHasDouble, anyHasEmptyMap, Bool.or_eq_false_iff] at noDouble noEmptyMap
      exact List.forall_mem_cons.2 ⟨faithful_of_has item noDouble.1 noEmptyMap.1,
        faithful_items items noDouble.2 noEmptyMap.2⟩

theorem faithful_entries : (entries : List (Value × Value)) → anyEntryHasDouble entries = false →
    anyEntryHasEmptyMap entries = false → ∀ entry ∈ entries, entry.1.Faithful ∧ entry.2.Faithful
  | [], _, _ => by simp
  | (key, value) :: entries, noDouble, noEmptyMap => by
      simp only [anyEntryHasDouble, anyEntryHasEmptyMap, Bool.or_eq_false_iff]
        at noDouble noEmptyMap
      exact List.forall_mem_cons.2 ⟨⟨faithful_of_has key noDouble.1.1 noEmptyMap.1.1,
        faithful_of_has value noDouble.1.2 noEmptyMap.1.2⟩,
        faithful_entries entries noDouble.2 noEmptyMap.2⟩

end

end Value

/-- The values in a field. -/
def Field.values (field : Field) : List Value := field.defaultValue.toList

/-- The values in a function. -/
def Function.values (function : Function) : List Value :=
  (function.arguments ++ function.exceptions).flatMap Field.values

/-- The values in the body of a declaration. -/
def Kind.valuesOf : (kind : Kind) → kind.Body → List Value
  | .constant, body => [Constant.value body]
  | .struct, fields => List.flatMap Field.values fields
  | .union, fields => List.flatMap Field.values fields
  | .exception, fields => List.flatMap Field.values fields
  | .service, body =>
    (Service.functions body).entries.flatMap fun entry => Function.values entry.2
  | .typedef, _ | .enumeration, _ | .namespaceName, _ | .inclusion, _ => []

namespace Document

/-- The values in a document. -/
def values (document : Document) : List Value :=
  document.declarations.flatMap fun declaration => declaration.kind.valuesOf declaration.body

/-- Whether an empty map occurs in a document. -/
def hasEmptyMap (document : Document) : Bool := document.values.any Value.hasEmptyMap

theorem hasDouble_eq (document : Document) :
    document.hasDouble = document.values.any Value.hasDouble := by
  have ofField : Field.hasDouble = fun field => field.values.any Value.hasDouble := by
    funext field
    unfold Field.hasDouble Field.values
    cases field.defaultValue <;> simp
  rw [hasDouble, values, List.any_flatMap]
  congr 1
  funext ⟨kind, name, body⟩
  cases kind <;>
    simp [Declaration.hasDouble, Kind.valuesOf, ofField, List.any_flatMap, Function.values,
      Function.hasDouble]

theorem faithful_of_has {document : Document} (noDouble : document.hasDouble = false)
    (noEmptyMap : document.hasEmptyMap = false) :
    ∀ value ∈ document.values, value.Faithful := by
  rw [hasDouble_eq] at noDouble
  intro value mem
  exact value.faithful_of_has (by simpa using List.any_eq_false.1 noDouble value mem)
    (by simpa using List.any_eq_false.1 noEmptyMap value mem)

end Document

/-! ### Members and lists -/

/-- Lists are told apart by what becomes of their items if each item is. -/
theorem eq_of_map_eq {α β : Type} {function : α → β} {first second : List α}
    (each : ∀ one ∈ first, ∀ other ∈ second, function one = function other → one = other)
    (same : first.map function = second.map function) : first = second := by
  induction first generalizing second with
  | nil => exact (List.map_eq_nil_iff.1 same.symm).symm
  | cons one later ih =>
      cases second with
      | nil => cases same
      | cons other others =>
          simp only [List.map_cons, List.cons.injEq] at same
          obtain rfl := each one (by simp) other (by simp) same.1
          have sameLater := ih (fun item mem otherItem otherMem =>
            each item (by simp [mem]) otherItem (by simp [otherMem])) same.2
          rw [sameLater]

namespace Json

variable {α : Type} {name : String} {toJson : α → Json} {first second : Option α}
  {rest otherRest : List (String × Json)}

/-- A member that may be absent is told from what follows it by its name. -/
theorem member?_append_inj (fresh : ∀ member ∈ rest, member.1 ≠ name)
    (otherFresh : ∀ member ∈ otherRest, member.1 ≠ name)
    (each : ∀ one ∈ first, ∀ other ∈ second, toJson one = toJson other → one = other)
    (same : member? name toJson first ++ rest = member? name toJson second ++ otherRest) :
    first = second ∧ rest = otherRest := by
  cases first with
  | none =>
      cases second with
      | none => exact ⟨rfl, same⟩
      | some other =>
          subst same
          exact absurd rfl (fresh (name, toJson other) List.mem_cons_self)
  | some one =>
      cases second with
      | none =>
          subst same
          exact absurd rfl (otherFresh (name, toJson one) List.mem_cons_self)
      | some other =>
          simp only [member?, Option.map_some, Option.toList_some, List.cons_append,
            List.nil_append, List.cons.injEq, Prod.mk.injEq, true_and] at same
          exact ⟨congrArg some (each one rfl other rfl same.1), same.2⟩

theorem member?_inj
    (each : ∀ one ∈ first, ∀ other ∈ second, toJson one = toJson other → one = other)
    (same : member? name toJson first = member? name toJson second) : first = second :=
  (@member?_append_inj _ _ _ _ _ [] [] nofun nofun each (by rw [same])).1

theorem name_of_mem_member? {value : Option α} {member : String × Json}
    (mem : member ∈ member? name toJson value) : member.1 = name := by
  rcases Option.map_eq_some_iff.1 (Option.mem_toList.1 mem) with ⟨one, -, rfl⟩
  rfl

theorem exact_member? (each : ∀ one ∈ first, Exact (toJson one)) :
    ∀ member ∈ member? name toJson first, Exact member.2 := by
  intro member mem
  rcases Option.map_eq_some_iff.1 (Option.mem_toList.1 mem) with ⟨one, isThere, rfl⟩
  exact each one isThere

end Json

/-! ### Types and values -/

theorem FieldType.exact_toJson (type : FieldType) : type.toJson.Exact := by
  induction type with
  | named name => exact .string name
  | map key value ihKey ihValue =>
      exact .object (by simp [Json.Exact.string, ihKey, ihValue])
  | list element ih => exact .object (by simp [Json.Exact.string, ih])
  | set element ih => exact .object (by simp [Json.Exact.string, ih])

theorem FieldType.toJson_injective : Function.Injective FieldType.toJson := by
  intro first second same
  induction first generalizing second with
  | named name => cases second <;> simp_all [toJson]
  | map key value ihKey ihValue =>
      cases second <;> simp [toJson] at same
      rw [ihKey same.1, ihValue same.2]
  | list element ih =>
      cases second <;> simp [toJson] at same
      rw [ih same]
  | set element ih =>
      cases second <;> simp [toJson] at same
      rw [ih same]

namespace Value

theorem itemsToJson_eq (items : List Value) : itemsToJson items = items.map toJson := by
  induction items with
  | nil => rfl
  | cons item others ih => rw [itemsToJson, ih, List.map_cons]

/-- An entry of a map. -/
def entryToJson (entry : Value × Value) : Json :=
  .object [("key", entry.1.toJson), ("value", entry.2.toJson)]

theorem entriesToJson_eq (entries : List (Value × Value)) :
    entriesToJson entries = entries.map entryToJson := by
  induction entries with
  | nil => rfl
  | cons entry others ih => rw [entriesToJson, ih, List.map_cons, entryToJson]

theorem Faithful.exact_toJson {value : Value} (faithful : value.Faithful) : value.toJson.Exact := by
  induction faithful with
  | int number => exact .int _
  | string text => exact .string text
  | bool truth => exact .bool truth
  | list each ih =>
      rw [toJson, itemsToJson_eq]
      exact .array (List.forall_mem_map.2 ih)
  | map notEmpty keys values ihKeys ihValues =>
      rw [toJson, entriesToJson_eq]
      refine .array (List.forall_mem_map.2 fun entry mem => .object ?_)
      simp [ihKeys entry mem, ihValues entry mem]
  | reference segments =>
      have exactSegments : Json.Exact (.array (segments.map Json.string)) :=
        .array (List.forall_mem_map.2 fun segment _ => .string segment)
      exact .object (by simp [exactSegments])

/-- An entry of a map has not the form of a value. -/
theorem toJson_ne_entryToJson {value : Value} (faithful : value.Faithful)
    (entry : Value × Value) : value.toJson ≠ entryToJson entry := by
  cases faithful <;> simp [toJson, entryToJson]

/-- The items of a list are not the entries of a map. -/
theorem itemsToJson_ne_entriesToJson {items : List Value} {entries : List (Value × Value)}
    (each : ∀ item ∈ items, item.Faithful) (notEmpty : entries ≠ []) :
    itemsToJson items ≠ entriesToJson entries := by
  obtain ⟨entry, others, rfl⟩ := List.exists_cons_of_ne_nil notEmpty
  intro same
  cases items with
  | nil => cases same
  | cons item later =>
      rw [itemsToJson_eq, entriesToJson_eq, List.map_cons, List.map_cons] at same
      exact toJson_ne_entryToJson (each item (by simp)) entry (List.cons.inj same).1

/-- Faithful values are told apart by their JSON forms. -/
theorem Faithful.toJson_inj {first second : Value} (faithful : first.Faithful)
    (otherFaithful : second.Faithful) (same : first.toJson = second.toJson) : first = second := by
  induction faithful generalizing second with
  | int number =>
      cases otherFaithful with
      | int other => exact congrArg Value.int (Int64.toInt_inj.1 (Json.int.inj same))
      | _ => cases same
  | string text =>
      cases otherFaithful with
      | string other => exact congrArg Value.string (Json.string.inj same)
      | _ => cases same
  | bool truth =>
      cases otherFaithful with
      | bool other => exact congrArg Value.bool (Json.bool.inj same)
      | _ => cases same
  | list each ih =>
      cases otherFaithful with
      | list otherEach =>
          have sameItems := Json.array.inj same
          rw [itemsToJson_eq, itemsToJson_eq] at sameItems
          exact congrArg Value.list (eq_of_map_eq
            (fun item mem other otherMem => ih item mem (otherEach other otherMem)) sameItems)
      | map notEmpty =>
          exact absurd (Json.array.inj same) (itemsToJson_ne_entriesToJson each notEmpty)
      | _ => cases same
  | map notEmpty keys values ihKeys ihValues =>
      cases otherFaithful with
      | list otherEach =>
          exact absurd (Json.array.inj same).symm (itemsToJson_ne_entriesToJson otherEach notEmpty)
      | map otherNotEmpty otherKeys otherValues =>
          have sameEntries := Json.array.inj same
          rw [entriesToJson_eq, entriesToJson_eq] at sameEntries
          refine congrArg Value.map (eq_of_map_eq (fun entry mem other otherMem sameEntry => ?_)
            sameEntries)
          simp only [entryToJson, Json.object.injEq, List.cons.injEq, Prod.mk.injEq, true_and,
            and_true] at sameEntry
          exact Prod.ext (ihKeys entry mem (otherKeys other otherMem) sameEntry.1)
            (ihValues entry mem (otherValues other otherMem) sameEntry.2)
      | _ => cases same
  | reference segments =>
      cases otherFaithful with
      | reference others =>
          simp only [toJson, Json.object.injEq, List.cons.injEq, Prod.mk.injEq, true_and, and_true,
            Json.array.injEq] at same
          exact congrArg Value.reference
            (eq_of_map_eq (fun _ _ _ _ sameText => Json.string.inj sameText) same)
      | _ => cases same

end Value

/-! ### Declarations -/

theorem Requiredness.keyword_injective : Function.Injective Requiredness.keyword := by
  intro first second same
  revert same
  cases first <;> cases second <;> decide

theorem Json.exact_ofInt64 (number : Int64) : (Json.ofInt64 number).Exact := .int _

theorem Json.ofInt64_injective : Function.Injective Json.ofInt64 := fun _ _ same =>
  Int64.toInt_inj.1 (Json.int.inj same)

/-- Whether the values in a field are faithful. -/
def Field.Faithful (field : Field) : Prop := ∀ value ∈ field.defaultValue, value.Faithful

namespace Field

theorem Faithful.exact_toJson {field : Field} (faithful : field.Faithful) :
    field.toJson.Exact := by
  refine .object fun member mem => ?_
  simp only [List.mem_append, List.mem_cons, List.not_mem_nil, or_false] at mem
  rcases mem with (((rfl | rfl) | mem) | mem) | mem
  · exact field.type.exact_toJson
  · exact .string field.name
  · exact Json.exact_member? (fun number _ => Json.exact_ofInt64 number) member mem
  · exact Json.exact_member? (fun requiredness _ => .string requiredness.keyword) member mem
  · exact Json.exact_member? (fun value isThere => (faithful value isThere).exact_toJson) member mem

/-- Fields are told apart by their JSON forms. -/
theorem Faithful.toJson_inj {first second : Field} (faithful : first.Faithful)
    (otherFaithful : second.Faithful) (same : first.toJson = second.toJson) : first = second := by
  have members := Json.object.inj same
  simp only [List.append_assoc, List.cons_append, List.nil_append, List.cons.injEq, Prod.mk.injEq,
    true_and] at members
  rcases members with ⟨sameType, sameName, members⟩
  have freshId : ∀ field : Field, ∀ member ∈
      Json.member? "option" (fun requiredness => .string requiredness.keyword)
          field.requiredness ++
        Json.member? "defaultValue" Value.toJson field.defaultValue, member.1 ≠ "id" := by
    intro field member mem
    rcases List.mem_append.1 mem with mem | mem <;> rw [Json.name_of_mem_member? mem] <;> decide
  have freshOption : ∀ field : Field, ∀ member ∈
      Json.member? "defaultValue" Value.toJson field.defaultValue, member.1 ≠ "option" := by
    intro field member mem
    rw [Json.name_of_mem_member? mem]
    decide
  rcases Json.member?_append_inj (freshId first) (freshId second)
    (fun _ _ _ _ sameId => Json.ofInt64_injective sameId) members with ⟨sameId, others⟩
  rcases Json.member?_append_inj (freshOption first) (freshOption second)
    (fun _ _ _ _ sameWord => Requiredness.keyword_injective (Json.string.inj sameWord)) others with
    ⟨sameRequiredness, last⟩
  have sameDefault := Json.member?_inj (fun value isThere other otherIsThere =>
    (faithful value isThere).toJson_inj (otherFaithful other otherIsThere)) last
  cases first
  cases second
  simp only [mk.injEq]
  exact ⟨FieldType.toJson_injective sameType, Json.string.inj sameName, sameId, sameRequiredness,
    sameDefault⟩

theorem exact_listToJson {fields : List Field} (each : ∀ field ∈ fields, field.Faithful) :
    (listToJson fields).Exact :=
  .array (List.forall_mem_map.2 fun field mem => (each field mem).exact_toJson)

theorem listToJson_inj {first second : List Field} (each : ∀ field ∈ first, field.Faithful)
    (otherEach : ∀ field ∈ second, field.Faithful)
    (same : listToJson first = listToJson second) : first = second :=
  eq_of_map_eq (fun field mem other otherMem => (each field mem).toJson_inj
    (otherEach other otherMem)) (Json.array.inj same)

end Field

namespace EnumItem

theorem exact_toJson (item : EnumItem) : item.toJson.Exact := by
  refine .object fun member mem => ?_
  simp only [List.mem_append, List.mem_cons, List.not_mem_nil, or_false] at mem
  rcases mem with rfl | mem
  · exact .string item.name
  · exact Json.exact_member? (fun number _ => Json.exact_ofInt64 number) member mem

theorem toJson_injective : Function.Injective EnumItem.toJson := by
  intro first second same
  have members := Json.object.inj same
  simp only [List.cons_append, List.nil_append, List.cons.injEq, Prod.mk.injEq, true_and]
    at members
  have sameValue := Json.member?_inj
    (fun _ _ _ _ sameNumber => Json.ofInt64_injective sameNumber) members.2
  cases first
  cases second
  simp only [mk.injEq]
  exact ⟨Json.string.inj members.1, sameValue⟩

end EnumItem

/-- Whether the values in a function are faithful. -/
structure Function.Faithful (function : Function) : Prop where
  arguments : ∀ field ∈ function.arguments, field.Faithful
  exceptions : ∀ field ∈ function.exceptions, field.Faithful

namespace Function

theorem Faithful.exact_toJson {function : Function} (faithful : function.Faithful) :
    function.toJson.Exact := by
  have resultType := function.resultType.exact_toJson
  have arguments := Field.exact_listToJson faithful.arguments
  have exceptions := Field.exact_listToJson faithful.exceptions
  exact .object (by simp [resultType, arguments, exceptions, Json.Exact.string, Json.Exact.bool])

theorem Faithful.toJson_inj {first second : Function} (faithful : first.Faithful)
    (otherFaithful : second.Faithful) (same : first.toJson = second.toJson) : first = second := by
  have members := Json.object.inj same
  simp only [List.cons.injEq, Prod.mk.injEq, true_and, and_true, Json.string.injEq,
    Json.bool.injEq] at members
  rcases members with ⟨sameType, sameName, sameArguments, sameExceptions, sameOneway⟩
  cases first
  cases second
  simp only [mk.injEq]
  exact ⟨FieldType.toJson_injective sameType, sameName,
    Field.listToJson_inj faithful.arguments otherFaithful.arguments sameArguments,
    Field.listToJson_inj faithful.exceptions otherFaithful.exceptions sameExceptions, sameOneway⟩

end Function

namespace Table

variable {Entry : Type} {toJson : Entry → Json} {first second : Table Entry}

theorem exact_toJson (each : ∀ entry ∈ first.entries, (toJson entry.2).Exact) :
    (first.toJson toJson).Exact :=
  .object (List.forall_mem_map.2 each)

/-- Tables are told apart with the order of their entries if their entries are told apart. -/
theorem toJson_inj
    (each : ∀ one ∈ first.entries, ∀ other ∈ second.entries,
      toJson one.2 = toJson other.2 → one.2 = other.2)
    (same : first.toJson toJson = second.toJson toJson) : first = second := by
  refine Table.ext (eq_of_map_eq (fun one mem other otherMem sameMember => ?_)
    (Json.object.inj same))
  rw [Prod.mk.injEq] at sameMember
  exact Prod.ext sameMember.1 (each one mem other otherMem sameMember.2)

end Table

namespace Service

variable {first second : Service}

theorem exact_toJson (each : ∀ entry ∈ first.functions.entries, entry.2.Faithful) :
    first.toJson.Exact := by
  refine .object fun member mem => ?_
  rcases List.mem_append.1 mem with mem | mem
  · exact Json.exact_member? (fun parent _ => .string parent) member mem
  · rw [List.mem_singleton.1 mem]
    exact Table.exact_toJson fun entry mem => (each entry mem).exact_toJson

theorem toJson_inj (each : ∀ entry ∈ first.functions.entries, entry.2.Faithful)
    (otherEach : ∀ entry ∈ second.functions.entries, entry.2.Faithful)
    (same : first.toJson = second.toJson) : first = second := by
  have fresh : ∀ (functions : Json), ∀ member ∈ [("functions", functions)],
      member.1 ≠ "extends" := by simp
  rcases Json.member?_append_inj (fresh _) (fresh _)
    (fun _ _ _ _ sameName => Json.string.inj sameName) (Json.object.inj same) with
    ⟨sameParent, members⟩
  simp only [List.cons.injEq, Prod.mk.injEq, true_and, and_true] at members
  have sameFunctions := Table.toJson_inj (fun entry mem other otherMem =>
    (each entry mem).toJson_inj (otherEach other otherMem)) members
  cases first
  cases second
  simp only [mk.injEq]
  exact ⟨sameParent, sameFunctions⟩

end Service

namespace Kind

/-- Whether the values in the body of a declaration are faithful. -/
def IsFaithful (kind : Kind) (body : kind.Body) : Prop :=
  ∀ value ∈ kind.valuesOf body, value.Faithful

theorem faithful_of_mem_fields {fields : List Field}
    (faithful : ∀ value ∈ fields.flatMap Field.values, value.Faithful) :
    ∀ field ∈ fields, field.Faithful := fun field mem value isThere =>
  faithful value (List.mem_flatMap.2 ⟨field, mem, Option.mem_toList.2 isThere⟩)

theorem faithful_of_mem_functions {service : Service}
    (faithful : IsFaithful .service service) :
    ∀ entry ∈ service.functions.entries, entry.2.Faithful := by
  intro entry mem
  have ofFields := faithful_of_mem_fields fun value isThere =>
    faithful value (List.mem_flatMap.2 ⟨entry, mem, isThere⟩)
  exact ⟨fun field mem => ofFields field (List.mem_append_left _ mem),
    fun field mem => ofFields field (List.mem_append_right _ mem)⟩

theorem exact_bodyToJson (kind : Kind) {body : kind.Body} (faithful : kind.IsFaithful body) :
    (kind.bodyToJson body).Exact := by
  cases kind with
  | typedef => exact .object (by simp [FieldType.exact_toJson])
  | constant =>
      have type := (Constant.type body).exact_toJson
      have value := (faithful (Constant.value body) (by simp [valuesOf])).exact_toJson
      exact .object (by simp [type, value])
  | enumeration =>
      have items : (Json.array (List.map EnumItem.toJson body)).Exact :=
        .array (List.forall_mem_map.2 fun item _ => item.exact_toJson)
      exact .object (by simpa using items)
  | struct => exact Field.exact_listToJson (faithful_of_mem_fields faithful)
  | union => exact Field.exact_listToJson (faithful_of_mem_fields faithful)
  | exception => exact Field.exact_listToJson (faithful_of_mem_fields faithful)
  | service => exact Service.exact_toJson (faithful_of_mem_functions faithful)
  | namespaceName => exact .object (by simp [Json.Exact.string])
  | inclusion => exact .object (by simp [Json.Exact.string])

/-- Bodies of one kind are told apart by their JSON forms. -/
theorem bodyToJson_inj (kind : Kind) {first second : kind.Body} (faithful : kind.IsFaithful first)
    (otherFaithful : kind.IsFaithful second)
    (same : kind.bodyToJson first = kind.bodyToJson second) : first = second := by
  cases kind with
  | typedef =>
      simp only [bodyToJson, Json.object.injEq, List.cons.injEq, Prod.mk.injEq, true_and,
        and_true] at same
      exact FieldType.toJson_injective same
  | constant =>
      have members := Json.object.inj same
      simp only [List.cons.injEq, Prod.mk.injEq, true_and, and_true] at members
      have sameValue := (faithful (Constant.value first) (by simp [valuesOf])).toJson_inj
        (otherFaithful (Constant.value second) (by simp [valuesOf])) members.2
      cases first
      cases second
      exact congrArg₂ Constant.mk (FieldType.toJson_injective members.1) sameValue
  | enumeration =>
      simp only [bodyToJson, Json.object.injEq, List.cons.injEq, Prod.mk.injEq, true_and,
        and_true, Json.array.injEq] at same
      exact eq_of_map_eq (fun _ _ _ _ sameItem => EnumItem.toJson_injective sameItem) same
  | struct =>
      exact Field.listToJson_inj (faithful_of_mem_fields faithful)
        (faithful_of_mem_fields otherFaithful) same
  | union =>
      exact Field.listToJson_inj (faithful_of_mem_fields faithful)
        (faithful_of_mem_fields otherFaithful) same
  | exception =>
      exact Field.listToJson_inj (faithful_of_mem_fields faithful)
        (faithful_of_mem_fields otherFaithful) same
  | service =>
      exact Service.toJson_inj (faithful_of_mem_functions faithful)
        (faithful_of_mem_functions otherFaithful) same
  | namespaceName => simpa [bodyToJson] using same
  | inclusion => simpa [bodyToJson] using same

end Kind

/-! ### Documents -/

namespace Document

/-- Whether the values in a document are faithful. -/
def Faithful (document : Document) : Prop :=
  ∀ kind, ∀ entry ∈ (document.table kind).entries, kind.IsFaithful entry.2

theorem faithful_of_values {document : Document}
    (faithful : ∀ value ∈ document.values, value.Faithful) : document.Faithful := by
  intro kind entry mem value isThere
  have declared : ⟨kind, entry.1, entry.2⟩ ∈ document.declarations :=
    List.mem_flatMap.2 ⟨kind, Kind.mem_all kind, List.mem_map.2 ⟨entry, mem, rfl⟩⟩
  exact faithful value (List.mem_flatMap.2 ⟨_, declared, isThere⟩)

/-- The JSON form of the table of one kind, if it is not empty. -/
def tableToJson? (document : Document) (kind : Kind) : Option Json :=
  if (document.table kind).isEmpty then none
  else some ((document.table kind).toJson kind.bodyToJson)

theorem kindToJson_eq (document : Document) (kind : Kind) :
    document.kindToJson kind = Json.member? kind.keyword id (document.tableToJson? kind) := by
  unfold kindToJson tableToJson?
  split_ifs <;> rfl

theorem exact_toJson {document : Document} (faithful : document.Faithful) :
    document.toJson.Exact := by
  refine .object fun member mem => ?_
  obtain ⟨kind, -, memOfKind⟩ := List.mem_flatMap.1 mem
  rw [kindToJson_eq] at memOfKind
  refine Json.exact_member? (fun json isTable => ?_) member memOfKind
  unfold tableToJson? at isTable
  split_ifs at isTable
  · cases isTable
  · cases isTable
    exact Table.exact_toJson fun entry mem => kind.exact_bodyToJson (faithful kind entry mem)

/-- Tables of one kind are told apart by their JSON forms, also if one of them is empty. -/
theorem table_eq {first second : Document} (faithful : first.Faithful)
    (otherFaithful : second.Faithful) {kind : Kind}
    (same : first.tableToJson? kind = second.tableToJson? kind) :
    first.table kind = second.table kind := by
  unfold tableToJson? at same
  split_ifs at same with isEmpty otherIsEmpty
  · exact Table.ext ((List.isEmpty_iff.1 isEmpty).trans (List.isEmpty_iff.1 otherIsEmpty).symm)
  · exact Table.toJson_inj (fun entry mem other otherMem =>
      kind.bodyToJson_inj (faithful kind entry mem) (otherFaithful kind other otherMem))
      (Option.some.inj same)

/-- The members for several kinds are told apart by their names. -/
theorem tableToJson?_eq {first second : Document} {kinds : List Kind} (distinct : kinds.Nodup)
    (same : kinds.flatMap first.kindToJson = kinds.flatMap second.kindToJson) :
    ∀ kind ∈ kinds, first.tableToJson? kind = second.tableToJson? kind := by
  induction kinds with
  | nil => simp
  | cons kind others ih =>
      have fresh : ∀ document : Document, ∀ member ∈ others.flatMap document.kindToJson,
          member.1 ≠ kind.keyword := by
        intro document member mem isSame
        obtain ⟨other, memOthers, memOfKind⟩ := List.mem_flatMap.1 mem
        rw [kindToJson_eq] at memOfKind
        rw [Json.name_of_mem_member? memOfKind] at isSame
        exact (List.nodup_cons.1 distinct).1 (Grammar.keyword_injective isSame ▸ memOthers)
      simp only [List.flatMap_cons, kindToJson_eq] at same
      rcases Json.member?_append_inj (fresh first) (fresh second)
        (fun _ _ _ _ isSame => isSame) same with ⟨sameTable, sameOthers⟩
      exact List.forall_mem_cons.2 ⟨sameTable, ih (List.nodup_cons.1 distinct).2 sameOthers⟩

/-- Faithful documents are told apart by their JSON forms. -/
theorem toJson_inj {first second : Document} (faithful : first.Faithful)
    (otherFaithful : second.Faithful) (same : first.toJson = second.toJson) : first = second :=
  ext_table fun kind => table_eq faithful otherFaithful
    (tableToJson?_eq Kind.nodup_all (Json.object.inj same) kind (Kind.mem_all kind))

/--
Documents without doubles and empty maps are equal if their compact JSON texts are. As equal tables
list their entries in the same order, this order can be told from the text as well.
-/
theorem compact_toJson_inj {first second : Document}
    (noDouble : first.hasDouble = false) (noEmptyMap : first.hasEmptyMap = false)
    (otherNoDouble : second.hasDouble = false) (otherNoEmptyMap : second.hasEmptyMap = false)
    (same : first.toJson.compact = second.toJson.compact) : first = second := by
  have faithful := faithful_of_values (faithful_of_has noDouble noEmptyMap)
  have otherFaithful := faithful_of_values (faithful_of_has otherNoDouble otherNoEmptyMap)
  exact toJson_inj faithful otherFaithful
    ((exact_toJson faithful).compact_inj (exact_toJson otherFaithful) same)

/-- A constant declared twice, and a map whose entries are written with the brackets of a list. -/
theorem compact_toJson_inj_constant :
    ofList [⟨.constant, "a", ⟨FieldType.named "t", .list [.reference ["b"]]⟩⟩,
          ⟨.constant, "a", ⟨FieldType.named "t", .list [.reference ["b"]]⟩⟩] =
        ofList [⟨.constant, "a", ⟨FieldType.named "t", .list [.reference ["b"]]⟩⟩] ∧
      (ofList [⟨.constant, "a", ⟨FieldType.named "t", .list [.reference ["b"]]⟩⟩]).toJson.compact ≠
        (ofList [⟨.constant, "a",
          ⟨FieldType.named "t", .map [(.string "b", .int 1)]⟩⟩]).toJson.compact := by
  constructor
  · exact compact_toJson_inj (by decide +kernel) (by decide +kernel) (by decide +kernel)
      (by decide +kernel) (by decide +kernel)
  · intro same
    have equal := compact_toJson_inj (by decide +kernel) (by decide +kernel) (by decide +kernel)
      (by decide +kernel) same
    exact absurd equal (by decide +kernel)

end Document

end ThriftIdl
