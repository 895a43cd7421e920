import Mathlib.Data.List.Induction
import ThriftIdl.Document.Table

/-!
# Tables as folds

A table is the fold of the entries that were put into it, and a later entry overwrites an earlier
one in its place. So the entries of a table stand for all the entries that were ever put into it:
putting them into another table has the same effect.
-/

namespace ThriftIdl

namespace Table

variable {Entry : Type} {name other : String} {entry old : Entry}
  {entries added : List (String × Entry)}

theorem put_put_same (name : String) (old entry : Entry) (entries : List (String × Entry)) :
    put name entry (put name old entries) = put name entry entries := by
  induction entries with
  | nil => simp [put]
  | cons first rest ih =>
      by_cases same : first.1 = name <;> simp [put, same, ih]

/-- Entries of different names are put in any order if one of the names is there already. -/
theorem put_comm_of_mem (mem : name ∈ namesOf entries) (differ : other ≠ name) :
    put name entry (put other old entries) = put other old (put name entry entries) := by
  induction entries with
  | nil => simp [namesOf] at mem
  | cons first rest ih =>
      by_cases same : first.1 = name
      · simp [put, same, differ.symm]
      · have later : name ∈ namesOf rest := by
          simpa [namesOf, Ne.symm same] using mem
        by_cases sameOther : first.1 = other <;> simp [put, same, sameOther, differ, ih later]

/-- Puts entries one after the other. -/
def putAll (entries added : List (String × Entry)) : List (String × Entry) :=
  added.foldl (fun entries entry => put entry.1 entry.2 entries) entries

theorem putAll_put_of_mem (mem : name ∈ namesOf entries) (fresh : name ∉ namesOf added) :
    putAll (put name entry entries) added = put name entry (putAll entries added) := by
  induction added generalizing entries with
  | nil => rfl
  | cons first rest ih =>
      simp only [namesOf, List.map_cons, List.mem_cons, not_or] at fresh
      have memLater : name ∈ namesOf (put first.1 first.2 entries) := mem_namesOf_put.2 (.inr mem)
      change putAll (put first.1 first.2 (put name entry entries)) rest = _
      rw [← put_comm_of_mem mem (Ne.symm fresh.1), ih memLater fresh.2]
      rfl

/-- Overwriting an entry before or after all entries are put makes no difference. -/
theorem putAll_put (distinct : (namesOf added).Nodup) :
    putAll entries (put name entry added) = put name entry (putAll entries added) := by
  induction added generalizing entries with
  | nil => rfl
  | cons first rest ih =>
      have fresh : first.1 ∉ namesOf rest := (List.nodup_cons.1 distinct).1
      have distinctRest : (namesOf rest).Nodup := (List.nodup_cons.1 distinct).2
      by_cases same : first.1 = name
      · subst same
        have mem : first.1 ∈ namesOf (put first.1 first.2 entries) := mem_namesOf_put.2 (.inl rfl)
        have overwritten := @putAll_put_of_mem Entry first.1 entry _ rest mem fresh
        rw [put_put_same] at overwritten
        simpa [put, putAll] using overwritten
      · simpa [put, same, putAll] using @ih (put first.1 first.2 entries) distinctRest

theorem nodup_putAll (distinct : (namesOf entries).Nodup) :
    (namesOf (putAll entries added)).Nodup := by
  induction added generalizing entries with
  | nil => exact distinct
  | cons first rest ih => exact ih (nodup_namesOf_put distinct)

/-- Entries that were put together already have the effect that they had one by one. -/
theorem putAll_putAll : putAll entries (putAll [] added) = putAll entries added := by
  induction added using List.reverseRecOn with
  | nil => rfl
  | append_singleton front last ih =>
      have snoc : ∀ entries : List (String × Entry),
          putAll entries (front ++ [last]) = put last.1 last.2 (putAll entries front) :=
        fun entries => by simp [putAll]
      have distinct : (namesOf (putAll [] front)).Nodup := nodup_putAll List.nodup_nil
      rw [snoc, snoc, putAll_put distinct, ih]

theorem ext {first second : Table Entry} (same : first.entries = second.entries) :
    first = second := by
  cases first
  cases second
  cases same
  rfl

/-- Inserts entries one after the other. -/
def insertAll (table : Table Entry) (added : List (String × Entry)) : Table Entry :=
  added.foldl (fun table entry => table.insert entry.1 entry.2) table

theorem entries_insertAll (table : Table Entry) :
    (table.insertAll added).entries = putAll table.entries added := by
  induction added generalizing table with
  | nil => rfl
  | cons first rest ih => exact ih (table.insert first.1 first.2)

/-- Inserting the entries of a table has the effect of inserting what was inserted into it. -/
theorem insertAll_entries (table : Table Entry) :
    table.insertAll ((∅ : Table Entry).insertAll added).entries = table.insertAll added := by
  apply ext
  rw [entries_insertAll, entries_insertAll, entries_insertAll]
  exact putAll_putAll

theorem ofList_eq_insertAll (nameOf : Entry → String) (items : List Entry) :
    ofList nameOf items =
      (∅ : Table Entry).insertAll (items.map fun item => (nameOf item, item)) := by
  rw [insertAll, List.foldl_map]
  rfl

theorem mem_put {pair : String × Entry} (mem : pair ∈ put name entry entries) :
    pair = (name, entry) ∨ pair ∈ entries := by
  induction entries with
  | nil => exact .inl (List.mem_singleton.1 mem)
  | cons first rest ih =>
      by_cases same : first.1 = name
      · simp only [put, same, if_true, List.mem_cons] at mem
        exact mem.imp id fun later => by simp [later]
      · simp only [put, same, if_false, List.mem_cons] at mem
        rcases mem with rfl | later
        · exact .inr (by simp)
        · exact (ih later).imp id fun later => by simp [later]

/-- What is in a table was put into it. -/
theorem mem_insertAll {table : Table Entry} {pair : String × Entry}
    (mem : pair ∈ (table.insertAll added).entries) : pair ∈ added ∨ pair ∈ table.entries := by
  induction added generalizing table with
  | nil => exact .inr mem
  | cons first rest ih =>
      rcases ih mem with later | earlier
      · exact .inl (by simp [later])
      · rcases mem_put earlier with rfl | before
        · exact .inl (by simp)
        · exact .inr before

/-- A table of named items consists of items under their own names. -/
theorem mem_ofList {nameOf : Entry → String} {items : List Entry} {pair : String × Entry}
    (mem : pair ∈ (ofList nameOf items).entries) : pair.1 = nameOf pair.2 ∧ pair.2 ∈ items := by
  rw [ofList_eq_insertAll] at mem
  rcases mem_insertAll mem with added | none
  · obtain ⟨item, memItems, rfl⟩ := List.mem_map.1 added
    exact ⟨rfl, memItems⟩
  · cases none

/-- A table of named items is the table of the items in it. -/
theorem ofList_map_snd (nameOf : Entry → String) (items : List Entry) :
    ofList nameOf ((ofList nameOf items).entries.map Prod.snd) = ofList nameOf items := by
  have named : ((ofList nameOf items).entries.map Prod.snd).map (fun item => (nameOf item, item)) =
      (ofList nameOf items).entries := by
    rw [List.map_map]
    refine (List.map_congr_left fun pair mem => ?_).trans (List.map_id _)
    exact Prod.ext (mem_ofList mem).1.symm rfl
  rw [ofList_eq_insertAll, named, ofList_eq_insertAll, insertAll_entries]

end Table

end ThriftIdl
