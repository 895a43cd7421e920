/-!
# Tables

A table assigns at most one entry to each name and remembers the order in which the names first
came. Inserting under a name that is already there replaces its entry and keeps its place.
-/

namespace ThriftIdl

namespace Table

variable {Entry : Type}

/-- The names of a list of named entries. -/
def namesOf (entries : List (String × Entry)) : List String := entries.map Prod.fst

/-- Replaces the entry of a name, or appends one if there is none. -/
def put (name : String) (entry : Entry) : List (String × Entry) → List (String × Entry)
  | [] => [(name, entry)]
  | (other, old) :: rest =>
    if other = name then (name, entry) :: rest else (other, old) :: put name entry rest

theorem mem_namesOf_put {name other : String} {entry : Entry}
    {entries : List (String × Entry)} :
    other ∈ namesOf (put name entry entries) ↔ other = name ∨ other ∈ namesOf entries := by
  induction entries with
  | nil => simp [namesOf, put]
  | cons first rest inductionHypothesis =>
    obtain ⟨key, old⟩ := first
    by_cases same : key = name
    · simp [namesOf, put, same]
    · simp only [namesOf, put, same, if_false, List.map_cons, List.mem_cons] at *
      rw [inductionHypothesis]
      exact or_left_comm

theorem nodup_namesOf_put {name : String} {entry : Entry} {entries : List (String × Entry)}
    (distinct : (namesOf entries).Nodup) : (namesOf (put name entry entries)).Nodup := by
  induction entries with
  | nil => simp [namesOf, put]
  | cons first rest inductionHypothesis =>
    obtain ⟨key, old⟩ := first
    have fresh : key ∉ namesOf rest := (List.nodup_cons.1 distinct).1
    have restDistinct : (namesOf rest).Nodup := (List.nodup_cons.1 distinct).2
    by_cases same : key = name
    · subst same
      simpa [namesOf, put] using ⟨by simpa [namesOf] using fresh, restDistinct⟩
    · have stillFresh : key ∉ namesOf (put name entry rest) := by
        rw [mem_namesOf_put]
        exact not_or.2 ⟨same, fresh⟩
      simpa [namesOf, put, same] using
        ⟨by simpa [namesOf] using stillFresh, inductionHypothesis restDistinct⟩

end Table

/-- Named entries with distinct names, in the order in which the names first came. -/
structure Table (Entry : Type) where
  entries : List (String × Entry)
  distinct : (Table.namesOf entries).Nodup

namespace Table

variable {Entry : Type}

/-- The table without entries. -/
def empty : Table Entry := ⟨[], List.nodup_nil⟩

instance : EmptyCollection (Table Entry) := ⟨empty⟩

instance : Inhabited (Table Entry) := ⟨empty⟩

instance [DecidableEq Entry] : DecidableEq (Table Entry) := fun first second =>
  decidable_of_iff (first.entries = second.entries) <| by
    cases first; cases second; simp

/-- The names in a table. -/
def names (table : Table Entry) : List String := namesOf table.entries

/-- How many entries a table has. -/
def size (table : Table Entry) : Nat := table.entries.length

/-- Whether a table has no entries. -/
def isEmpty (table : Table Entry) : Bool := table.entries.isEmpty

/-- Replaces the entry of a name, or appends one if there is none. -/
def insert (table : Table Entry) (name : String) (entry : Entry) : Table Entry :=
  ⟨put name entry table.entries, nodup_namesOf_put table.distinct⟩

/-- The entry of a name. -/
def get? (table : Table Entry) (name : String) : Option Entry := table.entries.lookup name

/-- The table of some items, inserted one after the other under their names. -/
def ofList (nameOf : Entry → String) (items : List Entry) : Table Entry :=
  items.foldl (fun table item => table.insert (nameOf item) item) ∅

end Table

end ThriftIdl
