/-!
# Annotations

Some files mark integers for one target language with an annotation that is not part of the grammar.
Removing its two spellings from the text, first the one with double quotes and then the one with
single quotes, makes such files readable.
-/

namespace ThriftIdl

namespace Annotations

/-- The spellings of the annotation in the order in which they are removed. -/
def spellings : List String := ["(js.type = \"Long\")", "(js.type = 'Long')"]

/-- Removes every occurrence of a nonempty pattern, from left to right. -/
def remove {α : Type} [DecidableEq α] (pattern : List α) : List α → List α
  | [] => []
  | item :: rest =>
    if pattern.isPrefixOf (item :: rest) then remove pattern (rest.drop (pattern.length - 1))
    else item :: remove pattern rest
termination_by text => text.length
decreasing_by all_goals simp only [List.length_drop, List.length_cons]; omega

/-- Whether a pattern occurs in a text. -/
def occurs (pattern : List Char) : List Char → Bool
  | [] => pattern.isEmpty
  | character :: rest => pattern.isPrefixOf (character :: rest) || occurs pattern rest

/-- A source without annotations. -/
def strip (source : String) : String :=
  String.ofList (spellings.foldl (fun text spelling => remove spelling.toList text) source.toList)

/-- Whether a source has an annotation. -/
def occursIn (source : String) : Bool :=
  spellings.any fun spelling => occurs spelling.toList source.toList

/-- A source as it is read: without annotations unless they are kept. -/
def prepare (keep : Bool) (source : String) : String := if keep then source else strip source

end Annotations

end ThriftIdl
