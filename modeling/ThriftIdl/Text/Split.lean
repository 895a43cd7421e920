/-!
# Splitting text

Text between delimiters. There is always one part more than there are delimiters, so the empty text
has one part, which is empty.
-/

namespace ThriftIdl

namespace Split

/-- The parts of a list between the elements that are delimiters. -/
def parts {α : Type} (isDelimiter : α → Bool) : List α → List (List α)
  | [] => [[]]
  | element :: rest =>
    if isDelimiter element then [] :: parts isDelimiter rest
    else
      match parts isDelimiter rest with
      | [] => [[element]]
      | first :: others => (element :: first) :: others

/-- The parts of a text between delimiters. -/
def text (isDelimiter : Char → Bool) (text : String) : List String :=
  (parts isDelimiter text.toList).map String.ofList

/-- The text in front of the first delimiter, and the text behind it if there is one. -/
def once (isDelimiter : Char → Bool) (text : String) : String × Option String :=
  let characters := text.toList
  let first := characters.takeWhile fun character => !isDelimiter character
  match characters.dropWhile fun character => !isDelimiter character with
  | [] => (String.ofList first, none)
  | _ :: rest => (String.ofList first, some (String.ofList rest))

end Split

end ThriftIdl
