import ThriftIdl.Binary64.Arithmetic

/-!
# Similarity of words

How alike two words are, for suggestions after a misspelling. Two characters match if they are equal
and not far apart. The measure is the mean of three shares: of the characters of either word that
match, and of the matches that stand in the same order. Each step of the mean is rounded to a
double, so that the order of two measures is the order of their doubles.
-/

namespace ThriftIdl

namespace Similarity

/--
Marks the first unmarked occurrence of a character among positions of a word that lie in a window,
if there is one; `position` is the position of the first character.
-/
def claim (character : Char) (first last : Nat) (position : Nat) :
    List (Char × Bool) → Option (List (Char × Bool))
  | [] => none
  | (other, marked) :: rest =>
    if first ≤ position && position < last && other = character && !marked then
      some ((other, true) :: rest)
    else (claim character first last (position + 1) rest).map ((other, marked) :: ·)

/-- The characters of a word that match, in order, and the other word with its matches marked. -/
def matching (range : Nat) (position : Nat) :
    List Char → List (Char × Bool) → List Char × List (Char × Bool)
  | [], other => ([], other)
  | character :: rest, other =>
    match claim character (position - range) (position + range + 1) 0 other with
    | none => matching range (position + 1) rest other
    | some marked =>
      let (matched, final) := matching range (position + 1) rest marked
      (character :: matched, final)

/-- A share of a number, as a double. -/
def share (part whole : Nat) : Binary64 := (Binary64.ofNat part).quotient (Binary64.ofNat whole)

/-- The measure of two words. -/
def measure (first second : String) : Binary64 :=
  let left := first.toList
  let right := second.toList
  let range := max left.length right.length / 2 - 1
  let (leftMatches, marked) := matching range 0 left (right.map fun character => (character, false))
  let rightMatches := (marked.filter Prod.snd).map Prod.fst
  let count := leftMatches.length
  let misplaced := ((leftMatches.zip rightMatches).filter fun (a, b) => a != b).length / 2
  if count = 0 then Binary64.ofNat (if left.isEmpty && right.isEmpty then 1 else 0)
  else
    (((share count left.length).sum (share count right.length)).sum
      (share (count - misplaced) count)).quotient (Binary64.ofNat 3)

/-- The measure that similar words exceed: seven tenths. -/
def threshold : Binary64 := share 7 10

/-- The candidates that are much like a word, the most similar one last. -/
def candidates (word : String) (words : List String) : List String :=
  let measured := (words.map fun candidate => (measure word candidate, candidate)).filter
    fun (degree, _) => !degree.atMost threshold
  (measured.mergeSort fun first second => first.1.atMost second.1).map Prod.snd

end Similarity

end ThriftIdl
