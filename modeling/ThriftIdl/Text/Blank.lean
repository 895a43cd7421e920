/-!
# Blank characters

The characters with the Unicode property White_Space, and text without them at either end.
-/

namespace ThriftIdl

namespace Blank

/-- Ranges of the code points with the property. -/
def ranges : List (Nat × Nat) :=
  [(0x9, 0xD), (0x20, 0x20), (0x85, 0x85), (0xA0, 0xA0), (0x1680, 0x1680), (0x2000, 0x200A),
    (0x2028, 0x2029), (0x202F, 0x202F), (0x205F, 0x205F), (0x3000, 0x3000)]

/-- Whether a character has the property. -/
def holds (character : Char) : Bool :=
  ranges.any fun (first, last) => first ≤ character.toNat && character.toNat ≤ last

/-- Removes the blanks at both ends of a text. -/
def trim (text : String) : String :=
  String.ofList (((text.toList.dropWhile holds).reverse.dropWhile holds).reverse)

end Blank

end ThriftIdl
