import ThriftIdl.Grammar.Lexeme

/-!
# Tokens

The tokens of the language. Each has a type for its values, and `Token.recognize` says how it looks.
-/

namespace ThriftIdl

/-- A token whose values have the given type. -/
inductive Token : Type → Type where
  /-- A name, which may have dots inside. -/
  | identifier : Token String
  /-- The scope of a namespace: a name or a star. -/
  | scope : Token String
  /-- A certain word. -/
  | keyword (word : String) : Token String
  /-- A certain punctuation mark. -/
  | mark (byte : UInt8) : Token Unit
  /-- A hexadecimal integer. -/
  | hexadecimal : Token Int64
  /-- A number with an exponent. -/
  | scientific : Token Binary64
  /-- A number in plain notation. -/
  | decimal : Token Value
  /-- A decimal integer. -/
  | integer : Token Int64
  /-- A quoted text in which a backslash protects the next byte. -/
  | string : Token String
  /-- A quoted path without protected bytes. -/
  | path : Token String

namespace Token

/-- Recognises a token at the start of some bytes. -/
def recognize {α : Type} : Token α → List UInt8 → Lexeme α
  | .identifier => Lexeme.word Byte.isIdentifier "identifier"
  | .scope => Lexeme.word Byte.isScope "namespace scope"
  | .keyword word => Lexeme.keyword word
  | .mark byte => Lexeme.mark byte
  | .hexadecimal => Lexeme.hexadecimal
  | .scientific => Lexeme.scientific
  | .decimal => Lexeme.decimal
  | .integer => Lexeme.integer
  | .string =>
    Lexeme.quoted Lexeme.untilQuote "string literal" "closing quote of string literal"
  | .path =>
    Lexeme.quoted Lexeme.untilFirstQuote "quoted include path" "closing quote of include path"

end Token

end ThriftIdl
