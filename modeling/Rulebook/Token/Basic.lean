import Rulebook.Comparator
set_option autoImplicit false

namespace Rulebook

inductive Connective where
  | and | or
  deriving DecidableEq, Repr

namespace Connective

def word : Connective → Text
  | and => "AND".toList
  | or => "OR".toList

end Connective

namespace Token

inductive Kind where
  | connective (op : Connective)
  | not
  | comparator (c : Comparator)
  | leftParen
  | rightParen
  | identifier
  | string
  | number
  deriving DecidableEq, Repr

def Kind.describe : Kind → Text
  | .connective op => op.word
  | .not => "NOT".toList
  | .comparator _ => "comparison operator".toList
  | .leftParen => "'('".toList
  | .rightParen => "')'".toList
  | .identifier => "attribute name".toList
  | .string => "string literal".toList
  | .number => "number literal".toList

end Token

/-- A token keeps the text it was read from and the byte offset of its first character. -/
structure Token where
  kind : Token.Kind
  text : Text
  offset : Nat
  deriving DecidableEq, Repr

namespace Token

def finish (t : Token) : Nat := t.offset + Text.byteLength t.text

/-- A string literal without its quotes; any other token as it stands. Quotes are one byte each, and every
string token that is read from a text has them. Of one made in another way the first and the last character
are dropped, whatever they are; where these are longer than a byte, no slice of the text leaves out just one
byte at each end. -/
def unquoted (t : Token) : Text :=
  if t.kind = .string ∧ 2 ≤ Text.byteLength t.text then t.text.tail.dropLast else t.text

end Token
end Rulebook
