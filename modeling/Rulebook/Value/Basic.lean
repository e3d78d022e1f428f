import Rulebook.Number.Decimal
set_option autoImplicit false

namespace Rulebook

/-- What a literal of a rule or an attribute of a data record holds. -/
inductive Value where
  | boolean (b : Bool)
  | number (n : Number)
  | string (t : Text)
  deriving DecidableEq

namespace Value

inductive Kind where
  | boolean | number | string
  deriving DecidableEq, Repr

def Kind.name : Kind → Text
  | .boolean => "boolean".toList
  | .number => "number".toList
  | .string => "string".toList

def kind : Value → Kind
  | .boolean _ => .boolean
  | .number _ => .number
  | .string _ => .string

def text : Value → Text
  | .boolean b => if b then "true".toList else "false".toList
  | .number n => n.text
  | .string t => t

/-- The quote around a string literal: the double one only if the text holds a single one. -/
def quoteFor (t : Text) : Char := if t.contains '\'' then '"' else '\''

def literal : Value → Text
  | .string t => quoteFor t :: t ++ [quoteFor t]
  | v => v.text

/-- Equality with that of numbers for its numeric part. -/
def equal : Value → Value → Bool
  | .boolean a, .boolean b => a == b
  | .number a, .number b => a.equal b
  | .string a, .string b => a == b
  | _, _ => false

end Value
end Rulebook
