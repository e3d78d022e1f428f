import Rulebook.Comparator
import Rulebook.Text.Blank
import Rulebook.Value.Basic
set_option autoImplicit false

/-!
Comparing a value of a data record with a literal. The two are first brought to one kind: a string
stands for a number if it looks like one, and for a boolean if it spells one. Then the comparator
decides on their order; booleans and pairs of different kinds have none.
-/

namespace Rulebook
namespace Value

def isNumericChar (c : Char) : Bool :=
  c.isDigit || c = '-' || c = '+' || c = '.' || c = 'e' || c = 'E'

/-- Blanks apart, a digit among numeric characters that read as a number. The words for infinities and
for what is not a number stay words. -/
def numeric? (t : Text) : Option Number :=
  let body := t.trim
  if body.any Char.isDigit && body.all isNumericChar then Number.ofText? body else none

/-- Blanks and case apart, `true` or `false`. -/
def boolean? (t : Text) : Option Bool :=
  let body := t.trim
  if Text.sameWord body "true".toList then some true
  else if Text.sameWord body "false".toList then some false
  else none

inductive Pair where
  | numbers (a b : Number)
  | strings (a b : Text)
  | booleans (a b : Bool)
  | apart
  deriving DecidableEq

def pair : Value → Value → Pair
  | .number a, .number b => .numbers a b
  | .string a, .string b => .strings a b
  | .boolean a, .boolean b => .booleans a b
  | .number a, .string t => (numeric? t).elim .apart (.numbers a)
  | .string t, .number b => (numeric? t).elim .apart (.numbers · b)
  | .boolean a, .string t => (boolean? t).elim .apart (.booleans a)
  | .string t, .boolean b => (boolean? t).elim .apart (.booleans · b)
  | .number _, .boolean _ => .apart
  | .boolean _, .number _ => .apart

def Pair.order? : Pair → Option Ordering
  | .numbers a b => a.order? b
  | .strings a b => some (Text.order a b)
  | .booleans .. => none
  | .apart => none

def Pair.equal : Pair → Bool
  | .numbers a b => a.equal b
  | .strings a b => a == b
  | .booleans a b => a == b
  | .apart => false

/-- The outcome of `actual c literal`, none where the pair has no order and the comparator needs one.
Two numbers always have an outcome: what is not a number is in no order with anything. -/
def compare (actual : Value) (c : Comparator) (literal : Value) : Option Bool :=
  let p := pair actual literal
  match c with
  | .equal => some p.equal
  | .notEqual => some (!p.equal)
  | c =>
    match p.order?, actual, literal with
    | some o, _, _ => some (c.holds o)
    | none, .number _, .number _ => some false
    | none, _, _ => none

end Value
end Rulebook
