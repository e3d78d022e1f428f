import Rulebook.Text.Basic
set_option autoImplicit false

namespace Rulebook

inductive Comparator where
  | greater | less | greaterEqual | lessEqual | equal | notEqual
  deriving DecidableEq, Repr

namespace Comparator

def symbol : Comparator → Text
  | greater => ">".toList
  | less => "<".toList
  | greaterEqual => ">=".toList
  | lessEqual => "<=".toList
  | equal => "==".toList
  | notEqual => "!=".toList

/-- Equality has two spellings, every other comparator one. -/
def ofSymbol? (t : Text) : Option Comparator :=
  if t = "=".toList then some equal
  else [greater, less, greaterEqual, lessEqual, equal, notEqual].find? fun c => c.symbol == t

@[simp] theorem ofSymbol?_symbol (c : Comparator) : ofSymbol? c.symbol = some c := by
  cases c <;> rfl

/-- Needs an order of its two sides, and not only their equality. -/
def isOrdering : Comparator → Bool
  | equal | notEqual => false
  | _ => true

/-- Whether the comparator accepts a left side that stands so to its right side. -/
def holds (c : Comparator) (o : Ordering) : Bool :=
  match c with
  | greater => o == .gt
  | less => o == .lt
  | greaterEqual => o != .lt
  | lessEqual => o != .gt
  | equal => o == .eq
  | notEqual => o != .eq

/-- The comparator that says the same with the sides exchanged. -/
def swap : Comparator → Comparator
  | greater => less
  | less => greater
  | greaterEqual => lessEqual
  | lessEqual => greaterEqual
  | equal => equal
  | notEqual => notEqual

theorem holds_swap (c : Comparator) (o : Ordering) : c.swap.holds o.swap = c.holds o := by
  cases c <;> cases o <;> rfl

end Comparator
end Rulebook
