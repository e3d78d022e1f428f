import Rulebook.Rule.Basic
import Rulebook.Value.Comparison
set_option autoImplicit false

/-!
The verdict of a rule on a data record. Operands are met from left to right, and the right operand of a
join only if the left one leaves the verdict open; the first failure met is the failure of the whole.
-/

namespace Rulebook

/-- A data record gives each attribute it has a value. -/
abbrev Data := Text → Option Value

/-- The record of a list of entries; of two entries of one name the last counts. -/
def Data.ofList (entries : List (Text × Value)) : Data := fun name => entries.reverse.lookup name

inductive EvalError where
  | missingAttribute (name : Text)
  | typeMismatch (name : Text) (comparator : Comparator) (actual literal : Value.Kind)
  | unknownOperator (operator : Text)
  deriving DecidableEq, Repr

/-- The verdict of a left operand that leaves nothing to the right one. -/
def Connective.decidedBy : Connective → Bool → Bool
  | .and, b => !b
  | .or, b => b

def Condition.evaluate (d : Data) (c : Condition) : Except EvalError Bool :=
  match d c.name with
  | none => .error (.missingAttribute c.name)
  | some actual =>
    match Value.compare actual c.comparator c.literal with
    | none => .error (.typeMismatch c.name c.comparator actual.kind c.literal.kind)
    | some b => .ok b

namespace Rule

def evaluate (d : Data) : Rule → Except EvalError Bool
  | condition c => c.evaluate d
  | join op l r =>
    match l.evaluate d with
    | .error e => .error e
    | .ok b => if op.decidedBy b then .ok b else r.evaluate d
  | not r => (r.evaluate d).map Bool.not
  | foreign o | foreignLeft o _ | foreignRight o _ | foreignBoth o _ _ => .error (.unknownOperator o)

/-- The verdict with the number of nodes met on the way. -/
def evaluateCounting (d : Data) : Rule → Except EvalError (Bool × Nat)
  | condition c => (c.evaluate d).map fun b => (b, 1)
  | join op l r =>
    match l.evaluateCounting d with
    | .error e => .error e
    | .ok (b, met) =>
      if op.decidedBy b then .ok (b, met + 1)
      else (r.evaluateCounting d).map fun v => (v.1, met + v.2 + 1)
  | not r => (r.evaluateCounting d).map fun v => (!v.1, v.2 + 1)
  | foreign o | foreignLeft o _ | foreignRight o _ | foreignBoth o _ _ => .error (.unknownOperator o)

end Rule
end Rulebook
