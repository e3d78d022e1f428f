import Rulebook.Combination
import Rulebook.Evaluation
import Rulebook.Name
import Rulebook.Rule.Parser
set_option autoImplicit false

namespace Rulebook

/-- What is wrong with a tree that was not read from the text of a rule. -/
inductive TreeFault where
  | tooDeep
  | operandWithChildren (value : Text)
  | joinWithoutBoth (op : Connective)
  | denialWithoutOne
  | nestedTooDeeply
  | notMapping
  | missingType
  | unknownType (word : Text)
  | missingValue
  deriving DecidableEq, Repr

inductive RequestFault where
  | incompleteRule
  | missingOperator
  | name (f : NameFault)
  deriving DecidableEq, Repr

inductive SettingsFault where
  | noLetters
  | tooLong (length : Nat)
  | affix (f : NameFault)
  deriving DecidableEq, Repr

inductive Error where
  | reading (e : SyntaxError)
  | combining (e : CombineError)
  | evaluating (e : EvalError)
  | malformedTree (f : TreeFault)
  | ruleNotFound (reference : Text)
  | duplicateName (name : Text)
  | invalidRequest (f : RequestFault)
  | invalidSettings (f : SettingsFault)
  deriving DecidableEq, Repr

def Error.status : Error → Nat
  | .ruleNotFound _ => 404
  | .duplicateName _ => 409
  | .invalidSettings _ => 500
  | _ => 400

end Rulebook
