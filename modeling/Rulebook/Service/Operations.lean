import Rulebook.Service.Dialogue
import Rulebook.Service.Draws
import Rulebook.Service.Request
import Rulebook.Settings
set_option autoImplicit false

/-!
The operations of a service over its settings: store a rule, combine rules and store the result,
evaluate a rule, look at one, delete one.
-/

namespace Rulebook

structure Verdict where
  result : Bool
  rule : Rule
  deriving DecidableEq

def Rule.read (text : Text) : Except Error Rule :=
  match Rule.ofText text with
  | .ok r => .ok r
  | .error e => .error (.reading e)

def Rule.judge (d : Data) (r : Rule) : Except Error Verdict :=
  match r.evaluate d with
  | .ok b => .ok ⟨b, r⟩
  | .error e => .error (.evaluating e)

namespace Service

open Operation

/-- A rule read through the cache: what it does not hold is read and then kept. -/
def readCached (text : Text) : Operation Rule := do
  match ← ask (.lookup text) with
  | some r => pure r
  | none => do
    let r ← settle (Rule.read text)
    ask (.keep text r)
    pure r

def read (s : Settings) (text : Text) : Operation Rule :=
  if s.caching then readCached text else settle (Rule.read text)

def create (s : Settings) (q : CreateRequest) : Operation Record :=
  match q.complete? with
  | none => throw (.invalidRequest .incompleteRule)
  | some (name, text) => do
    let rule ← read s text
    settle (← ask (.insert name (some text) rule))

def find (identifier : Text) : Operation Record := do
  match ← ask (.find identifier) with
  | some record => pure record
  | none => throw (.ruleNotFound identifier)

/-- A text with one of these characters is not meant as a name. -/
def hasComparator (t : Text) : Bool := t.any fun c => c = '<' || c = '>' || c = '=' || c = '!'

/-- What a text without comparators fails with is that it names no rule. -/
def missing (reference : Text) (e : Error) : Error :=
  if hasComparator reference then e else .ruleNotFound reference

def resolve (s : Settings) (reference : Text) : Operation Rule := do
  match ← ask (.find reference) with
  | some record => pure record.rule
  | none => tryCatch (read s reference) fun e => throw (missing reference e)

def drawnName (s : Settings) (draws : Draws) (attempt : Nat) : Text :=
  s.affix ++ draws.letters attempt s.letterCount

/-- The combined rule under the first drawn name that is free, among this attempt and so many more. -/
def storeDrawn (s : Settings) (draws : Draws) (rule : Rule) (attempt : Nat) : Nat → Operation Record
  | 0 => do settle (← ask (.insert (drawnName s draws attempt) none rule))
  | more + 1 => do
    match ← ask (.insert (drawnName s draws attempt) none rule) with
    | .error (.duplicateName _) => storeDrawn s draws rule (attempt + 1) more
    | answer => settle answer

def operatorOf (q : CombineRequest) : Except Error Connective :=
  match q.operator with
  | none => .error (.invalidRequest .missingOperator)
  | some word =>
    match Connective.ofText word with
    | .ok op => .ok op
    | .error e => .error (.combining e)

def combination (s : Settings) (op : Connective) (rules : List Rule) : Except Error Rule :=
  match s.policy.combine op rules with
  | .ok r => .ok r
  | .error e => .error (.combining e)

def combine (s : Settings) (draws : Draws) (q : CombineRequest) : Operation Record := do
  let op ← settle (operatorOf q)
  let rules ← q.references.mapM (resolve s)
  let rule ← settle (combination s op rules)
  storeDrawn s draws rule 0 (Draws.maxAttempts - 1)

def subjectRule : Subject → Operation Rule
  | .tree w => settle w.toRule
  | .reference t => do return (← find t).rule

def evaluate (q : EvaluateRequest) : Operation Verdict := do
  let rule ← subjectRule q.subject
  settle (rule.judge q.data)

def getTree (identifier : Text) : Operation Rule := do return (← find identifier).rule

/-- The found record may be gone when it is to be removed. -/
def delete (identifier : Text) : Operation Record := do
  let record ← find identifier
  match ← ask (.remove record.id) with
  | some removed => pure removed
  | none => throw (.ruleNotFound identifier)

end Service
end Rulebook
