import Rulebook.Message
import Rulebook.Service.Operations
set_option autoImplicit false

/-!
The objects of a scripting host that calls the engine: its own values, handles to rule trees, and
verdicts. A call of the host ends in an object or raises an exception.
-/

namespace Rulebook.Host

inductive Object where
  | nothing
  | boolean (b : Bool)
  | integer (i : Int)
  | float (n : Number)
  | text (t : Text)
  | bytes (t : Text)
  | list (items : List Object)
  | tuple (items : List Object)
  | mapping (entries : List (Object × Object))
  | bundle (attributes : List (Text × Object))
  | tree (r : Rule)
  /-- Every verdict is an object of its own, told apart by a serial number. -/
  | verdict (serial : Nat) (v : Verdict)

namespace Object

def typeName : Object → Text
  | nothing => "NoneType".toList
  | boolean _ => "bool".toList
  | integer _ => "int".toList
  | float _ => "float".toList
  | text _ => "str".toList
  | bytes _ => "bytes".toList
  | list _ => "list".toList
  | tuple _ => "tuple".toList
  | mapping _ => "dict".toList
  | bundle _ => "SimpleNamespace".toList
  | tree _ => "RuleTree".toList
  | verdict .. => "Verdict".toList

def text? : Object → Option Text
  | text t => some t
  | _ => none

/-- A mapping from entries in their order. An entry whose text was a key before changes its value. -/
def ofEntries (entries : List (Object × Object)) : Object :=
  mapping (entries.foldl put [])
where
  put (known : List (Object × Object)) (entry : Object × Object) : List (Object × Object) :=
    match entry.1 with
    | text t =>
      if known.any fun e => e.1.text? == some t then
        known.map fun e => if e.1.text? == some t then (e.1, entry.2) else e
      else known ++ [entry]
    | _ => known ++ [entry]

def valueAt? (entries : List (Object × Object)) (key : String) : Option Object :=
  (entries.find? fun e => e.1.text? == some key.toList).map Prod.snd

def record (members : List (String × Object)) : Object :=
  mapping (members.map fun m => (text m.1.toList, m.2))

/-- An object that is absent or nothing counts as not given. -/
def given : Option Object → Option Object
  | none | some nothing => none
  | some o => some o

end Object

/-- The classes of exceptions. The last one is raised where the engine itself stops. -/
inductive Exception.Kind where
  | keyError | typeError | valueError | runtimeError | attributeError | overflowError
  | panicException
  deriving DecidableEq, Repr

def Exception.Kind.name : Exception.Kind → Text
  | .keyError => "KeyError".toList
  | .typeError => "TypeError".toList
  | .valueError => "ValueError".toList
  | .runtimeError => "RuntimeError".toList
  | .attributeError => "AttributeError".toList
  | .overflowError => "OverflowError".toList
  | .panicException => "PanicException".toList

structure Exception where
  kind : Exception.Kind
  message : Option Text
  deriving DecidableEq, Repr

namespace Exception

/-- An exception whose message is the business of the host. -/
def bare (kind : Kind) : Exception := ⟨kind, none⟩

/-- The class under which a failure of the engine is raised. -/
def kindOf : Error → Kind
  | .evaluating (.missingAttribute _) | .ruleNotFound _ => .keyError
  | .evaluating _ => .typeError
  | .invalidSettings _ => .runtimeError
  | _ => .valueError

def ofError (e : Error) : Exception := ⟨kindOf e, some e.message⟩

end Exception

/-- What an engine call gives to the host. -/
def raised {α : Type} : Except Error α → Except Exception α
  | .ok a => .ok a
  | .error e => .error (Exception.ofError e)

def nodeObject (r : Rule) (children : List (String × Object)) : Object :=
  Object.record (("type", .text r.typeName) :: ("value", .text r.value) :: children)

def ruleObject : Rule → Object
  | .condition c => nodeObject (.condition c) []
  | .join op l r => nodeObject (.join op l r) [("left", ruleObject l), ("right", ruleObject r)]
  | .not r => nodeObject (.not r) [("left", ruleObject r)]
  | .foreign o => nodeObject (.foreign o) []
  | .foreignLeft o l => nodeObject (.foreignLeft o l) [("left", ruleObject l)]
  | .foreignRight o r => nodeObject (.foreignRight o r) [("right", ruleObject r)]
  | .foreignBoth o l r =>
    nodeObject (.foreignBoth o l r) [("left", ruleObject l), ("right", ruleObject r)]

def recordObject (r : Record) : Object :=
  Object.record [("id", .integer r.id), ("ruleName", .text r.name), ("tree", ruleObject r.rule)]

end Rulebook.Host
