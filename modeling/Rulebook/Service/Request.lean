import Rulebook.Evaluation
import Rulebook.Value.Json
import Rulebook.Wire
set_option autoImplicit false

/-!
Requests to a service, and how they are read from JSON.
-/

namespace Rulebook

structure CreateRequest where
  name : Option Text
  text : Option Text
  deriving DecidableEq, Repr

structure CombineRequest where
  references : List Text
  operator : Option Text
  deriving DecidableEq, Repr

/-- A rule given as a tree, or as the id or name of a stored one. -/
inductive Subject where
  | tree (w : Wire)
  | reference (t : Text)
  deriving DecidableEq, Repr

structure EvaluateRequest where
  subject : Subject
  data : Data

namespace CreateRequest

def ofJson? (j : Json) : Option CreateRequest :=
  match j.fields? ["ruleName".toList, "ruleString".toList] 2 with
  | some [name, text] => do
    let name ← Json.fieldOr none Json.textOrNull? name
    let text ← Json.fieldOr none Json.textOrNull? text
    some ⟨name, text⟩
  | _ => none

/-- The name and the text of the rule: both are given, the name is not empty and the text not blank. -/
def complete? (q : CreateRequest) : Option (Text × Text) :=
  match q.name, q.text with
  | some name, some text => if name.isEmpty || text.trim.isEmpty then none else some (name, text)
  | _, _ => none

end CreateRequest

namespace CombineRequest

def texts? : Json → Option (List Text)
  | .array items => items.mapM Json.text?
  | _ => none

def ofJson? (j : Json) : Option CombineRequest :=
  match j.fields? ["rules".toList, "op".toList] 2 with
  | some [references, operator] => do
    let references ← Json.fieldOr [] texts? references
    let operator ← Json.fieldOr none Json.textOrNull? operator
    some ⟨references, operator⟩
  | _ => none

end CombineRequest

namespace Subject

/-- A tree if it reads as one, otherwise a reference. Either way all of it must be sound. -/
def ofJson? (room : Nat) (j : Json) : Option Subject :=
  if j.sound room then
    match Wire.ofJson? (room + 1) j with
    | some w => some (.tree w)
    | none => j.text?.map .reference
  else none

end Subject

namespace EvaluateRequest

def entry? (m : Option Text × Json) : Option (Text × Value) := do
  let name ← m.1
  let value ← Value.ofJson? m.2
  some (name, value)

def data? : Json → Option Data
  | .object members => (members.mapM entry?).map Data.ofList
  | _ => none

def ofJson? (j : Json) : Option EvaluateRequest :=
  match j.fields? ["ast".toList, "data".toList] 1 with
  | some [some subject, data] => do
    let subject ← Subject.ofJson? (Json.maxNesting - 1) subject
    let data ← Json.fieldOr (Data.ofList []) data? data
    some ⟨subject, data⟩
  | _ => none

end EvaluateRequest
end Rulebook
