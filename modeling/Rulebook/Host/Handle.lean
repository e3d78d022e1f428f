import Rulebook.Host.Argument
import Rulebook.Host.Plain
import Rulebook.Json.Writer
import Rulebook.Rule.Outline
import Rulebook.Rule.Walk
set_option autoImplicit false

/-!
What the host can do with the objects it holds: the attributes and methods of rule trees and verdicts,
and what every object has, its text, its truth and its equality. The host has functions for these, and
methods with underscores in their names.
-/

namespace Rulebook.Host

def optional (r : Option Rule) : Object :=
  match r with
  | some r => .tree r
  | none => .nothing

def walkEntry (e : Nat × Rule) : Object :=
  .tuple [.integer e.1, .text e.2.typeName, .text e.2.value]

def attribute? (o : Object) (name : String) : Option Object :=
  match o, name with
  | .tree r, "node_type" => some (.text r.typeName)
  | .tree r, "value" => some (.text r.value)
  | .tree r, "depth" => some (.integer r.depth)
  | .tree r, "node_count" => some (.integer r.nodeCount)
  | .tree r, "left" => some (optional r.left?)
  | .tree r, "right" => some (optional r.right?)
  | .verdict _ v, "result" => some (.boolean v.result)
  | .verdict _ v, "tree" => some (.tree v.rule)
  | _, _ => none

def described? (o : Object) (name : String) : Option Object :=
  match name with
  | "str" => o.written?.map .text
  | "repr" => o.shown?.map .text
  | "bool" => some (.boolean o.truth)
  | _ => none

/-- The truth of an object is a method of those that decide it, and not by their size. -/
def hasTruth : Object → Bool
  | .nothing | .boolean _ | .integer _ | .float _ | .verdict .. => true
  | _ => false

def method? (o : Object) (name : String) : Option Object :=
  match o, name with
  | .tree r, "to_dict" => some (ruleObject r)
  | .tree r, "to_json" => some (.text r.toJson.text)
  | .tree r, "render" => some (.text r.outline)
  | .tree r, "walk" => some (.list (r.walk.map walkEntry))
  | .verdict _ v, "to_dict" =>
    some (Object.record [("result", .boolean v.result), ("tree", ruleObject v.rule)])
  | o, "__str__" => o.written?.map .text
  | o, "__repr__" => o.shown?.map .text
  | o, "__bool__" => if hasTruth o then some (.boolean o.truth) else none
  | _, _ => none

def evaluateTree (r : Rule) (data : Object) : Except Exception Object := do
  let d ← data.toData
  let v ← raised (r.judge d)
  .ok (.boolean v.result)

def binary? (o : Object) (name : String) : Option (Object → Except Exception Object) :=
  match o, name with
  | .tree r, "evaluate" => some (evaluateTree r)
  | o, "eq" | o, "__eq__" => some fun p => .ok (.boolean (o.same p))
  | o, "__ne__" => some fun p => .ok (.boolean !o.same p)
  | _, _ => none

/-- An attribute read, or a method or a function of the host applied, on an object that it holds.
Attributes and functions are there whatever is passed; methods take what they declare. -/
def send (o : Object) (name : Text) (args : List Object) : Except Exception Object :=
  let name := String.ofList name
  match (attribute? o name).or (described? o name) with
  | some p => .ok p
  | none =>
    match method? o name, binary? o name with
    | some p, _ => if args.isEmpty then .ok p else .error (.bare .typeError)
    | none, some f =>
      match args with
      | [p] => f p
      | _ => .error (.bare .typeError)
    | none, none => .error (.bare .attributeError)

end Rulebook.Host
