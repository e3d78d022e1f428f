import Rulebook.Host.Object
set_option autoImplicit false

/-!
Objects of the host as arguments of the engine. A parameter declared as a text, or as a list of texts,
takes nothing else; data records, trees and settings are taken apart piece by piece, and the first piece
that does not fit raises its exception.
-/

namespace Rulebook.Host

def Object.toText (o : Object) : Except Exception Text :=
  match o with
  | .text t => .ok t
  | _ => .error (.bare .typeError)

/-- A sequence of texts. Bytes are a sequence of numbers, so that only without any they will do. -/
def Object.toTexts (o : Object) : Except Exception (List Text) :=
  match o with
  | .list items | .tuple items => items.mapM Object.toText
  | .bytes [] => .ok []
  | _ => .error (.bare .typeError)

def wrongValue (o : Object) : Exception :=
  ⟨.typeError,
    some ("data values must be bool, int, float or str, got ".toList ++ o.typeName)⟩

/-- An integer is taken to the nearest number, if there is one. -/
def Object.toValue (o : Object) : Except Exception Value :=
  match o with
  | .boolean b => .ok (.boolean b)
  | .integer i =>
    let n := Number.ofInt i
    if n.isFinite then .ok (.number n) else .error (.bare .overflowError)
  | .float n => .ok (.number n)
  | .text t => .ok (.string t)
  | o => .error (wrongValue o)

def toEntry (entry : Object × Object) : Except Exception (Text × Value) := do
  let name ← entry.1.toText
  let value ← entry.2.toValue
  .ok (name, value)

def Object.toData (o : Object) : Except Exception Data :=
  match o with
  | .mapping entries => (entries.mapM toEntry).map Data.ofList
  | _ => .error (.bare .typeError)

def malformed (f : TreeFault) : Exception := Exception.ofError (.malformedTree f)

def required (f : TreeFault) : Option Object → Except Exception Object
  | some o => .ok o
  | none => .error (malformed f)

/-- A tree of mappings on at most `room` levels. Nodes are checked before their children, and the left
child before the right one. -/
def Object.toWire : Nat → Object → Except Exception Wire
  | 0, _ => .error (malformed .nestedTooDeeply)
  | room + 1, .mapping entries => do
    let word ← (← required .missingType (Object.valueAt? entries "type")).toText
    match Wire.NodeType.ofName? word with
    | none => .error (malformed (.unknownType word))
    | some type => do
      let value ← (← required .missingValue (Object.valueAt? entries "value")).toText
      let left ← (Object.given (Object.valueAt? entries "left")).mapM (toWire room)
      let right ← (Object.given (Object.valueAt? entries "right")).mapM (toWire room)
      .ok (Wire.node ⟨type, value⟩ left right)
  | _ + 1, _ => .error (malformed .notMapping)

inductive Target where
  | rule (r : Rule)
  | subject (s : Subject)

def Object.toTarget (o : Object) : Except Exception Target :=
  match o with
  | .tree r => .ok (.rule r)
  | .text t => .ok (.subject (.reference t))
  | o => do
    let w ← o.toWire Rule.maxDepth
    .ok (.subject (.tree w))

def Object.toBool (o : Object) : Except Exception Bool :=
  match o with
  | .boolean b => .ok b
  | _ => .error (.bare .typeError)

/-- A count of one machine word; booleans count as 0 and 1. -/
def Object.toCount (o : Object) : Except Exception Nat :=
  match o with
  | .boolean b => .ok (if b then 1 else 0)
  | .integer i =>
    if 0 ≤ i && i < 2 ^ Settings.wordBits then .ok i.toNat else .error (.bare .overflowError)
  | _ => .error (.bare .typeError)

def Object.toPolicy (o : Object) : Except Exception FlattenPolicy := do
  match FlattenPolicy.ofText (← o.toText) with
  | .ok p => .ok p
  | .error e => .error ⟨.valueError, some e.message⟩

/-- The setting of a name: the entry of a mapping, or the attribute of any other object. -/
def Object.setting? (o : Object) (name : String) : Option Object :=
  match o with
  | .mapping entries => Object.given (Object.valueAt? entries name)
  | .bundle attributes => Object.given (attributes.lookup name.toList)
  | _ => none

def settingOr {α : Type} (standard : α) (read : Object → Except Exception α) :
    Option Object → Except Exception α
  | none => .ok standard
  | some o => read o

/-- Unchecked settings. What is not given is as in the standard ones. -/
def Object.toSettings (o : Object) : Except Exception Settings := do
  let policy ← settingOr Settings.standard.policy Object.toPolicy (o.setting? "flatten_policy")
  let caching ← settingOr Settings.standard.caching Object.toBool (o.setting? "parse_cache")
  let affix ← settingOr Settings.standard.affix Object.toText (o.setting? "combined_name_prefix")
  let letterCount ←
    settingOr Settings.standard.letterCount Object.toCount (o.setting? "combined_name_length")
  let logFilter ← (o.setting? "log_filter").mapM Object.toText
  .ok ⟨policy, caching, affix, letterCount, logFilter⟩

def checkSettings (s : Settings) : Except Exception Settings :=
  match s.check with
  | some (.ok ()) => .ok s
  | some (.error f) => .error (Exception.ofError (.invalidSettings f))
  | none => .error (.bare .panicException)

end Rulebook.Host
