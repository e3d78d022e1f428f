import Rulebook.Error
import Rulebook.Rule.Json
set_option autoImplicit false

/-!
Trees as they travel: every node has a type and a text, and the children it happens to come with.
Decoding checks them and reads the texts; it takes no tree deeper than `Rule.maxDepth`.
-/

namespace Rulebook

namespace Wire

inductive NodeType where
  | operator | operand
  deriving DecidableEq, Repr

def NodeType.name : NodeType → Text
  | operator => "operator".toList
  | operand => "operand".toList

/-- Operands may also be called conditions. -/
def NodeType.ofName? (t : Text) : Option NodeType :=
  if t = "operator".toList then some operator
  else if t = "operand".toList ∨ t = "condition".toList then some operand
  else none

structure Label where
  type : NodeType
  value : Text
  deriving DecidableEq, Repr

end Wire

/-- A node has no child, one on the left, one on the right, or both. -/
inductive Wire where
  | bare (label : Wire.Label)
  | onLeft (label : Wire.Label) (left : Wire)
  | onRight (label : Wire.Label) (right : Wire)
  | both (label : Wire.Label) (left right : Wire)
  deriving DecidableEq, Repr

namespace Wire

def node (label : Label) : Option Wire → Option Wire → Wire
  | none, none => bare label
  | some l, none => onLeft label l
  | none, some r => onRight label r
  | some l, some r => both label l r

def operand (value : Text) : Wire := bare ⟨.operand, value⟩

def operator (value : Text) (left right : Option Wire) : Wire := node ⟨.operator, value⟩ left right

def label : Wire → Label
  | bare s | onLeft s _ | onRight s _ | both s _ _ => s

@[simp] theorem label_node (s : Label) (left right : Option Wire) :
    (node s left right).label = s := by
  cases left <;> cases right <;> rfl

def labelOf (r : Rule) : Label := ⟨if r.isCondition then .operand else .operator, r.value⟩

def ofRule : Rule → Wire
  | .condition c => bare (labelOf (.condition c))
  | .join op l r => both (labelOf (.join op l r)) (ofRule l) (ofRule r)
  | .not r => onLeft (labelOf (.not r)) (ofRule r)
  | .foreign o => bare (labelOf (.foreign o))
  | .foreignLeft o l => onLeft (labelOf (.foreignLeft o l)) (ofRule l)
  | .foreignRight o r => onRight (labelOf (.foreignRight o r)) (ofRule r)
  | .foreignBoth o l r => both (labelOf (.foreignBoth o l r)) (ofRule l) (ofRule r)

/-- What the text of an operator stands for, in any case and with blanks around it. -/
inductive Meaning where
  | connective (op : Connective)
  | denial
  | foreign
  deriving DecidableEq, Repr

def meaning (value : Text) : Meaning :=
  if Text.sameWord value.trim "AND".toList then .connective .and
  else if Text.sameWord value.trim "OR".toList then .connective .or
  else if Text.sameWord value.trim "NOT".toList then .denial
  else .foreign

/-- An operator over its decoded children. A foreign one keeps its text as it is. -/
def assemble (value : Text) (left right : Option Rule) : Except Error Rule :=
  match meaning value, left, right with
  | .connective op, some l, some r => .ok (.join op l r)
  | .connective op, _, _ => .error (.malformedTree (.joinWithoutBoth op))
  | .denial, some l, none => .ok (.not l)
  | .denial, _, _ => .error (.malformedTree .denialWithoutOne)
  | .foreign, l, r => .ok (Rule.foreignOf value l r)

def readOperand (value : Text) : Except Error Rule :=
  match Condition.ofText value with
  | .ok c => .ok (.condition c)
  | .error e => .error (.reading e)

/-- The root of a tree is on level 1. -/
def checkLevel (level : Nat) : Except Error Unit :=
  if Rule.maxDepth < level then .error (.malformedTree .tooDeep) else .ok ()

def checkOperator (label : Label) : Except Error Unit :=
  match label.type with
  | .operator => .ok ()
  | .operand => .error (.malformedTree (.operandWithChildren label.value))

def decode (level : Nat) : Wire → Except Error Rule
  | bare s => do
    checkLevel level
    match s.type with
    | .operand => readOperand s.value
    | .operator => assemble s.value none none
  | onLeft s l => do
    checkLevel level
    checkOperator s
    let left ← l.decode (level + 1)
    assemble s.value (some left) none
  | onRight s r => do
    checkLevel level
    checkOperator s
    let right ← r.decode (level + 1)
    assemble s.value none (some right)
  | both s l r => do
    checkLevel level
    checkOperator s
    let left ← l.decode (level + 1)
    let right ← r.decode (level + 1)
    assemble s.value (some left) (some right)

def toRule (w : Wire) : Except Error Rule := w.decode 1

def labelJson (s : Label) (children : List (String × Json)) : Json :=
  Json.record (("type", .ofText s.type.name) :: ("value", .ofText s.value) :: children)

def toJson : Wire → Json
  | bare s => labelJson s []
  | onLeft s l => labelJson s [("left", l.toJson)]
  | onRight s r => labelJson s [("right", r.toJson)]
  | both s l r => labelJson s [("left", l.toJson), ("right", r.toJson)]

def fieldNames : List Text := ["type".toList, "value".toList, "left".toList, "right".toList]

/-- A node type, as a string or as a key of null, which is one level of nesting more. -/
def NodeType.ofJson? (room : Nat) : Json → Option NodeType
  | .object members =>
    if room = 0 then none else (Json.object members).caseName?.bind NodeType.ofName?
  | j => j.caseName?.bind NodeType.ofName?

/-- A tree nested no deeper than `room`. A child may be null, which is no child. -/
def ofJson? : Nat → Json → Option Wire
  | 0, _ => none
  | room + 1, j =>
    match j.fields? fieldNames 2 with
    | some [some type, some value, left, right] => do
      let type ← NodeType.ofJson? room type
      let value ← value.text?
      let left ← childOf? (ofJson? room) left
      let right ← childOf? (ofJson? room) right
      some (node ⟨type, value⟩ left right)
    | _ => none
where
  childOf? (read : Json → Option Wire) : Option Json → Option (Option Wire)
    | none | some .null => some none
    | some j => (read j).map some

end Wire
end Rulebook
