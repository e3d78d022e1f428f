import Rulebook.Host.Argument
import Rulebook.Proofs.WireFormat
set_option autoImplicit false

/-!
Mappings of the host. The one that a rule is given out as reads as the tree that the rule travels as, and
any list of entries can be passed as one that reads as their record.
-/

namespace Rulebook.Host

/-! ### Rules -/

def childEntries (left right : Option Object) : List (String × Object) :=
  (left.map fun o => ("left", o)).toList ++ (right.map fun o => ("right", o)).toList

theorem ruleObject_eq (r : Rule) : ruleObject r =
    nodeObject r (childEntries (r.left?.map ruleObject) (r.right?.map ruleObject)) := by
  cases r <;> rfl

theorem given_ruleObject (child : Option Rule) :
    Object.given (child.map ruleObject) = child.map ruleObject := by
  cases child with
  | none => rfl
  | some r => cases r <;> rfl

theorem mapM_toWire_ok {child : Option Rule} {room : Nat}
    (h : ∀ c ∈ child, (ruleObject c).toWire room = .ok (Wire.ofRule c)) :
    (Object.given (child.map ruleObject)).mapM (Object.toWire room) =
      .ok (child.map Wire.ofRule) := by
  rw [given_ruleObject]
  cases child with
  | none => rfl
  | some c => simp [h c rfl]

theorem ofName?_typeName (r : Rule) :
    Wire.NodeType.ofName? r.typeName = some (Wire.labelOf r).type := by
  cases h : r.isCondition <;> simp [Rule.typeName, Wire.labelOf, h] <;> rfl

/-- A node and then its children, as the decoder meets them. -/
theorem toWire_nodeObject (room : Nat) (r : Rule) (left right : Option Object) :
    (nodeObject r (childEntries left right)).toWire (room + 1) = (do
      let l ← (Object.given left).mapM (Object.toWire room)
      let r' ← (Object.given right).mapM (Object.toWire room)
      .ok (Wire.node (Wire.labelOf r) l r')) := by
  let entries : List (Object × Object) := (("type", .text r.typeName) :: ("value", .text r.value) ::
    childEntries left right).map fun m => (.text m.1.toList, m.2)
  have htype : Object.valueAt? entries "type" = some (.text r.typeName) := by
    simp [entries, Object.valueAt?, Object.text?]
  have hvalue : Object.valueAt? entries "value" = some (.text r.value) := by
    simp [entries, Object.valueAt?, Object.text?]
  have hleft : Object.valueAt? entries "left" = left := by
    cases left <;> cases right <;>
      simp [entries, Object.valueAt?, Object.text?, childEntries]
  have hright : Object.valueAt? entries "right" = right := by
    cases left <;> cases right <;>
      simp [entries, Object.valueAt?, Object.text?, childEntries]
  have hentries : nodeObject r (childEntries left right) = .mapping entries := rfl
  rw [hentries, Object.toWire, htype, hvalue, hleft, hright]
  simp only [required, Object.toText, ofName?_typeName, bind, Except.bind]
  rfl

/-- The mapping of a rule reads as the tree that it travels as. -/
theorem toWire_ruleObject {r : Rule} {room : Nat} (h : r.depth ≤ room) :
    (ruleObject r).toWire room = .ok (Wire.ofRule r) := by
  induction room generalizing r with
  | zero => exact absurd r.depth_pos (Nat.not_lt.2 h)
  | succ room ih =>
    have hchild (c : Rule) (hc : c.IsChild r) : (ruleObject c).toWire room = .ok (Wire.ofRule c) :=
      ih (by have := Rule.depth_lt_of_isChild hc; omega)
    have hwire : Wire.ofRule r =
        Wire.node (Wire.labelOf r) (r.left?.map Wire.ofRule) (r.right?.map Wire.ofRule) := by
      cases r <;> rfl
    rw [ruleObject_eq, toWire_nodeObject, mapM_toWire_ok fun c hc => hchild c (.inl hc),
      mapM_toWire_ok fun c hc => hchild c (.inr hc), hwire]
    rfl

/-! ### Records -/

def valueObject : Value → Object
  | .boolean b => .boolean b
  | .number n => .float n
  | .string t => .text t

def dataObject (entries : List (Text × Value)) : Object :=
  .mapping (entries.map fun e => (.text e.1, valueObject e.2))

theorem toValue_valueObject (v : Value) : (valueObject v).toValue = .ok v := by
  cases v <;> rfl

/-- Every record of entries can be passed as a mapping, numbers that are not finite included. -/
theorem toData_dataObject (entries : List (Text × Value)) :
    (dataObject entries).toData = .ok (Data.ofList entries) := by
  have hentry (e : Text × Value) : toEntry (.text e.1, valueObject e.2) = .ok e := by
    simp only [toEntry, Object.toText, toValue_valueObject]
    rfl
  have hentries : (entries.map fun e => (Object.text e.1, valueObject e.2)).mapM toEntry =
      .ok entries := by
    induction entries with
    | nil => rfl
    | cons e entries ih =>
      rw [List.map_cons, List.mapM_cons, hentry, ih]
      rfl
  rw [dataObject, Object.toData, hentries]
  rfl

end Rulebook.Host
