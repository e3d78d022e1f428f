import Rulebook.Json.Basic
import Rulebook.Rule.Basic
set_option autoImplicit false

/-!
A rule as JSON: `type` and `value` of a node, then `left` and `right` where it has these children.
-/

namespace Rulebook.Rule

/-- The type of a node: only comparisons are operands. -/
def typeName (r : Rule) : Text := if r.isCondition then "operand".toList else "operator".toList

def nodeJson (r : Rule) (children : List (String × Json)) : Json :=
  Json.record (("type", .ofText r.typeName) :: ("value", .ofText r.value) :: children)

def toJson : Rule → Json
  | condition c => nodeJson (condition c) []
  | join op l r => nodeJson (join op l r) [("left", l.toJson), ("right", r.toJson)]
  | not r => nodeJson (not r) [("left", r.toJson)]
  | foreign o => nodeJson (foreign o) []
  | foreignLeft o l => nodeJson (foreignLeft o l) [("left", l.toJson)]
  | foreignRight o r => nodeJson (foreignRight o r) [("right", r.toJson)]
  | foreignBoth o l r => nodeJson (foreignBoth o l r) [("left", l.toJson), ("right", r.toJson)]

end Rulebook.Rule
