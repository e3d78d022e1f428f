import Rulebook.Json.Basic
import Rulebook.Value.Basic
set_option autoImplicit false

namespace Rulebook.Value

/-- Booleans, numbers and strings are values, null and what has parts are not. -/
def ofJson? : Json → Option Value
  | .bool b => some (.boolean b)
  | .number n => n.toNumber?.map .number
  | .string t => t.map .string
  | .null | .array _ | .object _ => none

end Rulebook.Value
