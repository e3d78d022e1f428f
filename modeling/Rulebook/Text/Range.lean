import Rulebook.Text.Basic
set_option autoImplicit false

namespace Rulebook.Text

/-- A character class is given by its ranges of code points, both ends included. -/
abbrev Ranges := List (Nat × Nat)

def Ranges.has (table : Ranges) (c : Char) : Bool :=
  table.any fun r => r.1 ≤ c.toNat && c.toNat ≤ r.2

end Rulebook.Text
