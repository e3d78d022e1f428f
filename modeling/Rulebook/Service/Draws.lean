import Rulebook.Text.Basic
set_option autoImplicit false

/-!
The letters in the names of combined rules are drawn. Draws come from outside; here is what they are,
and one sequence of them for a service that has no source of its own.
-/

namespace Rulebook

/-- For each attempt at a name and each place in it, one of the letters. -/
abbrev Draws := Nat → Nat → Fin 52

namespace Draws

def letter (i : Fin 52) : Char :=
  if i.val < 26 then Char.ofNat ('a'.toNat + i.val) else Char.ofNat ('A'.toNat + i.val - 26)

def letters (draws : Draws) (attempt count : Nat) : Text :=
  (List.range count).map fun place => letter (draws attempt place)

def maxAttempts : Nat := 16

/-- The draws of a numbered name: attempts are numbered through over all names and written to base 52,
with the digits stirred. -/
def numbered (n : Nat) : Draws := fun attempt place =>
  let number := n * maxAttempts + attempt
  ⟨(number / 52 ^ place % 52 * 23 + 11 * place) % 52, Nat.mod_lt _ (by decide)⟩

end Draws
end Rulebook
