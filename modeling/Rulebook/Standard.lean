set_option autoImplicit false

/-!
Powers and hashes. There is more than one instance of each once Mathlib is there; with these in front, a
definition is the same term with and without it.
-/

namespace Rulebook

instance natPow : Pow Nat Nat := instPowNat

instance intPow : Pow Int Nat := instPowNat

instance charHash : Hashable Char := instHashableChar

end Rulebook
