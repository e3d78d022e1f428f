import Rulebook.Standard
set_option autoImplicit false

/-!
Numbers of the binary64 format, exactly. A finite number is a whole count of units of 2⁻¹⁰⁷⁴ with a
sign, so that both zeros are kept apart, and all arithmetic on it is arithmetic of natural numbers.
Rounding takes a quotient of natural numbers to the nearest count that 53 bits can hold, a half going
to the even neighbour.
-/

namespace Rulebook

namespace Number

/-- One is `2 ^ 1074` units. -/
def unitBits : Nat := 1074

/-- Finite counts are below `2 ^ 2098`, the count of `2 ^ 1024`. -/
def limitBits : Nat := 2098

def digitBits : Nat := 53

/-- The counts that so many bits and a shift can hold. -/
def Representable (units : Nat) : Prop :=
  units < 2 ^ limitBits ∧ ∃ digits shift : Nat, digits < 2 ^ digitBits ∧ units = digits * 2 ^ shift

/-- The quotient `p / q` rounded to a whole number, a half to the even neighbour. -/
def divRound (p q : Nat) : Nat :=
  let floor := p / q
  let rest := p % q
  if 2 * rest < q then floor
  else if q < 2 * rest then floor + 1
  else if floor % 2 = 0 then floor else floor + 1

/-- How many low bits a count must drop. -/
def excess (units : Nat) : Nat := units.log2 + 1 - digitBits

/-- The count nearest to `p / q` among the multiples of a power of two that keeps enough bits. -/
def round (p q : Nat) : Nat :=
  let shift := excess (p / q)
  divRound p (q * 2 ^ shift) * 2 ^ shift

theorem divRound_le (p q : Nat) : divRound p q ≤ p / q + 1 := by
  unfold divRound
  dsimp only
  split
  · omega
  · split
    · omega
    · split <;> omega

theorem lt_pow_excess (n : Nat) : n < 2 ^ (digitBits + excess n) := by
  by_cases h : n = 0
  · subst h
    exact Nat.two_pow_pos _
  · refine (Nat.log2_lt h).1 ?_
    unfold excess
    omega

theorem round_digits (p q : Nat) :
    ∃ digits shift : Nat, digits < 2 ^ digitBits ∧ round p q = digits * 2 ^ shift := by
  have hlt : p / q / 2 ^ excess (p / q) < 2 ^ digitBits := by
    rw [Nat.div_lt_iff_lt_mul (Nat.two_pow_pos _), ← Nat.pow_add]
    exact lt_pow_excess _
  have hle := divRound_le p (q * 2 ^ excess (p / q))
  rw [← Nat.div_div_eq_div_mul] at hle
  by_cases h : divRound p (q * 2 ^ excess (p / q)) < 2 ^ digitBits
  · exact ⟨_, _, h, rfl⟩
  · have hhalf : 2 ^ digitBits = 2 ^ (digitBits - 1) * 2 := rfl
    refine ⟨2 ^ (digitBits - 1), excess (p / q) + 1, by decide, ?_⟩
    have e : divRound p (q * 2 ^ excess (p / q)) = 2 ^ digitBits := by omega
    unfold round
    simp only [e, Nat.pow_succ]
    rw [hhalf, Nat.mul_assoc, Nat.mul_comm 2]

end Number

/-- Not a number, an infinity, or a finite count of units. -/
inductive Number where
  | nan
  | infinite (negative : Bool)
  | finite (negative : Bool) (units : Nat) (representable : Number.Representable units)
  deriving DecidableEq

namespace Number

/-- The number nearest to `p / q` units, or the infinity of its sign. -/
def ofRatio (negative : Bool) (p q : Nat) : Number :=
  if h : round p q < 2 ^ limitBits then .finite negative (round p q) ⟨h, round_digits p q⟩
  else .infinite negative

def zero (negative : Bool) : Number :=
  .finite negative 0 ⟨Nat.two_pow_pos _, 0, 0, by decide, by decide⟩

/-- The number nearest to `digits * 10 ^ exponent`. Exponents far outside the format are settled
without writing the power out. -/
def ofDecimal (negative : Bool) (digits : Nat) (exponent : Int) : Number :=
  if digits = 0 then zero negative
  else
    match exponent with
    | .ofNat e =>
      if 400 < e then .infinite negative
      else ofRatio negative (digits * 10 ^ e * 2 ^ unitBits) 1
    | .negSucc e =>
      if (Nat.toDigits 10 digits).length + 400 < e then zero negative
      else ofRatio negative (digits * 2 ^ unitBits) (10 ^ (e + 1))

def ofInt (i : Int) : Number := ofRatio (decide (i < 0)) (i.natAbs * 2 ^ unitBits) 1

def isFinite : Number → Bool
  | .finite .. => true
  | _ => false

/-- Where a number stands on the line, in units; both zeros at 0, and the infinities just past the
finite numbers. -/
def rank? : Number → Option Int
  | .nan => none
  | .infinite negative => some (if negative then -2 ^ limitBits else 2 ^ limitBits)
  | .finite negative units _ => some (if negative then -units else units)

def order? (a b : Number) : Option Ordering :=
  match a.rank?, b.rank? with
  | some i, some j => some (if i < j then .lt else if i = j then .eq else .gt)
  | _, _ => none

/-- Numeric equality: the zeros are equal, and what is not a number equals nothing. -/
def equal (a b : Number) : Bool := a.order? b == some .eq

end Number
end Rulebook
