import Rulebook.Number.Basic
import Rulebook.Text.Basic
set_option autoImplicit false

/-!
Numbers as a JSON text spells them, and the binary64 number each stands for. The digits are gathered
into a 64-bit significand; those that no longer fit are dropped, a whole one counting as a power of ten.
The significand is rounded, then multiplied or divided by the power of ten, and rounded again. A number
past the finite ones has no value.
-/

namespace Rulebook.Json

/-- The parts of a JSON number. Without a fraction its digits are empty. -/
structure Numeral where
  negative : Bool
  whole : Text
  fraction : Text
  exponent : Option (Bool × Text)
  deriving DecidableEq, Repr

namespace Numeral

def ofNat (n : Nat) : Numeral := ⟨false, Text.ofNat n, [], none⟩

def text (n : Numeral) : Text :=
  (if n.negative then ['-'] else []) ++ n.whole ++
    (if n.fraction.isEmpty then [] else '.' :: n.fraction) ++
    match n.exponent with
    | none => []
    | some (negative, digits) => 'e' :: (if negative then ['-'] else []) ++ digits

def isInteger (n : Numeral) : Bool := n.fraction.isEmpty && n.exponent.isNone

def toInt? (n : Numeral) : Option Int :=
  if n.isInteger then
    some (if n.negative then -(Text.digitsToNat n.whole : Int) else Text.digitsToNat n.whole)
  else none

/-- Whole numbers are read into so many bits. -/
def wordBits : Nat := 64

/-- An integer without a sign that fits. -/
def toCount? (n : Numeral) : Option Nat :=
  if n.isInteger && !n.negative && Text.digitsToNat n.whole < 2 ^ wordBits then
    some (Text.digitsToNat n.whole)
  else none

def appendDigit (significand : Nat) (c : Char) : Nat := significand * 10 + (c.toNat - '0'.toNat)

/-- The significand after the whole digits, and how many of them it could not take. -/
def gatherWhole : Nat → Text → Nat × Nat
  | significand, [] => (significand, 0)
  | significand, c :: r =>
    if appendDigit significand c < 2 ^ wordBits then gatherWhole (appendDigit significand c) r
    else (significand, r.length + 1)

/-- The significand after the digits of the fraction, and how many of them it took. -/
def gatherFraction : Nat → Text → Nat × Nat
  | significand, [] => (significand, 0)
  | significand, c :: r =>
    if appendDigit significand c < 2 ^ wordBits then
      let (s, taken) := gatherFraction (appendDigit significand c) r
      (s, taken + 1)
    else (significand, 0)

def tenPower (k : Nat) : Nat := Number.round (10 ^ k * 2 ^ Number.unitBits) 1

def divideBy (units k : Nat) : Nat := Number.round (units * 2 ^ Number.unitBits) (tenPower k)

/-- The greatest power of ten that is used in one step. -/
def maxStep : Nat := 308

/-- So many divisions by the greatest step, until nothing is left. -/
def shrink : Nat → Nat → Nat
  | 0, units => units
  | steps + 1, units => if units = 0 then 0 else shrink steps (divideBy units maxStep)

/-- A significand times a power of ten, in units; none when it is past the finite numbers. -/
def scale (significand : Nat) (exponent : Int) : Option Nat :=
  let start := Number.round (significand * 2 ^ Number.unitBits) 1
  match exponent with
  | .ofNat e =>
    if maxStep < e then if start = 0 then some 0 else none
    else
      let units := Number.round (start * tenPower e) (2 ^ Number.unitBits)
      if units < 2 ^ Number.limitBits then some units else none
  | .negSucc e =>
    let steps := e / maxStep
    some (divideBy (shrink steps start) (e + 1 - steps * maxStep))

def toNumber? (n : Numeral) : Option Number :=
  let (head, dropped) := gatherWhole 0 n.whole
  let (significand, taken) := gatherFraction head n.fraction
  let written : Int :=
    match n.exponent with
    | none => 0
    | some (negative, digits) =>
      if negative then -(Text.digitsToNat digits : Int) else Text.digitsToNat digits
  (scale significand (dropped - taken + written)).map fun units => Number.ofRatio n.negative units 1

end Numeral
end Rulebook.Json
