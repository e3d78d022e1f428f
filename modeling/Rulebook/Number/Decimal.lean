import Rulebook.Number.Basic
import Rulebook.Text.Basic
set_option autoImplicit false

/-!
Decimal text of numbers. Reading accepts a sign, digits with an optional point (digits on at least one
side of it) and an optional exponent, and the words `nan`, `inf` and `infinity` in any case. Writing is
positional: the fewest digits that read back as the same number, of these the nearest, a half away from
zero, without a point when the number is whole.
-/

namespace Rulebook

/-- The value `digits * 10 ^ exponent`. -/
structure Decimal where
  digits : Nat
  exponent : Int
  deriving DecidableEq, Repr

namespace Decimal

/-- The exponent that follows an `e`: an optional sign and at least one digit. -/
def exponent? (t : Text) : Option Int :=
  match t with
  | '-' :: r => if Text.isDigits r then some (-(Text.digitsToNat r : Int)) else none
  | '+' :: r => if Text.isDigits r then some (Text.digitsToNat r) else none
  | r => if Text.isDigits r then some (Text.digitsToNat r) else none

/-- Digits after a leading point, and what follows them. -/
def fraction (t : Text) : Text × Text :=
  match t with
  | '.' :: r => (r.takeWhile Char.isDigit, r.dropWhile Char.isDigit)
  | r => ([], r)

def ofText? (t : Text) : Option Decimal :=
  let whole := t.takeWhile Char.isDigit
  let part := fraction (t.dropWhile Char.isDigit)
  if whole.isEmpty && part.1.isEmpty then none
  else
    let digits := Text.digitsToNat (whole ++ part.1)
    match part.2 with
    | [] => some ⟨digits, -(part.1.length : Int)⟩
    | e :: r =>
      if e = 'e' || e = 'E' then
        (exponent? r).map fun x => ⟨digits, x - part.1.length⟩
      else none

/-- Positional notation, with a digit on both sides of a point. -/
def text (d : Decimal) : Text :=
  let written := Text.ofNat d.digits
  match d.exponent with
  | .ofNat e => written ++ List.replicate e '0'
  | .negSucc e =>
    let places := e + 1
    if places < written.length then
      written.take (written.length - places) ++ '.' :: written.drop (written.length - places)
    else '0' :: '.' :: List.replicate (places - written.length) '0' ++ written

def strip (d : Decimal) : Decimal :=
  if d.digits % 10 = 0 then ⟨d.digits / 10, d.exponent + 1⟩ else d

end Decimal

namespace Number

def ofText? (t : Text) : Option Number :=
  let (negative, body) := match t with
    | '-' :: r => (true, r)
    | '+' :: r => (false, r)
    | r => (false, r)
  if Text.sameWord body "nan".toList then some .nan
  else if Text.sameWord body "inf".toList || Text.sameWord body "infinity".toList then
    some (.infinite negative)
  else (Decimal.ofText? body).map fun d => ofDecimal negative d.digits d.exponent

/-- The power of ten that a positive count of units reaches. -/
def leadingPlace (units : Nat) : Int :=
  if 2 ^ unitBits ≤ units then
    (Nat.toDigits 10 (units / 2 ^ unitBits)).length - 1
  else
    -((Nat.toDigits 10 ((2 ^ unitBits + units - 1) / units - 1)).length : Int)

/-- The two neighbours of a count on the decimal grid with the given place, the nearer one first and
of two equally near ones the greater. -/
def neighbours (units : Nat) (place : Int) : List Decimal :=
  let (p, q) := match place with
    | .ofNat e => (units, 2 ^ unitBits * 10 ^ e)
    | .negSucc e => (units * 10 ^ (e + 1), 2 ^ unitBits)
  let below := Decimal.mk (p / q) place
  let above := Decimal.mk (p / q + 1) place
  if q ≤ 2 * (p % q) then [above.strip, below.strip] else [below.strip, above.strip]

def readsAs (units : Nat) (d : Decimal) : Bool :=
  match ofDecimal false d.digits d.exponent with
  | .finite _ u _ => u == units
  | _ => false

def exactDecimal (units : Nat) : Decimal := ⟨units * 5 ^ unitBits, -unitBits⟩

/-- The first grid, from one digit to seventeen, with a neighbour that reads back. -/
def shortestDecimal (units : Nat) : Decimal :=
  ((List.range 17).findSome? fun (n : Nat) =>
    (neighbours units (leadingPlace units - n)).find? (readsAs units)).getD (exactDecimal units)

def unsignedText (units : Nat) : Text :=
  if units = 0 then ['0'] else (shortestDecimal units).text

def text : Number → Text
  | .nan => "NaN".toList
  | .infinite negative => if negative then "-inf".toList else "inf".toList
  | .finite negative units _ => if negative then '-' :: unsignedText units else unsignedText units

end Number
end Rulebook
