import Rulebook.Standard
set_option autoImplicit false

/-!
Text is a list of characters. This file holds what every reader and printer of the library uses:
the UTF-8 length by which places in a text are counted, words compared without regard to ASCII case,
and the order of texts.
-/

namespace Rulebook

abbrev Text := List Char

namespace Text

/-- Places in a text are counted in UTF-8 bytes. -/
def byteLength : Text → Nat
  | [] => 0
  | c :: t => c.utf8Size + byteLength t

@[simp] theorem byteLength_nil : byteLength [] = 0 := rfl

@[simp] theorem byteLength_cons (c : Char) (t : Text) :
    byteLength (c :: t) = c.utf8Size + byteLength t := rfl

@[simp] theorem byteLength_append (s t : Text) :
    byteLength (s ++ t) = byteLength s + byteLength t := by
  induction s with
  | nil => simp
  | cons c s ih => simp [ih, Nat.add_assoc]

theorem byteLength_of_ascii {t : Text} (h : ∀ c ∈ t, c.toNat < 128) :
    byteLength t = t.length := by
  induction t with
  | nil => rfl
  | cons c t ih =>
    have hc : c.utf8Size = 1 := by
      have hlt := h c (List.mem_cons_self ..)
      rw [Char.utf8Size_eq_one_iff, UInt32.le_iff_toNat_le]
      exact Nat.le_of_lt_succ hlt
    rw [byteLength_cons, List.length_cons, hc, ih fun x hx => h x (List.mem_cons_of_mem c hx)]
    omega

/-- Lower case of the ASCII letters; every other character stays. -/
def lower (t : Text) : Text := t.map Char.toLower

/-- Upper case of the ASCII letters; every other character stays. -/
def upper (t : Text) : Text := t.map Char.toUpper

theorem toUpper_of_le {c : Char} (h : 128 ≤ c.toNat) : c.toUpper = c := by
  have hbig : ¬(c.val ≥ 'a'.val ∧ c.val ≤ 'z'.val) := by
    rintro ⟨-, hle⟩
    have : c.toNat ≤ 122 := UInt32.le_iff_toNat_le.1 hle
    omega
  exact dif_neg hbig

theorem toLower_of_le {c : Char} (h : 128 ≤ c.toNat) : c.toLower = c := by
  have hbig : ¬(c.val ≥ 'A'.val ∧ c.val ≤ 'Z'.val) := by
    rintro ⟨-, hle⟩
    have : c.toNat ≤ 90 := UInt32.le_iff_toNat_le.1 hle
    omega
  exact dif_neg hbig

def sameWord (s t : Text) : Bool := s.lower == t.lower

/-- The order of texts is that of their first differing code points, a proper beginning being less. -/
def order : Text → Text → Ordering
  | [], [] => .eq
  | [], _ :: _ => .lt
  | _ :: _, [] => .gt
  | a :: s, b :: t => if a = b then order s t else if a < b then .lt else .gt

def ofNat (n : Nat) : Text := Nat.toDigits 10 n

def digitsToNat (digits : Text) : Nat := Nat.ofDigitChars 10 digits 0

@[simp] theorem digitsToNat_ofNat (n : Nat) : digitsToNat (ofNat n) = n := by
  simp [digitsToNat, ofNat]

def isDigits (t : Text) : Bool := !t.isEmpty && t.all Char.isDigit

end Text
end Rulebook
