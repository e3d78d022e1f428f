import Rulebook.Proofs.JsonText
import Rulebook.Proofs.NumberText
set_option autoImplicit false

/-!
Numbers read from JSON. A numeral is read exactly if its digits make a count that 53 bits hold and its point
has no more than 22 of them behind it: the significand and the power of ten are then exact, and only their
quotient is rounded.
-/

namespace Rulebook

open Token (AllDigits)

namespace Number

theorem divRound_scale (p q : Nat) {k : Nat} (hk : 0 < k) : divRound (p * k) (q * k) = divRound p q := by
  unfold divRound
  simp only [Nat.mul_div_mul_right p q hk, Nat.mul_mod_mul_right]
  have hlt (a b : Nat) : a * k < b * k ↔ a < b := Nat.mul_lt_mul_right hk
  simp only [← Nat.mul_assoc, hlt]

theorem round_scale (p q : Nat) {k : Nat} (hk : 0 < k) : round (p * k) (q * k) = round p q := by
  unfold round
  simp only [Nat.mul_div_mul_right p q hk, Nat.mul_right_comm q k, divRound_scale _ _ hk]

theorem ofRatio_round (negative : Bool) (p q : Nat) :
    ofRatio negative (round p q) 1 = ofRatio negative p q := by
  have hround : round (round p q) 1 = round p q := by
    have h := round_exact (round_digits p q) Nat.one_pos
    rwa [Nat.mul_one] at h
  unfold ofRatio
  simp only [hround]

theorem round_zero (q : Nat) : round 0 q = 0 := by
  simp [round, divRound, excess]

theorem ofRatio_zero (negative : Bool) (q : Nat) : ofRatio negative 0 q = zero negative := by
  have hlt : round 0 q < 2 ^ limitBits := by
    rw [round_zero]
    exact Nat.two_pow_pos _
  rw [ofRatio, dif_pos hlt]
  simp only [round_zero, zero]

/-- A whole decimal or one with places behind its point is a quotient. -/
theorem ofDecimal_places (negative : Bool) (digits : Nat) {places : Nat} (h : places ≤ 400) :
    ofDecimal negative digits (-(places : Int)) =
      ofRatio negative (digits * 2 ^ unitBits) (10 ^ places) := by
  unfold ofDecimal
  split
  · rename_i hzero
    rw [hzero, Nat.zero_mul, ofRatio_zero]
  · cases places with
    | zero => simp
    | succ k =>
      have hneg : -((k + 1 : Nat) : Int) = .negSucc k := rfl
      have hk : ¬(Nat.toDigits 10 digits).length + 400 < k := by omega
      rw [hneg]
      exact if_neg hk

end Number

namespace Json.Numeral

/-- The digits before and behind the point. -/
def digits (n : Numeral) : Text := n.whole ++ n.fraction

/-- Digits up to `2 ^ 53`, at most 22 of them behind the point, and no exponent. -/
structure Short (n : Numeral) : Prop where
  exponent : n.exponent = none
  places : n.fraction.length ≤ 22
  digits_le : Text.digitsToNat n.digits ≤ 2 ^ Number.digitBits

variable {n : Numeral}

theorem le_ofDigitChars (t : Text) (s : Nat) : s ≤ Nat.ofDigitChars 10 t s := by
  induction t generalizing s with
  | nil => exact Nat.le_refl s
  | cons c t ih =>
    have hstep := ih (10 * s + (c.toNat - '0'.toNat))
    rw [Nat.ofDigitChars_cons]
    omega

theorem appendDigit_eq (s : Nat) (c : Char) : appendDigit s c = 10 * s + (c.toNat - '0'.toNat) := by
  rw [appendDigit, Nat.mul_comm]

theorem gatherWhole_eq {t : Text} {s : Nat} (h : Nat.ofDigitChars 10 t s < 2 ^ wordBits) :
    gatherWhole s t = (Nat.ofDigitChars 10 t s, 0) := by
  induction t generalizing s with
  | nil => rfl
  | cons c t ih =>
    rw [Nat.ofDigitChars_cons, ← appendDigit_eq] at h ⊢
    have hfits := Nat.lt_of_le_of_lt (le_ofDigitChars t _) h
    rw [gatherWhole, if_pos hfits, ih h]

theorem gatherFraction_eq {t : Text} {s : Nat} (h : Nat.ofDigitChars 10 t s < 2 ^ wordBits) :
    gatherFraction s t = (Nat.ofDigitChars 10 t s, t.length) := by
  induction t generalizing s with
  | nil => rfl
  | cons c t ih =>
    rw [Nat.ofDigitChars_cons, ← appendDigit_eq] at h ⊢
    have hfits := Nat.lt_of_le_of_lt (le_ofDigitChars t _) h
    rw [gatherFraction, if_pos hfits, ih h]
    rfl

theorem tenPower_eq {k : Nat} (h : k ≤ 22) : tenPower k = 10 ^ k * 2 ^ Number.unitBits := by
  have hfive : 5 ^ k < 2 ^ Number.digitBits :=
    Nat.lt_of_le_of_lt (Nat.pow_le_pow_right (by decide) h) (by decide)
  have hcount : 10 ^ k * 2 ^ Number.unitBits = 5 ^ k * 2 ^ (k + Number.unitBits) := by
    rw [Nat.pow_add, ← Nat.mul_assoc, ← Nat.mul_pow]
  have hround := Number.round_exact ⟨5 ^ k, k + Number.unitBits, hfive, hcount⟩ Nat.one_pos
  rwa [Nat.mul_one] at hround

theorem round_significand {s : Nat} (h : s ≤ 2 ^ Number.digitBits) :
    Number.round (s * 2 ^ Number.unitBits) 1 = s * 2 ^ Number.unitBits := by
  have hcount : ∃ digits shift : Nat, digits < 2 ^ Number.digitBits ∧
      s * 2 ^ Number.unitBits = digits * 2 ^ shift := by
    obtain hlt | rfl := Nat.lt_or_eq_of_le h
    · exact ⟨s, Number.unitBits, hlt, rfl⟩
    · exact ⟨1, Number.digitBits + Number.unitBits, by decide, by rw [Nat.one_mul, Nat.pow_add]⟩
  have hround := Number.round_exact hcount Nat.one_pos
  rwa [Nat.mul_one] at hround

theorem divideBy_eq (s : Nat) {k : Nat} (hk : k ≤ 22) :
    divideBy (s * 2 ^ Number.unitBits) k = Number.round (s * 2 ^ Number.unitBits) (10 ^ k) := by
  rw [divideBy, tenPower_eq hk, Number.round_scale _ _ (Nat.two_pow_pos _)]

theorem mul_two_pow_lt {s a b c : Nat} (h : s ≤ 2 ^ a) (hc : a + b < c) : s * 2 ^ b < 2 ^ c := by
  calc s * 2 ^ b
    _ ≤ 2 ^ a * 2 ^ b := Nat.mul_le_mul_right _ h
    _ = 2 ^ (a + b) := (Nat.pow_add 2 a b).symm
    _ < 2 ^ c := Nat.pow_lt_pow_right Nat.one_lt_two hc

theorem scale_eq {s k : Nat} (hs : s ≤ 2 ^ Number.digitBits) (hk : k ≤ 22) :
    scale s (-(k : Int)) = some (Number.round (s * 2 ^ Number.unitBits) (10 ^ k)) := by
  cases k with
  | zero =>
    have hunits : Number.round (s * 2 ^ Number.unitBits * tenPower 0) (2 ^ Number.unitBits) =
        s * 2 ^ Number.unitBits := by
      have hscale := Number.round_scale (s * 2 ^ Number.unitBits) 1 (Nat.two_pow_pos Number.unitBits)
      rw [Nat.one_mul, round_significand hs] at hscale
      rw [tenPower_eq hk, Nat.pow_zero, Nat.one_mul, hscale]
    have hlt : s * 2 ^ Number.unitBits < 2 ^ Number.limitBits :=
      mul_two_pow_lt hs (by decide)
    have hzero : -((0 : Nat) : Int) = .ofNat 0 := rfl
    rw [hzero, scale, round_significand hs]
    simp only [hunits, if_pos hlt, Nat.not_lt_zero, if_false, Nat.pow_zero, round_significand hs]
  | succ k =>
    have hneg : -((k + 1 : Nat) : Int) = .negSucc k := rfl
    have hsteps : k / maxStep = 0 := Nat.div_eq_of_lt (by rw [maxStep]; omega)
    rw [hneg, scale, round_significand hs]
    simp only [hsteps, shrink, Nat.zero_mul, Nat.sub_zero, divideBy_eq s hk]

theorem Short.toNumber?_eq (h : n.Short) :
    n.toNumber? = some (Number.ofDecimal n.negative (Text.digitsToNat n.digits)
      (-(n.fraction.length : Int))) := by
  have hfits : Nat.ofDigitChars 10 n.fraction (Nat.ofDigitChars 10 n.whole 0) < 2 ^ wordBits := by
    rw [← Nat.ofDigitChars_append]
    exact Nat.lt_of_le_of_lt h.digits_le (by decide)
  have hwhole := gatherWhole_eq (Nat.lt_of_le_of_lt (le_ofDigitChars _ _) hfits)
  have hdigits : Nat.ofDigitChars 10 n.fraction (Nat.ofDigitChars 10 n.whole 0) =
      Text.digitsToNat n.digits := by
    rw [← Nat.ofDigitChars_append]
    rfl
  have hexponent : ((0 : Nat) : Int) - n.fraction.length + 0 = -(n.fraction.length : Int) := by omega
  have hplaces : n.fraction.length ≤ 400 := Nat.le_trans h.places (by decide)
  simp only [toNumber?, hwhole, gatherFraction_eq hfits, h.exponent, hdigits]
  rw [hexponent, scale_eq h.digits_le h.places, Option.map_some, Number.ofRatio_round,
    Number.ofDecimal_places _ _ hplaces]

/-- Digits with a first one that is not zero, and none but digits behind the point. -/
theorem proper_of_digits {negative : Bool} {whole fraction : Text} (hne : whole ≠ [])
    (hz : whole.head? ≠ some '0') (hw : whole.all Char.isDigit = true)
    (hf : fraction.all Char.isDigit = true) : Proper ⟨negative, whole, fraction, none⟩ where
  whole := .inr ⟨hne, hz, List.all_eq_true.1 hw⟩
  fraction := List.all_eq_true.1 hf
  exponent e he := by cases he

theorem Proper.allDigits_whole (hp : n.Proper) : AllDigits n.whole := by
  obtain hwhole | ⟨-, -, hdigits⟩ := hp.whole
  · rw [hwhole]
    exact Decimal.allDigits_replicate 1
  · exact hdigits

/-- The decimal that a numeral without exponent spells. -/
theorem decimal_ofText? (hp : n.Proper) (he : n.exponent = none) :
    ∃ c rest, c.isDigit = true ∧ n.text = (if n.negative then ['-'] else []) ++ c :: rest ∧
      Decimal.ofText? (c :: rest) = some ⟨Text.digitsToNat n.digits, -(n.fraction.length : Int)⟩ := by
  obtain ⟨c, rest, hwhole, hc⟩ := hp.whole_head
  have hne : n.whole ≠ [] := by simp [hwhole]
  have hdigits := hp.allDigits_whole
  cases hf : n.fraction with
  | nil =>
    refine ⟨c, rest, hc, by simp [text, hf, he, hwhole], ?_⟩
    rw [← hwhole, Decimal.ofText?_whole hne hdigits]
    simp [digits, hf]
  | cons d ds =>
    refine ⟨c, rest ++ '.' :: n.fraction, hc, by simp [text, hf, he, hwhole], ?_⟩
    rw [← List.cons_append, ← hwhole, Decimal.ofText?_point hne hdigits hp.fraction, digits, hf]

/-- What is read of a short numeral is the number nearest to its decimal, as in the text of a rule. -/
theorem Short.ofText?_text (h : n.Short) (hp : n.Proper) :
    Number.ofText? n.text = n.toNumber? := by
  obtain ⟨c, rest, hc, htext, hdecimal⟩ := decimal_ofText? hp h.exponent
  rw [htext, Number.ofText?_digits hc, hdecimal, h.toNumber?_eq, Option.map_some]

end Json.Numeral
end Rulebook
