import Mathlib.Data.List.TakeWhile
import Rulebook.Number.Decimal
import Rulebook.Proofs.Lexeme
set_option autoImplicit false

/-!
A finite number is written with a digit on both sides of any point and reads back as itself. The decimal
that is written reads as its count of units: it was found by reading it, or it is the exact one, and a
count that 53 bits hold is not rounded.
-/

namespace Rulebook

open Token (AllDigits IsFraction IsDecimal)

/-! ### Rounding what needs none -/

namespace Number

theorem divRound_mul (k : Nat) {m : Nat} (hm : 0 < m) : divRound (k * m) m = k := by
  simp [divRound, Nat.mul_div_cancel k hm, hm]

theorem pow_excess_dvd {units : Nat}
    (h : ∃ digits shift : Nat, digits < 2 ^ digitBits ∧ units = digits * 2 ^ shift) :
    2 ^ excess units ∣ units := by
  obtain ⟨digits, shift, hd, rfl⟩ := h
  by_cases hz : digits = 0
  · simp [hz]
  · refine Nat.dvd_mul_left_of_dvd (Nat.pow_dvd_pow 2 ?_) digits
    have hlt : digits * 2 ^ shift < 2 ^ (digitBits + shift) := by
      rw [Nat.pow_add]
      exact Nat.mul_lt_mul_of_pos_right hd (Nat.two_pow_pos shift)
    have hne : digits * 2 ^ shift ≠ 0 := Nat.mul_ne_zero hz (Nat.pos_iff_ne_zero.1 (Nat.two_pow_pos _))
    have hlog := (Nat.log2_lt hne).2 hlt
    unfold excess
    omega

theorem round_exact {units q : Nat}
    (h : ∃ digits shift : Nat, digits < 2 ^ digitBits ∧ units = digits * 2 ^ shift) (hq : 0 < q) :
    round (units * q) q = units := by
  obtain ⟨k, hk⟩ := pow_excess_dvd h
  have hpos : 0 < q * 2 ^ excess units := Nat.mul_pos hq (Nat.two_pow_pos _)
  have hcount : units * q = k * (q * 2 ^ excess units) := by
    conv => lhs; rw [hk]
    rw [Nat.mul_comm k, Nat.mul_right_comm, Nat.mul_comm _ q]
  have hround : divRound (units * q) (q * 2 ^ excess units) = k := by
    rw [hcount, divRound_mul k hpos]
  unfold round
  simp only [Nat.mul_div_cancel units hq, hround]
  rw [Nat.mul_comm]
  exact hk.symm

theorem ofRatio_exact {units q : Nat} (negative : Bool) (h : Representable units) (hq : 0 < q) :
    ofRatio negative (units * q) q = .finite negative units h := by
  have hround := round_exact h.2 hq
  rw [ofRatio, dif_pos (by rw [hround]; exact h.1)]
  simp only [hround]

theorem ofDecimal_negative {s : Bool} {digits units : Nat} {exponent : Int}
    {hu : Representable units} (h : ofDecimal false digits exponent = .finite s units hu)
    (negative : Bool) : ofDecimal negative digits exponent = .finite negative units hu := by
  have hratio : ∀ p q, ofRatio false p q = .finite s units hu →
      ofRatio negative p q = .finite negative units hu := by
    intro p q hpq
    unfold ofRatio at hpq ⊢
    split at hpq
    · rename_i hlt
      cases hpq
      rw [dif_pos hlt]
    · cases hpq
  have hzero : zero false = .finite s units hu → zero negative = .finite negative units hu := by
    intro hz
    cases hz
    rfl
  unfold ofDecimal at h ⊢
  split
  · rename_i hd
    rw [if_pos hd] at h
    exact hzero h
  · rename_i hd
    rw [if_neg hd] at h
    cases exponent with
    | ofNat e =>
      simp only at h ⊢
      split
      · rename_i he
        rw [if_pos he] at h
        cases h
      · rename_i he
        rw [if_neg he] at h
        exact hratio _ _ h
    | negSucc e =>
      simp only at h ⊢
      split
      · rename_i he
        rw [if_pos he] at h
        exact hzero h
      · rename_i he
        rw [if_neg he] at h
        exact hratio _ _ h

/-- Zeros at the end of a whole decimal may be written out. -/
theorem ofDecimal_scale {s : Bool} {digits units e : Nat} {hu : Representable units}
    (h : ofDecimal false digits (.ofNat e) = .finite s units hu) :
    ofDecimal false (digits * 10 ^ e) (.ofNat 0) = .finite s units hu := by
  unfold ofDecimal at h ⊢
  by_cases hd : digits = 0
  · rw [if_pos hd] at h
    rw [if_pos (by simp [hd])]
    exact h
  · have hpow : 10 ^ e ≠ 0 := Nat.pos_iff_ne_zero.1 (Nat.pow_pos (by decide))
    rw [if_neg hd] at h
    rw [if_neg (Nat.mul_ne_zero hd hpow)]
    simp only at h ⊢
    split at h
    · cases h
    · simpa using h

theorem pow_ten_le (k : Nat) : 10 ^ (10 * k) ≤ 5 ^ (15 * k) := by
  rw [Nat.pow_mul, Nat.pow_mul]
  exact Nat.pow_le_pow_left (by decide) k

theorem lt_length_toDigits {k n : Nat} (hk : 0 < k) (h : 10 ^ k ≤ n) :
    k < (Nat.toDigits 10 n).length := by
  have hiff := Nat.length_toDigits_le_iff (b := 10) (n := n) (by decide) hk
  exact Nat.not_le.1 fun hle => Nat.not_lt.2 h (hiff.1 hle)

/-- A positive count has so many exact digits that its exponent is in range. -/
theorem length_exact_digits {units : Nat} (hne : units ≠ 0) :
    unitBits ≤ (Nat.toDigits 10 (units * 5 ^ unitBits)).length + 401 := by
  obtain ⟨k, hk, hbits⟩ : ∃ k, 68 ≤ k ∧ 15 * k ≤ unitBits := ⟨71, by decide, by decide⟩
  have hmul : 5 ^ unitBits ≤ units * 5 ^ unitBits :=
    Nat.le_mul_of_pos_left _ (Nat.pos_of_ne_zero hne)
  have hpow : 5 ^ (15 * k) ≤ 5 ^ unitBits := Nat.pow_le_pow_right (by decide) hbits
  have hlarge := Nat.le_trans (pow_ten_le k) (Nat.le_trans hpow hmul)
  have hlength := lt_length_toDigits (by omega) hlarge
  have hunit : unitBits = 1074 := rfl
  omega

theorem ofDecimal_exact {units : Nat} (h : Representable units) (hne : units ≠ 0) :
    ofDecimal false (units * 5 ^ unitBits) (-unitBits) = .finite false units h := by
  obtain ⟨e, he⟩ : ∃ e, unitBits = e + 1 := ⟨1073, rfl⟩
  have hlength := length_exact_digits hne
  have hdigits : units * 5 ^ unitBits ≠ 0 :=
    Nat.mul_ne_zero hne (Nat.pos_iff_ne_zero.1 (Nat.pow_pos (by decide)))
  have hexp : (-unitBits : Int) = .negSucc e := by
    rw [he]
    rfl
  have hten : units * 5 ^ unitBits * 2 ^ unitBits = units * 10 ^ unitBits := by
    rw [Nat.mul_assoc, ← Nat.mul_pow]
  rw [hexp, ofDecimal, if_neg hdigits]
  rw [if_neg (by omega), hten, ← he]
  exact ofRatio_exact false h (Nat.pow_pos (by decide))

theorem readsAs_eq_true_iff {units : Nat} {d : Decimal} : readsAs units d = true ↔
    ∃ s hu, ofDecimal false d.digits d.exponent = .finite s units hu := by
  unfold readsAs
  cases ofDecimal false d.digits d.exponent with
  | nan => simp
  | infinite s => simp
  | finite s u hu =>
    simp only [beq_iff_eq, finite.injEq]
    constructor
    · rintro rfl
      exact ⟨s, hu, rfl, rfl⟩
    · rintro ⟨_, _, -, h⟩
      exact h

theorem readsAs_exactDecimal {units : Nat} (h : Representable units) (hne : units ≠ 0) :
    readsAs units (exactDecimal units) = true :=
  readsAs_eq_true_iff.2 ⟨false, h, ofDecimal_exact h hne⟩

theorem readsAs_shortestDecimal {units : Nat} (h : Representable units) (hne : units ≠ 0) :
    readsAs units (shortestDecimal units) = true := by
  unfold shortestDecimal
  cases hfound : (List.range 17).findSome? fun (n : Nat) =>
      (neighbours units (leadingPlace units - n)).find? (readsAs units) with
  | none => exact readsAs_exactDecimal h hne
  | some d =>
    obtain ⟨n, -, hn⟩ := List.exists_of_findSome?_eq_some hfound
    exact List.find?_some hn

end Number

/-! ### The text of a decimal -/

namespace Decimal

theorem ofText?_whole {whole : Text} (hne : whole ≠ []) (hw : AllDigits whole) :
    ofText? whole = some ⟨Text.digitsToNat whole, 0⟩ := by
  have htake : whole.takeWhile Char.isDigit = whole := List.takeWhile_eq_self_iff.2 hw
  have hdrop : whole.dropWhile Char.isDigit = [] := List.dropWhile_eq_nil_iff.2 hw
  simp [ofText?, htake, hdrop, fraction, hne]

theorem ofText?_point {whole digits : Text} (hne : whole ≠ []) (hw : AllDigits whole)
    (hd : AllDigits digits) :
    ofText? (whole ++ '.' :: digits) =
      some ⟨Text.digitsToNat (whole ++ digits), -(digits.length : Int)⟩ := by
  have htake : digits.takeWhile Char.isDigit = digits := List.takeWhile_eq_self_iff.2 hd
  have hdrop : digits.dropWhile Char.isDigit = [] := List.dropWhile_eq_nil_iff.2 hd
  have hpoint : ('.' :: digits).dropWhile Char.isDigit = '.' :: digits :=
    List.dropWhile_cons_of_neg (by decide)
  have hwhole : (whole ++ '.' :: digits).takeWhile Char.isDigit = whole := by
    rw [List.takeWhile_append_of_pos hw, List.takeWhile_cons_of_neg (by decide), List.append_nil]
  simp [ofText?, hwhole, List.dropWhile_append_of_pos hw, hpoint, fraction, htake, hdrop, hne]

theorem allDigits_ofNat (n : Nat) : AllDigits (Text.ofNat n) := fun _ hc =>
  Nat.isDigit_of_mem_toDigits (by decide) (by decide) hc

theorem ofNat_ne_nil (n : Nat) : Text.ofNat n ≠ [] := Nat.toDigits_ne_nil

theorem allDigits_replicate (n : Nat) : AllDigits (List.replicate n '0') := by
  intro c hc
  rw [List.eq_of_mem_replicate hc]
  decide

theorem allDigits_append {s t : Text} (hs : AllDigits s) (ht : AllDigits t) :
    AllDigits (s ++ t) := by
  intro c hc
  rcases List.mem_append.1 hc with h | h
  · exact hs c h
  · exact ht c h

theorem digitsToNat_zeros (n : Nat) (t : Text) :
    Text.digitsToNat ('0' :: (List.replicate n '0' ++ t)) = Text.digitsToNat t := by
  have hcons : '0' :: (List.replicate n '0' ++ t) = List.replicate (n + 1) '0' ++ t := rfl
  rw [hcons, Text.digitsToNat, Nat.ofDigitChars_append, Nat.ofDigitChars_replicate_zero,
    Nat.mul_zero, Text.digitsToNat]

/-- A written decimal is a whole number, or has as many places as its exponent says. -/
theorem text_cases (d : Decimal) :
    (∃ e, d.exponent = .ofNat e ∧ d.text ≠ [] ∧ AllDigits d.text ∧
      Text.digitsToNat d.text = d.digits * 10 ^ e) ∨
    (∃ whole digits, d.text = whole ++ '.' :: digits ∧ whole ≠ [] ∧ digits ≠ [] ∧
      AllDigits whole ∧ AllDigits digits ∧ Text.digitsToNat (whole ++ digits) = d.digits ∧
      d.exponent = -(digits.length : Int)) := by
  have hwritten := allDigits_ofNat d.digits
  have hvalue := Text.digitsToNat_ofNat d.digits
  unfold text
  cases he : d.exponent with
  | ofNat e =>
    refine .inl ⟨e, rfl, by simp [ofNat_ne_nil], allDigits_append hwritten
      (allDigits_replicate e), ?_⟩
    rw [Text.digitsToNat, Nat.ofDigitChars_append, Nat.ofDigitChars_replicate_zero, Nat.mul_comm]
    exact congrArg (· * 10 ^ e) hvalue
  | negSucc e =>
    refine .inr ?_
    dsimp only
    split
    · rename_i hlt
      have hplaces : ((Text.ofNat d.digits).drop ((Text.ofNat d.digits).length - (e + 1))).length =
          e + 1 := by
        rw [List.length_drop]
        omega
      refine ⟨_, _, rfl, ?_, ?_, fun c hc => hwritten c (List.mem_of_mem_take hc),
        fun c hc => hwritten c (List.mem_of_mem_drop hc), ?_, ?_⟩
      · refine List.length_pos_iff.1 ?_
        rw [List.length_take]
        omega
      · refine List.length_pos_iff.1 ?_
        omega
      · rw [List.take_append_drop, hvalue]
      · rw [hplaces]
        rfl
    · rename_i hle
      have hplaces : (List.replicate (e + 1 - (Text.ofNat d.digits).length) '0' ++
          Text.ofNat d.digits).length = e + 1 := by
        rw [List.length_append, List.length_replicate]
        omega
      refine ⟨['0'], List.replicate (e + 1 - (Text.ofNat d.digits).length) '0' ++
        Text.ofNat d.digits, rfl, by simp, by simp [ofNat_ne_nil], ?_,
        allDigits_append (allDigits_replicate _) hwritten, ?_, ?_⟩
      · exact allDigits_replicate 1
      · rw [List.singleton_append, digitsToNat_zeros, hvalue]
      · rw [hplaces]
        rfl

theorem text_eq_append (d : Decimal) : ∃ whole fraction, d.text = whole ++ fraction ∧
    whole ≠ [] ∧ AllDigits whole ∧ IsFraction fraction := by
  obtain ⟨-, -, hne, hd, -⟩ | ⟨whole, digits, ht, hne, hne', hw, hd, -⟩ := d.text_cases
  · exact ⟨d.text, [], by simp, hne, hd, .inl rfl⟩
  · exact ⟨whole, '.' :: digits, ht, hne, hw, .inr ⟨digits, rfl, hne', hd⟩⟩

/-- What is written reads as the same number, though its trailing zeros have become digits. -/
theorem ofText?_text {d : Decimal} {s : Bool} {units : Nat} {hu : Number.Representable units}
    (h : Number.ofDecimal false d.digits d.exponent = .finite s units hu) :
    ∃ e, ofText? d.text = some e ∧
      Number.ofDecimal false e.digits e.exponent = .finite s units hu := by
  obtain ⟨k, hk, hne, hd, hv⟩ | ⟨whole, digits, ht, hne, -, hw, hd, hv, he⟩ := d.text_cases
  · refine ⟨_, ofText?_whole hne hd, ?_⟩
    rw [hv]
    rw [hk] at h
    exact Number.ofDecimal_scale h
  · refine ⟨_, ht ▸ ofText?_point hne hw hd, ?_⟩
    rw [hv, ← he]
    exact h

end Decimal

/-! ### The text of a number -/

namespace Number

theorem unsignedText_eq {units : Nat} (h : Representable units) :
    ∃ d : Decimal, unsignedText units = d.text ∧
      ofDecimal false d.digits d.exponent = .finite false units h := by
  by_cases hz : units = 0
  · subst hz
    exact ⟨⟨0, 0⟩, by decide, rfl⟩
  · obtain ⟨s, hu, hs⟩ := readsAs_eq_true_iff.1 (readsAs_shortestDecimal h hz)
    exact ⟨shortestDecimal units, by simp [unsignedText, hz], ofDecimal_negative hs false⟩

theorem text_finite (negative : Bool) {units : Nat} (h : Representable units) :
    text (.finite negative units h) = (if negative then ['-'] else []) ++ unsignedText units := by
  cases negative <;> rfl

theorem isDecimal_text {n : Number} (h : n.isFinite = true) : IsDecimal n.text := by
  cases n with
  | nan => cases h
  | infinite negative => cases h
  | finite negative units hu =>
    obtain ⟨d, hd, -⟩ := unsignedText_eq hu
    obtain ⟨whole, fraction, ht, hne, hw, hf⟩ := d.text_eq_append
    refine ⟨if negative then ['-'] else [], whole, fraction, ?_, ?_, hne, hw, hf⟩
    · rw [text_finite, hd, ht]
    · cases negative <;> simp

/-- The words for what is not finite do not begin with a digit. -/
theorem sameWord_eq_false {c : Char} {rest : Text} (hc : c.isDigit = true) {w : Text}
    (hw : w ∈ ["nan".toList, "inf".toList, "infinity".toList]) :
    Text.sameWord (c :: rest) w = false := by
  have hlower := Token.ascii_of_forall
    (P := fun c => c.isDigit = true → c.toLower ≠ 'n' ∧ c.toLower ≠ 'i') (by decide)
    (Token.toNat_lt_of_isDigit hc) hc
  simp only [List.mem_cons, List.not_mem_nil, or_false] at hw
  rcases hw with rfl | rfl | rfl <;> simp [Text.sameWord, Text.lower, hlower]

theorem ofText?_digits {c : Char} {rest : Text} (hc : c.isDigit = true) (negative : Bool) :
    ofText? ((if negative then ['-'] else []) ++ c :: rest) =
      (Decimal.ofText? (c :: rest)).map fun d => ofDecimal negative d.digits d.exponent := by
  have hnan : Text.sameWord (c :: rest) "nan".toList = false := sameWord_eq_false hc (by simp)
  have hinf : Text.sameWord (c :: rest) "inf".toList = false := sameWord_eq_false hc (by simp)
  have hinfinity : Text.sameWord (c :: rest) "infinity".toList = false :=
    sameWord_eq_false hc (by simp)
  cases negative with
  | true => simp only [if_true, List.singleton_append, ofText?, hnan, hinf, hinfinity]; rfl
  | false =>
    have hminus : c ≠ '-' := by
      rintro rfl
      exact absurd hc (by decide)
    have hplus : c ≠ '+' := by
      rintro rfl
      exact absurd hc (by decide)
    simp only [Bool.false_eq_true, if_false, List.nil_append, ofText?]
    split
    · rename_i heq
      exact absurd (List.cons.inj heq).1 hminus
    · rename_i heq
      exact absurd (List.cons.inj heq).1 hplus
    · simp only [hnan, hinf, hinfinity]
      rfl

theorem ofText?_text {n : Number} (h : n.isFinite = true) : ofText? n.text = some n := by
  cases n with
  | nan => cases h
  | infinite negative => cases h
  | finite negative units hu =>
    obtain ⟨d, hd, hof⟩ := unsignedText_eq hu
    obtain ⟨whole, fraction, ht, hne, hw, -⟩ := d.text_eq_append
    obtain ⟨e, he, heof⟩ := Decimal.ofText?_text hof
    cases whole with
    | nil => exact absurd rfl hne
    | cons c rest =>
      rw [ht] at he
      rw [text_finite, hd, ht, List.cons_append, ofText?_digits (hw c (by simp))]
      rw [List.cons_append] at he
      rw [he, Option.map_some, ofDecimal_negative heof negative]

end Number
end Rulebook
