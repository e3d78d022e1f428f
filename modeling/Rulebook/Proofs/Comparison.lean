import Rulebook.Proofs.NumberText
import Rulebook.Value.Comparison
set_option autoImplicit false

/-!
Comparing a number with a string that looks numeric. The string stands for the number that it spells,
which is a number of the line: only what is not a number is in no order with it. That one alone is
compared with the string otherwise than with the number, for the comparison has no outcome where that of
two numbers would be false.
-/

namespace Rulebook

namespace Number

/-- Only what is not a number is in no order. -/
theorem order?_eq_none_iff {a b : Number} : a.order? b = none ↔ a = nan ∨ b = nan := by
  cases a <;> cases b <;> simp [order?, rank?]

theorem ofRatio_ne_nan (negative : Bool) (p q : Nat) : ofRatio negative p q ≠ nan := by
  unfold ofRatio
  split <;> simp

theorem ofDecimal_ne_nan (negative : Bool) (digits : Nat) (exponent : Int) :
    ofDecimal negative digits exponent ≠ nan := by
  unfold ofDecimal
  split
  · simp [zero]
  · split
    · split
      · simp
      · exact ofRatio_ne_nan _ _ _
    · split
      · simp [zero]
      · exact ofRatio_ne_nan _ _ _

/-- The word for what is not a number has characters that are not numeric. -/
theorem not_sameWord_nan {t : Text} (h : t.all Value.isNumericChar = true) :
    Text.sameWord t "nan".toList = false := by
  cases t with
  | nil => rfl
  | cons c t =>
    have hc : Value.isNumericChar c = true := List.all_eq_true.1 h c (by simp)
    have hlower : c.toLower ≠ 'n' := by
      simp only [Value.isNumericChar, Bool.or_eq_true, decide_eq_true_eq] at hc
      obtain ((((hc | rfl) | rfl) | rfl) | rfl) | rfl := hc
      · exact Token.ascii_of_forall (P := fun c => c.isDigit = true → c.toLower ≠ 'n') (by decide)
          (Token.toNat_lt_of_isDigit hc) hc
      all_goals decide
    simp [Text.sameWord, Text.lower, hlower]

/-- Behind the sign: no word for what is not a number, and no decimal is one. -/
theorem unsigned_ne_nan {body : Text} (h : body.all Value.isNumericChar = true) {negative : Bool}
    {m : Number}
    (hm : (if Text.sameWord body "nan".toList then some nan
      else if Text.sameWord body "inf".toList || Text.sameWord body "infinity".toList then
        some (infinite negative)
      else (Decimal.ofText? body).map fun d => ofDecimal negative d.digits d.exponent) = some m) :
    m ≠ nan := by
  rw [not_sameWord_nan h, if_neg Bool.false_ne_true] at hm
  split at hm
  · cases hm
    simp
  · obtain ⟨d, -, rfl⟩ := Option.map_eq_some_iff.1 hm
    exact ofDecimal_ne_nan _ _ _

theorem ofText?_ne_nan {t : Text} {m : Number} (h : t.all Value.isNumericChar = true)
    (hm : ofText? t = some m) : m ≠ nan := by
  unfold ofText? at hm
  split at hm
  rename_i negative body hsign
  refine unsigned_ne_nan ?_ hm
  split at hsign
  · cases hsign
    exact (Bool.and_eq_true_iff.1 h).2
  · cases hsign
    exact (Bool.and_eq_true_iff.1 h).2
  · cases hsign
    exact h

end Number

namespace Value

theorem numeric?_eq_some {t : Text} {m : Number} (hdigit : t.trim.any Char.isDigit = true)
    (hchars : t.trim.all isNumericChar = true) (hm : Number.ofText? t.trim = some m) :
    numeric? t = some m := by
  simp [numeric?, hdigit, hchars, hm]

variable {a b : Value} {c : Comparator}

theorem compare_of_equality (h : c.isOrdering = false) (a b : Value) :
    compare a c b = some (if c = .equal then (pair a b).equal else !(pair a b).equal) := by
  cases c with
  | equal | notEqual => rfl
  | _ => cases h

theorem compare_of_order {o : Ordering} (ho : (pair a b).order? = some o) (h : c.isOrdering = true) :
    compare a c b = some (c.holds o) := by
  cases c with
  | equal | notEqual => cases h
  | _ => simp only [compare, ho]

/-- Where an ordering finds no order, two numbers are told from everything else. -/
theorem compare_of_no_order (ho : (pair a b).order? = none) (h : c.isOrdering = true) :
    compare a c b = if a.kind = .number ∧ b.kind = .number then some false else none := by
  cases c with
  | equal | notEqual => cases h
  | _ => cases a <;> cases b <;> simp only [compare, ho] <;> rfl

/-- What is brought to the same pair is compared alike where the pair has an order. Where it has none, an
ordering has no outcome, unless the values are two numbers. -/
theorem compare_eq_of_pair {a' b' : Value} (hp : pair a b = pair a' b')
    (hkind : a.kind ≠ .number ∨ b.kind ≠ .number) (c : Comparator) :
    compare a c b =
      if (pair a' b').order? = none ∧ c.isOrdering = true then none else compare a' c b' := by
  cases hc : c.isOrdering with
  | false => simp only [compare_of_equality hc, hp, Bool.false_eq_true, and_false, if_false]
  | true =>
    cases ho : (pair a' b').order? with
    | none =>
      have hnumbers : ¬(a.kind = .number ∧ b.kind = .number) := fun h => hkind.elim (· h.1) (· h.2)
      rw [compare_of_no_order (hp ▸ ho) hc, if_neg hnumbers, if_pos ⟨rfl, rfl⟩]
    | some o =>
      rw [compare_of_order (hp ▸ ho) hc, compare_of_order ho hc, if_neg (by simp)]

/-- A string that looks numeric is compared like the number that it spells, on either side and by every
comparator, except that what is not a number has no outcome with it in an ordering. With the number
itself the outcome is false. -/
theorem compare_numeric_text {t : Text} {m : Number} (hdigit : t.trim.any Char.isDigit = true)
    (hchars : t.trim.all isNumericChar = true) (hm : Number.ofText? t.trim = some m) (n : Number)
    (c : Comparator) :
    (compare (.number n) c (.string t) =
      if n = .nan ∧ c.isOrdering = true then none else compare (.number n) c (.number m)) ∧
    (compare (.string t) c (.number n) =
      if n = .nan ∧ c.isOrdering = true then none else compare (.number m) c (.number n)) ∧
    (n = .nan → c.isOrdering = true →
      compare (.number n) c (.number m) = some false ∧
        compare (.number m) c (.number n) = some false) := by
  have ht := numeric?_eq_some hdigit hchars hm
  have hne := Number.ofText?_ne_nan hchars hm
  have hright : n.order? m = none ↔ n = .nan := by simp [Number.order?_eq_none_iff, hne]
  have hleft : m.order? n = none ↔ n = .nan := by simp [Number.order?_eq_none_iff, hne]
  refine ⟨?_, ?_, fun hn hc => ⟨?_, ?_⟩⟩
  · have hpair : pair (.number n) (.string t) = pair (.number n) (.number m) := by simp [pair, ht]
    simp only [compare_eq_of_pair hpair (.inr nofun), pair, Pair.order?, hright]
  · have hpair : pair (.string t) (.number n) = pair (.number m) (.number n) := by simp [pair, ht]
    simp only [compare_eq_of_pair hpair (.inl nofun), pair, Pair.order?, hleft]
  · exact compare_of_no_order (a := .number n) (b := .number m) (hright.2 hn) hc
  · exact compare_of_no_order (a := .number m) (b := .number n) (hleft.2 hn) hc

/-- What is not a number, below the string `5`: no outcome, though below the number 5 it is false. -/
theorem nan_below_numeric_text :
    ∃ m, Number.ofText? (Text.trim "5".toList) = some m ∧
      compare (.number .nan) .less (.number m) = some false ∧
      compare (.number .nan) .less (.string "5".toList) = none :=
  ⟨_, rfl, rfl, rfl⟩

/-- The number 1e999 between blanks, which is infinite, beside an infinity and beside what is no number. -/
theorem compare_numeric_text_infinite :
    let text : Text := " 1e999 ".toList
    compare (.number (.infinite false)) .greaterEqual (.string text) =
        compare (.number (.infinite false)) .greaterEqual (.number (.infinite false)) ∧
      compare (.number .nan) .greaterEqual (.string text) = none := by
  intro text
  have hm : Number.ofText? text.trim = some (.infinite false) := by decide
  have h := compare_numeric_text (t := text) (by decide) (by decide) hm
  exact ⟨(h (.infinite false) .greaterEqual).1.trans (if_neg (by decide)),
    (h .nan .greaterEqual).1.trans (if_pos ⟨rfl, rfl⟩)⟩

end Value
end Rulebook
