import Rulebook.Proofs.Comparison
set_option autoImplicit false

/-!
The six comparators on one pair of values. Equality and order are found by different ways, but where the
pair has an order all six outcomes follow from it, and the pair taken the other way round has the opposite
order. Two values without an order are told from each other by equality alone.
-/

namespace Rulebook

/-! ### The order of a pair taken the other way round -/

theorem Text.order_swap (s t : Text) : (order s t).swap = order t s := by
  induction s generalizing t with
  | nil => cases t <;> rfl
  | cons a s ih =>
    cases t with
    | nil => rfl
    | cons b t =>
      simp only [order]
      by_cases hab : a = b
      · simp only [hab, if_true, ih]
      · have hba : b ≠ a := Ne.symm hab
        by_cases hlt : a < b
        · simp only [hab, hba, hlt, Char.lt_asymm hlt, if_true, if_false, Ordering.swap]
        · have hgt : b < a :=
            Char.not_le.1 fun hle => hab (Char.le_antisymm hle (Char.not_lt.1 hlt))
          simp only [hab, hba, hlt, hgt, if_true, if_false, Ordering.swap]

theorem Text.order_eq_eq_iff {s t : Text} : order s t = .eq ↔ s = t := by
  induction s generalizing t with
  | nil => cases t <;> simp [order]
  | cons a s ih =>
    cases t with
    | nil => simp [order]
    | cons b t =>
      by_cases hab : a = b
      · simp [order, hab, ih]
      · by_cases hlt : a < b <;> simp [order, hab, hlt]

theorem Number.order?_swap (a b : Number) : (a.order? b).map Ordering.swap = b.order? a := by
  unfold order?
  cases a.rank? with
  | none => cases b.rank? <;> rfl
  | some i =>
    cases b.rank? with
    | none => rfl
    | some j =>
      obtain h | rfl | h := Int.lt_trichotomy i j
      · simp [h, Int.lt_asymm h, Int.ne_of_gt h]
      · simp
      · simp [h, Int.lt_asymm h, Int.ne_of_gt h]

theorem Comparator.isOrdering_swap (c : Comparator) : c.swap.isOrdering = c.isOrdering := by
  cases c <;> rfl

theorem Comparator.swap_of_equality {c : Comparator} (h : c.isOrdering = false) : c.swap = c := by
  cases c with
  | equal | notEqual => rfl
  | _ => cases h

namespace Value

def Pair.swap : Pair → Pair
  | .numbers a b => .numbers b a
  | .strings a b => .strings b a
  | .booleans a b => .booleans b a
  | .apart => .apart

theorem pair_swap (a b : Value) : (pair a b).swap = pair b a := by
  cases a with
  | boolean p =>
    cases b with
    | string t => simp only [pair]; cases boolean? t <;> rfl
    | _ => rfl
  | number m =>
    cases b with
    | string t => simp only [pair]; cases numeric? t <;> rfl
    | _ => rfl
  | string s =>
    cases b with
    | boolean q => simp only [pair]; cases boolean? s <;> rfl
    | number n => simp only [pair]; cases numeric? s <;> rfl
    | string t => rfl

theorem Pair.order?_swap (p : Pair) : p.order?.map Ordering.swap = p.swap.order? := by
  cases p with
  | numbers a b => exact Number.order?_swap a b
  | strings a b => exact congrArg some (Text.order_swap a b)
  | booleans | apart => rfl

/-- Where there is an order, it is equality that the other way finds. -/
theorem Pair.equal_of_order {p : Pair} {o : Ordering} (h : p.order? = some o) :
    p.equal = (o == .eq) := by
  cases p with
  | numbers a b => simp only [equal, Number.equal, show a.order? b = some o from h]; rfl
  | strings a b =>
    cases h
    by_cases hab : a = b
    · simp [equal, hab, Text.order_eq_eq_iff.2]
    · simp [equal, hab, Text.order_eq_eq_iff]
  | booleans | apart => cases h

theorem Pair.equal_swap (p : Pair) : p.swap.equal = p.equal := by
  cases p with
  | numbers a b =>
    simp only [swap, equal, Number.equal, ← Number.order?_swap a b]
    obtain _ | _ | _ | _ := a.order? b <;> rfl
  | strings a b => exact Bool.beq_comm
  | booleans a b => exact Bool.beq_comm
  | apart => rfl

/-! ### Outcomes -/

variable {a b : Value} {c : Comparator}

/-- All six outcomes where the pair has an order. -/
theorem compare_eq_holds {o : Ordering} (h : (pair a b).order? = some o) (c : Comparator) :
    compare a c b = some (c.holds o) := by
  have hequal := Pair.equal_of_order h
  cases c with
  | equal => exact congrArg some hequal
  | notEqual => exact congrArg (some <| !·) hequal
  | _ => exact compare_of_order h rfl

theorem compare_nan {m n : Number} (h : m = .nan ∨ n = .nan) :
    compare (.number m) .equal (.number n) = some false ∧
      ∀ c, c.isOrdering = true → compare (.number m) c (.number n) = some false := by
  have hnone : m.order? n = none := Number.order?_eq_none_iff.2 h
  have hequal : m.equal n = false := by simp [Number.equal, hnone]
  exact ⟨congrArg some hequal, fun c hc =>
    compare_of_no_order (a := .number m) (b := .number n) hnone hc⟩

theorem exists_order (hc : c.isOrdering = true) (h : (compare a c b).isSome = true)
    (ha : a ≠ .number .nan) (hb : b ≠ .number .nan) : ∃ o, (pair a b).order? = some o := by
  cases ho : (pair a b).order? with
  | some o => exact ⟨o, rfl⟩
  | none =>
    rw [compare_of_no_order ho hc] at h
    split at h
    · rename_i hkind
      cases a with
      | number m =>
        cases b with
        | number n =>
          obtain rfl | rfl := Number.order?_eq_none_iff.1 ho
          · exact absurd rfl ha
          · exact absurd rfl hb
        | _ => cases hkind.2
      | _ => cases hkind.1
    · cases h

theorem compare_swap (a b : Value) (c : Comparator) :
    compare a c b = compare b c.swap a := by
  have hpair := pair_swap a b
  cases hc : c.isOrdering with
  | false =>
    rw [Comparator.swap_of_equality hc, compare_of_equality hc, compare_of_equality hc, ← hpair,
      Pair.equal_swap]
  | true =>
    have hswap : c.swap.isOrdering = true := (Comparator.isOrdering_swap c).trans hc
    have horder := Pair.order?_swap (pair a b)
    rw [hpair] at horder
    cases ho : (pair a b).order? with
    | none =>
      rw [ho] at horder
      simp only [compare_of_no_order ho hc, compare_of_no_order horder.symm hswap, and_comm]
    | some o =>
      rw [ho] at horder
      rw [compare_of_order ho hc, compare_of_order horder.symm hswap, Comparator.holds_swap]

/-- The six comparators on two values. Equality is always defined, and its denial is the opposite. The four
orderings have an outcome together or not at all. If they have one and neither value is NaN, then one of
`<`, `==` and `>` holds and the other two do not, and these three settle the rest. NaN is in no order with
any number and equals none. Nothing changes if the sides are exchanged and the comparator is turned
round. -/
theorem comparators_cohere (a b : Value) :
    (∃ e, compare a .equal b = some e ∧ compare a .notEqual b = some (!e)) ∧
    ((∀ c, c.isOrdering = true → (compare a c b).isSome = true) ∨
      ∀ c, c.isOrdering = true → compare a c b = none) ∧
    (∀ c, c.isOrdering = true → (compare a c b).isSome = true →
      a ≠ .number .nan → b ≠ .number .nan →
      ∃ less equal greater : Bool, [less, equal, greater].count true = 1 ∧
        compare a .less b = some less ∧ compare a .equal b = some equal ∧
        compare a .greater b = some greater ∧
        compare a .lessEqual b = some (less || equal) ∧
        compare a .greaterEqual b = some (greater || equal) ∧
        compare a .greaterEqual b = some (!less) ∧ compare a .lessEqual b = some (!greater)) ∧
    (∀ m n, a = .number m → b = .number n → m = .nan ∨ n = .nan →
      compare a .equal b = some false ∧ ∀ c, c.isOrdering = true → compare a c b = some false) ∧
    ∀ c, compare a c b = compare b c.swap a := by
  refine ⟨⟨(pair a b).equal, rfl, rfl⟩, ?_, ?_, ?_, compare_swap a b⟩
  · cases ho : (pair a b).order? with
    | some o =>
      exact .inl fun c _ => by rw [compare_eq_holds ho]; rfl
    | none =>
      by_cases hkind : a.kind = .number ∧ b.kind = .number
      · exact .inl fun c hc => by rw [compare_of_no_order ho hc, if_pos hkind]; rfl
      · exact .inr fun c hc => by rw [compare_of_no_order ho hc, if_neg hkind]
  · intro c hc h ha hb
    obtain ⟨o, ho⟩ := exists_order hc h ha hb
    have hall := compare_eq_holds ho
    refine ⟨_, _, _, ?_, hall _, hall _, hall _, ?_, ?_, ?_, ?_⟩
    · cases o <;> rfl
    all_goals
      rw [hall]
      cases o <;> rfl
  · rintro m n rfl rfl h
    exact compare_nan h

/-- The negative zero beside a string that spells the other one, and beside NaN. -/
theorem comparators_cohere_zeros :
    let zero : Value := .number (.zero true)
    let text : Value := .string " 0.0 ".toList
    let nan : Value := .number .nan
    (compare zero .lessEqual text).isSome = true ∧ zero ≠ nan ∧ text ≠ nan ∧
      compare zero .less text = some false ∧ compare text .less zero = some false ∧
      compare zero .equal nan = some false ∧ compare zero .greaterEqual nan = some false := by
  intro zero text nan
  have hdefined : (compare zero .lessEqual text).isSome = true := by decide
  have hzero : zero ≠ nan := by simp [zero, nan, Number.zero]
  have htext : text ≠ nan := by simp [text, nan]
  obtain ⟨-, -, hone, -, hswap⟩ := comparators_cohere zero text
  obtain ⟨less, equal, greater, hcount, hless, hequal, hgreater, -⟩ :=
    hone .lessEqual rfl hdefined hzero htext
  obtain rfl : equal = true := Option.some.inj (hequal.symm.trans (by decide))
  obtain ⟨rfl, rfl⟩ : less = false ∧ greater = false := by
    revert hcount
    cases less <;> cases greater <;> decide
  obtain ⟨-, -, -, hnan, -⟩ := comparators_cohere zero nan
  obtain ⟨hne, horder⟩ := hnan _ _ rfl rfl (.inr rfl)
  exact ⟨hdefined, hzero, htext, hless, (hswap .greater).symm.trans hgreater, hne,
    horder .greaterEqual rfl⟩

end Value
end Rulebook
