import Mathlib.Data.Finset.Card
import Rulebook.Proofs.CombinedVerdict
set_option autoImplicit false

/-!
What the verdict of a rule depends on: the attributes that its comparisons name, and of these only the ones
that were asked for. A record that grows does not change an outcome that was reached without a missing
attribute. A missing attribute is one that the rule names and the record lacks, so that supplying what is
reported as missing comes to an end.
-/

namespace Rulebook

namespace Data

/-- The second record has what the first one has, and maybe more. -/
def Extends (d d' : Data) : Prop := ∀ name v, d name = some v → d' name = some v

def set (d : Data) (name : Text) (v : Value) : Data :=
  fun other => if other = name then some v else d other

theorem Extends.refl (d : Data) : d.Extends d := fun _ _ h => h

theorem extends_set {d : Data} {name : Text} (v : Value) (h : d name = none) :
    d.Extends (d.set name v) := by
  intro other w hw
  have hne : other ≠ name := by
    rintro rfl
    rw [h] at hw
    cases hw
  simpa [set, hne] using hw

end Data

theorem Condition.evaluate_congr {c : Condition} {d d' : Data} (h : d c.name = d' c.name) :
    c.evaluate d = c.evaluate d' := by
  simp only [evaluate, h]

theorem Condition.evaluate_missing {c : Condition} {d : Data} {name : Text}
    (h : c.evaluate d = .error (.missingAttribute name)) : c.name = name ∧ d name = none := by
  unfold evaluate at h
  split at h
  · rename_i hnone
    cases h
    exact ⟨rfl, hnone⟩
  · split at h <;> cases h

theorem Condition.evaluate_extends {c : Condition} {d d' : Data} (hd : d.Extends d')
    (h : ∀ name, c.evaluate d ≠ .error (.missingAttribute name)) : c.evaluate d' = c.evaluate d := by
  cases hv : d c.name with
  | none => exact absurd (by simp only [evaluate, hv]) (h c.name)
  | some v => exact evaluate_congr ((hd c.name v hv).trans hv.symm)

namespace Rule

variable {r : Rule} {d d' : Data} {name : Text}

/-- The comparisons of a tree, left to right, those under foreign operators too. -/
def conditions : Rule → List Condition
  | condition c => [c]
  | foreign _ => []
  | not r | foreignLeft _ r | foreignRight _ r => r.conditions
  | join _ l r | foreignBoth _ l r => l.conditions ++ r.conditions

/-- The attributes that a rule mentions. -/
def attributes (r : Rule) : Finset Text := (r.conditions.map Condition.name).toFinset

theorem mem_attributes : name ∈ r.attributes ↔ ∃ c ∈ r.conditions, c.name = name := by
  simp [attributes]

/-- A rule has the outcome that the outcomes of its comparisons settle. -/
theorem evaluate_congr (h : ∀ c ∈ r.conditions, c.evaluate d = c.evaluate d') :
    r.evaluate d = r.evaluate d' := by
  induction r with
  | condition c => exact h c (by simp [conditions])
  | join op l r ihl ihr =>
    rw [conditions, List.forall_mem_append] at h
    rw [Connective.evaluate_join, Connective.evaluate_join, ihl h.1, ihr h.2]
  | not r ih => simp only [evaluate, ih h]
  | _ => rfl

/-- A failure is that of a comparison, or a foreign operator is its cause. -/
theorem evaluate_error {e : EvalError} (h : r.evaluate d = .error e) :
    (∃ c ∈ r.conditions, c.evaluate d = .error e) ∨ ∃ o, e = .unknownOperator o := by
  induction r with
  | condition c => exact .inl ⟨c, by simp [conditions], h⟩
  | join op l r ihl ihr =>
    simp only [conditions, List.mem_append]
    rw [Connective.evaluate_join] at h
    split at h
    · exact (ihl h).imp_left fun ⟨c, hc, he⟩ => ⟨c, .inl hc, he⟩
    · exact (ihr h).imp_left fun ⟨c, hc, he⟩ => ⟨c, .inr hc, he⟩
  | not r ih =>
    rw [evaluate] at h
    cases hr : r.evaluate d with
    | ok b => simp [hr, Except.map] at h
    | error e' =>
      rw [hr] at h
      cases h
      exact ih hr
  | foreign o | foreignLeft o | foreignRight o | foreignBoth o =>
    cases h
    exact .inr ⟨o, rfl⟩

theorem evaluate_missing (h : r.evaluate d = .error (.missingAttribute name)) :
    d name = none ∧ ∃ c ∈ r.conditions, c.name = name := by
  obtain ⟨c, hc, hmissing⟩ | ⟨o, ho⟩ := evaluate_error h
  · have hname := Condition.evaluate_missing hmissing
    exact ⟨hname.2, c, hc, hname.1⟩
  · cases ho

/-- What was decided, or failed otherwise than by a missing attribute, stays so when the record grows. -/
theorem evaluate_extends (hd : d.Extends d')
    (h : ∀ name, r.evaluate d ≠ .error (.missingAttribute name)) : r.evaluate d' = r.evaluate d := by
  induction r with
  | condition c => exact Condition.evaluate_extends hd h
  | join op l r ihl ihr =>
    rw [Connective.evaluate_join] at h ⊢
    by_cases hsettles : op.settles (l.evaluate d) = true
    · rw [if_pos hsettles] at h
      rw [ihl h, Connective.evaluate_join, if_pos hsettles, if_pos hsettles]
    · rw [if_neg hsettles] at h
      have hl : ∀ name, l.evaluate d ≠ .error (.missingAttribute name) := by
        intro name hmissing
        exact hsettles (hmissing ▸ rfl)
      rw [ihl hl, ihr h, Connective.evaluate_join]
  | not r ih =>
    have hr : ∀ name, r.evaluate d ≠ .error (.missingAttribute name) := by
      intro name hmissing
      exact h name (by rw [evaluate, hmissing]; rfl)
    rw [evaluate, ih hr, evaluate]
  | _ => rfl

/-! ### Supplying what is missing -/

/-- The record after so many rounds, in each of which the attribute reported as missing is given the next
value. Without such a report a round changes nothing. -/
def supply (r : Rule) (values : Nat → Value) (d : Data) : Nat → Data
  | 0 => d
  | n + 1 =>
    match r.evaluate (r.supply values d n) with
    | .error (.missingAttribute name) => (r.supply values d n).set name (values n)
    | _ => r.supply values d n

/-- Rounds add to the record and change nothing in it. -/
theorem extends_supply (r : Rule) (values : Nat → Value) (d : Data) (n : Nat) :
    d.Extends (r.supply values d n) := by
  induction n with
  | zero => exact .refl d
  | succ n ih =>
    unfold supply
    split
    · rename_i hmissing
      exact fun name v hv => Data.extends_set _ (evaluate_missing hmissing).1 name v (ih name v hv)
    · exact ih

/-- What the rule mentions and the record lacks. -/
def absent (r : Rule) (d : Data) : Finset Text := r.attributes.filter fun name => d name = none

theorem absent_set (r : Rule) (d : Data) (name : Text) (v : Value) :
    r.absent (d.set name v) = (r.absent d).erase name := by
  ext other
  rw [absent, Finset.mem_filter, Finset.mem_erase, absent, Finset.mem_filter]
  by_cases h : other = name <;> simp [Data.set, h]

theorem card_absent_set (v : Value) (h : r.evaluate d = .error (.missingAttribute name)) :
    (r.absent (d.set name v)).card + 1 = (r.absent d).card := by
  obtain ⟨hnone, hmentioned⟩ := evaluate_missing h
  have hmem : name ∈ r.absent d := Finset.mem_filter.2 ⟨mem_attributes.2 hmentioned, hnone⟩
  rw [absent_set, Finset.card_erase_add_one hmem]

/-- Every round that finds something missing leaves one attribute less to find. -/
theorem card_absent_supply (r : Rule) (d : Data) (values : Nat → Value) (n : Nat)
    (h : ∀ m < n, ∃ name, r.evaluate (r.supply values d m) = .error (.missingAttribute name)) :
    (r.absent (r.supply values d n)).card + n = (r.absent d).card := by
  induction n with
  | zero => rfl
  | succ n ih =>
    obtain ⟨name, hname⟩ := h n (Nat.lt_succ_self n)
    have hround := card_absent_set (values n) hname
    have hbefore := ih fun m hm => h m (Nat.lt_succ_of_lt hm)
    simp only [supply, hname]
    omega

theorem exists_supplied (r : Rule) (d : Data) (values : Nat → Value) :
    ∃ rounds ≤ r.attributes.card,
      ∀ name, r.evaluate (r.supply values d rounds) ≠ .error (.missingAttribute name) := by
  by_contra hnone
  push Not at hnone
  have hrounds := card_absent_supply r d values (r.attributes.card + 1)
    fun m hm => hnone m (Nat.le_of_lt_succ hm)
  have hfew : (r.absent d).card ≤ r.attributes.card := Finset.card_filter_le _ _
  omega

/-- The outcome of a rule is the same on records that agree on the attributes it mentions, and on every
record that has more, unless an attribute was missing. That one is absent from the record and named by a
comparison of the rule. Adding it, with whatever value, and evaluating again ends after at most so many
rounds as the rule mentions attributes. -/
theorem evaluate_on_attributes (r : Rule) (d : Data) :
    (∀ d' : Data, (∀ name ∈ r.attributes, d name = d' name) → r.evaluate d = r.evaluate d') ∧
    (∀ d' : Data, d.Extends d' → (∀ name, r.evaluate d ≠ .error (.missingAttribute name)) →
      r.evaluate d' = r.evaluate d) ∧
    (∀ name, r.evaluate d = .error (.missingAttribute name) →
      d name = none ∧ ∃ c ∈ r.conditions, c.name = name) ∧
    ∀ values : Nat → Value, ∃ rounds ≤ r.attributes.card,
      d.Extends (r.supply values d rounds) ∧
        ∀ name, r.evaluate (r.supply values d rounds) ≠ .error (.missingAttribute name) := by
  refine ⟨fun d' h => ?_, fun d' => evaluate_extends, fun name => evaluate_missing,
    fun values => ?_⟩
  · refine evaluate_congr fun c hc => Condition.evaluate_congr ?_
    exact h c.name (mem_attributes.2 ⟨c, hc, rfl⟩)
  · obtain ⟨rounds, hle, hrounds⟩ := exists_supplied r d values
    exact ⟨rounds, hle, extends_supply r values d rounds, hrounds⟩

/-- A record whose one attribute settles the matter, and the empty one, on which all three are asked for. -/
theorem evaluate_on_attributes_rounds :
    let leaf (name value : Char) : Rule := .condition ⟨[name], .equal, .string [value]⟩
    let r : Rule := .join .and (leaf 'a' 'x') (.join .or (leaf 'b' 'y') (leaf 'c' 'z'))
    let d : Data := Data.ofList [(['a'], .string ['q'])]
    let more : Data := d.set ['b'] (.number .nan)
    let other : Data := Data.ofList [(['a'], .string ['q']), (['e'], .boolean true)]
    let values : Nat → Value := fun n => if n = 0 then .string ['x'] else .boolean true
    (∀ name ∈ r.attributes, d name = other name) ∧ r.evaluate d = r.evaluate other ∧
      d.Extends more ∧ r.evaluate d = .ok false ∧ r.evaluate more = r.evaluate d ∧
      r.evaluate (Data.ofList []) = .error (.missingAttribute ['a']) ∧
      (∃ c ∈ r.conditions, c.name = ['a']) ∧
      ∃ rounds ≤ 3, (Data.ofList []).Extends (r.supply values (Data.ofList []) rounds) ∧
        ∀ name, r.evaluate (r.supply values (Data.ofList []) rounds) ≠
          .error (.missingAttribute name) := by
  intro leaf r d more other values
  obtain ⟨hagree, hextends, -, -⟩ := evaluate_on_attributes r d
  obtain ⟨-, -, hmissing, hrounds⟩ := evaluate_on_attributes r (Data.ofList [])
  have hsame : ∀ name ∈ r.attributes, d name = other name := by decide
  have hmore : d.Extends more := Data.extends_set _ rfl
  have hok : r.evaluate d = .ok false := rfl
  have hnothing : r.evaluate (Data.ofList []) = .error (.missingAttribute ['a']) := rfl
  exact ⟨hsame, hagree other hsame, hmore, hok, hextends more hmore (by simp [hok]), hnothing,
    (hmissing _ hnothing).2, hrounds _⟩

end Rule
end Rulebook
