import Rulebook.Combination
set_option autoImplicit false

/-!
The operands of a join, read off the tree by recursion. The two walks with a stack meet just these, and
both ways of joining them anew keep them. The depth predicted for a combination is the depth it has.
-/

namespace Rulebook

namespace Chain

variable {α β : Type}

/-- What holds of single items and of a join whenever it holds of both halves holds of a fold. -/
theorem foldLeft_induction {f : α → α → α} {P : Chain α → α → Prop} (hone : ∀ a, P (one a) a)
    (happ : ∀ c d x y, P c x → P d y → P (c.append d) (f x y)) (c : Chain α) :
    P c (c.foldLeft f) := by
  obtain ⟨head, tail⟩ := c
  have h : ∀ (tail : List α) (c : Chain α) (x : α), P c x →
      P ⟨c.head, c.tail ++ tail⟩ (tail.foldl f x) := by
    intro tail
    induction tail with
    | nil =>
      intro c x hx
      simpa using hx
    | cons a tail ih =>
      intro c x hx
      simpa [append, one, toList] using ih _ _ (happ c (one a) x a hx (hone a))
  simpa [foldLeft, one] using h tail (one head) head (hone head)

/-- Two items or more are folded in halves, the first with half their number, rounded down. -/
theorem foldHalves_eq (f : α → α → α) {c : Chain α} (h : c.tail ≠ []) :
    ∃ d e : Chain α, c = d.append e ∧ d.toList.length = c.toList.length / 2 ∧
      c.foldHalves f = f (d.foldHalves f) (e.foldHalves f) := by
  obtain ⟨head, tail⟩ := c
  have hpos := List.length_pos_iff.2 h
  simp only at hpos
  cases hd : tail.drop (half tail) with
  | nil =>
    have hlen := congrArg List.length hd
    simp only [List.length_drop, List.length_nil, half] at hlen
    omega
  | cons a rest =>
    refine ⟨⟨head, tail.take (half tail)⟩, ⟨a, rest⟩, ?_, ?_, ?_⟩
    · simp [append, toList, ← hd]
    · simp only [toList, List.length_cons, List.length_take, half]
      omega
    · rw [foldHalves]
      split
      · rename_i hnil
        rw [hd] at hnil
        cases hnil
      · rename_i b s hcons
        rw [hd] at hcons
        cases hcons
        rfl

theorem eq_one_of_tail_eq_nil {c : Chain α} (h : c.tail = []) : c = one c.head := by
  obtain ⟨head, tail⟩ := c
  simpa [one] using h

theorem length_append (c d : Chain α) :
    (c.append d).tail.length = c.tail.length + d.tail.length + 1 := by
  simp [append, toList]
  omega

theorem foldHalves_induction {f : α → α → α} {P : Chain α → α → Prop} (hone : ∀ a, P (one a) a)
    (happ : ∀ c d x y, P c x → P d y → P (c.append d) (f x y)) (c : Chain α) :
    P c (c.foldHalves f) := by
  induction h : c.tail.length using Nat.strongRecOn generalizing c with
  | ind n ih =>
    by_cases ht : c.tail = []
    · rw [eq_one_of_tail_eq_nil ht, foldHalves_one]
      exact hone c.head
    · obtain ⟨d, e, rfl, -, hf⟩ := foldHalves_eq f ht
      rw [length_append] at h
      rw [hf]
      exact happ d e _ _ (ih _ (by omega) d rfl) (ih _ (by omega) e rfl)

end Chain

namespace Connective

variable {op : Connective}

/-- The largest subtrees that the connective does not head, left to right. -/
def leaves (op : Connective) : Rule → List Rule
  | .join o l r => if o = op then leaves op l ++ leaves op r else [.join o l r]
  | r => [r]

@[simp] theorem leaves_join (op : Connective) (l r : Rule) :
    op.leaves (.join op l r) = op.leaves l ++ op.leaves r := by
  simp [leaves]

theorem leaves_of_split_eq_none {r : Rule} (h : op.split r = none) : op.leaves r = [r] := by
  cases r with
  | join o l s =>
    by_cases ho : o = op
    · simp [split, ho] at h
    · simp [leaves, ho]
  | _ => rfl

/-- What a join has only if both its operands have it holds of the leaves too. -/
theorem leaves_keep {P : Rule → Prop} (hjoin : ∀ l r, P (.join op l r) → P l ∧ P r) {r : Rule}
    (h : P r) : ∀ s ∈ op.leaves r, P s := by
  induction r with
  | join o l s ihl ihs =>
    by_cases ho : o = op
    · subst ho
      have hboth := hjoin l s h
      rw [leaves_join, List.forall_mem_append]
      exact ⟨ihl hboth.1, ihs hboth.2⟩
    · simpa [leaves, ho] using h
  | _ => simpa [leaves] using h

theorem drain_eq (op : Connective) (pending : List Rule) :
    op.drain pending = pending.flatMap op.leaves := by
  fun_induction drain op pending with
  | case1 => rfl
  | case2 r pending a b h ih =>
    rw [ih, split_eq_some_iff.1 h]
    simp
  | case3 r pending h ih => simp [ih, leaves_of_split_eq_none h]

theorem operandDepths_eq (op : Connective) (pending : List Rule) :
    op.operandDepths pending = (pending.flatMap op.leaves).map Rule.depth := by
  fun_induction operandDepths op pending with
  | case1 => rfl
  | case2 r pending a b h ih =>
    rw [ih, split_eq_some_iff.1 h]
    simp
  | case3 r pending h ih => simp [ih, leaves_of_split_eq_none h]

/-- Nothing is lost on the way down: the leftmost operand, then what is left pending. -/
theorem descend_eq (op : Connective) (r : Rule) (pending : List Rule) :
    (op.descend pending r).1 :: op.drain (op.descend pending r).2 =
      op.leaves r ++ op.drain pending := by
  induction r generalizing pending with
  | join o l s ihl ihs =>
    by_cases ho : o = op
    · subst ho
      simp only [descend, if_true, ihl]
      simp [drain_eq]
    · simp [descend, leaves, ho]
  | _ => rfl

@[simp] theorem toList_operands (op : Connective) (r : Rule) :
    (op.operands r).toList = op.leaves r := by
  have h := descend_eq op r []
  simpa [operands, Chain.toList, drain_eq] using h

/-- Joining chains of rules joins their leaves. -/
theorem leaves_foldLeft (op : Connective) (c : Chain Rule) :
    op.leaves (c.foldLeft (Rule.join op)) = c.toList.flatMap op.leaves := by
  refine Chain.foldLeft_induction (P := fun c r => op.leaves r = c.toList.flatMap op.leaves)
    ?_ ?_ c
  · simp
  · intro c d x y hx hy
    simp [hx, hy]

/-- Operands that were joined to the left are found again. -/
theorem toList_operands_foldLeft (op : Connective) (c : Chain Rule) :
    (op.operands (c.foldLeft (Rule.join op))).toList = c.toList.flatMap op.leaves := by
  rw [toList_operands, leaves_foldLeft]

/-! ### The predicted depth -/

theorem depth_foldLeft (op : Connective) (c : Chain Rule) :
    (c.foldLeft (Rule.join op)).depth = chainDepth (c.toList.map Rule.depth) := by
  obtain ⟨head, tail⟩ := c
  simp only [Chain.foldLeft, Chain.toList, chainDepth, List.map_cons]
  induction tail generalizing head with
  | nil => rfl
  | cons a tail ih =>
    rw [List.foldl_cons, ih]
    rfl

theorem balancedDepth_of_two_le {depths : List Nat} (h : 2 ≤ depths.length) :
    balancedDepth depths = joinDepth (balancedDepth (depths.take (depths.length / 2)))
      (balancedDepth (depths.drop (depths.length / 2))) := by
  match depths, h with
  | d :: e :: rest, _ =>
    rw [balancedDepth]

theorem depth_foldHalves (op : Connective) (c : Chain Rule) :
    (c.foldHalves (Rule.join op)).depth = balancedDepth (c.toList.map Rule.depth) := by
  induction h : c.tail.length using Nat.strongRecOn generalizing c with
  | ind n ih =>
    by_cases ht : c.tail = []
    · rw [Chain.eq_one_of_tail_eq_nil ht, Chain.foldHalves_one]
      simp [balancedDepth]
    · have hpos := List.length_pos_iff.2 ht
      have htwo : 2 ≤ (c.toList.map Rule.depth).length := by
        simp only [Chain.toList, List.length_map, List.length_cons]
        omega
      obtain ⟨d, e, hc, hlen, hf⟩ := Chain.foldHalves_eq (Rule.join op) ht
      have hsum := Chain.length_append d e
      rw [← hc] at hsum
      rw [hf, balancedDepth_of_two_le htwo, List.length_map, ← hlen, hc, Chain.toList_append,
        List.map_append, ← List.length_map (f := Rule.depth), List.take_left, List.drop_left,
        ← ih _ (by omega) d rfl, ← ih _ (by omega) e rfl]
      rfl

end Connective

namespace FlattenPolicy

theorem predictedDepth_eq (policy : FlattenPolicy) (op : Connective) (inputs : Chain Rule) :
    policy.predictedDepth op inputs = (policy.join op inputs).depth := by
  have hleaves := op.toList_operands_foldLeft inputs
  have hdepths : (inputs.toList.flatMap fun r => op.operandDepths [r]) =
      (inputs.toList.flatMap op.leaves).map Rule.depth := by
    simp [Connective.operandDepths_eq, List.map_flatMap]
  unfold predictedDepth joinedDepths join
  by_cases happ : applies op inputs = true
  · cases policy with
    | disabled => simp [happ, Connective.depth_foldLeft]
    | homogeneous =>
      simp [happ, Connective.rechain, Connective.depth_foldLeft, hleaves, hdepths]
    | balanced =>
      simp [happ, Connective.rebalance, Connective.depth_foldHalves, hleaves, hdepths]
  · simp [happ, Connective.depth_foldLeft]

theorem combine_eq_ok {policy : FlattenPolicy} {op : Connective} {rules : List Rule} {r : Rule}
    (h : policy.combine op rules = .ok r) :
    ∃ inputs : Chain Rule, rules = inputs.toList ∧ r = policy.join op inputs ∧
      r.depth ≤ Rule.maxDepth := by
  cases rules with
  | nil => cases h
  | cons first rest =>
    simp only [combine] at h
    split at h
    · cases h
    · rename_i hle
      cases h
      rw [predictedDepth_eq] at hle
      exact ⟨⟨first, rest⟩, rfl, rfl, by omega⟩

/-- A combination is one of three folds, over the inputs or over their leaves. -/
theorem join_cases (policy : FlattenPolicy) (op : Connective) (inputs : Chain Rule) :
    policy.join op inputs = inputs.foldLeft (Rule.join op) ∨
    ∃ leaves : Chain Rule, leaves.toList = inputs.toList.flatMap op.leaves ∧
      (policy.join op inputs = leaves.foldLeft (Rule.join op) ∨
        policy.join op inputs = leaves.foldHalves (Rule.join op)) := by
  have hleaves := op.toList_operands_foldLeft inputs
  unfold join
  by_cases happ : applies op inputs = true
  · cases policy with
    | disabled => simp [happ]
    | homogeneous =>
      simp only [happ, if_true]
      exact .inr ⟨_, hleaves, .inl rfl⟩
    | balanced =>
      simp only [happ, if_true]
      exact .inr ⟨_, hleaves, .inr rfl⟩
  · simp [happ]

/-- What a join has exactly when both its operands have it is kept by every combination. -/
theorem join_keeps {P : Rule → Prop}
    (hjoin : ∀ op l r, P (.join op l r) ↔ P l ∧ P r) (policy : FlattenPolicy) (op : Connective)
    (inputs : Chain Rule) (h : ∀ r ∈ inputs.toList, P r) : P (policy.join op inputs) := by
  have hleft : ∀ c : Chain Rule, (∀ r ∈ c.toList, P r) → P (c.foldLeft (Rule.join op)) := by
    refine Chain.foldLeft_induction (P := fun c r => (∀ s ∈ c.toList, P s) → P r) ?_ ?_
    · simp
    · intro c d x y hx hy hall
      rw [Chain.toList_append, List.forall_mem_append] at hall
      exact (hjoin op x y).2 ⟨hx hall.1, hy hall.2⟩
  have hhalves : ∀ c : Chain Rule, (∀ r ∈ c.toList, P r) → P (c.foldHalves (Rule.join op)) := by
    refine Chain.foldHalves_induction (P := fun c r => (∀ s ∈ c.toList, P s) → P r) ?_ ?_
    · simp
    · intro c d x y hx hy hall
      rw [Chain.toList_append, List.forall_mem_append] at hall
      exact (hjoin op x y).2 ⟨hx hall.1, hy hall.2⟩
  obtain hj | ⟨leaves, hl, hj⟩ := policy.join_cases op inputs
  · rw [hj]
    exact hleft inputs h
  · have hall : ∀ r ∈ leaves.toList, P r := by
      rw [hl]
      intro r hr
      obtain ⟨s, hs, hr⟩ := List.mem_flatMap.1 hr
      exact Connective.leaves_keep (fun l r => (hjoin op l r).1) (h s hs) r hr
    obtain hj | hj := hj
    · rw [hj]
      exact hleft leaves hall
    · rw [hj]
      exact hhalves leaves hall

end FlattenPolicy
end Rulebook
