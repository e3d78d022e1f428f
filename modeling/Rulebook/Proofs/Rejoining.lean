import Rulebook.Proofs.CombinedVerdict
set_option autoImplicit false

/-!
Joining the operands of a rule anew. Taking the rule apart ends, for what is pending has fewer nodes with
every step. Nothing is lost, doubled or moved, and the result depends on the sequence of the operands
alone. To the left, it is the one tree over them in which no right operand is itself a join of the
connective.
-/

namespace Rulebook.Connective

variable {op : Connective} {r t u : Rule}

theorem split_eq_none_of_mem_leaves {s : Rule} (h : s ∈ op.leaves r) : op.split s = none := by
  induction r with
  | join o l r ihl ihr =>
    by_cases ho : o = op
    · subst ho
      rw [leaves_join, List.mem_append] at h
      exact h.elim ihl ihr
    · simp only [leaves, ho, if_false, List.mem_singleton] at h
      simp [h, split, ho]
  | _ =>
    cases List.mem_singleton.1 h
    rfl

/-! ### What the leaves determine -/

theorem operands_eq_of_leaves (h : op.leaves u = op.leaves t) : op.operands u = op.operands t := by
  refine Chain.ext ?_
  rw [toList_operands, toList_operands, h]

theorem rechain_eq_of_leaves (h : op.leaves u = op.leaves t) : op.rechain u = op.rechain t := by
  rw [rechain, operands_eq_of_leaves h, rechain]

theorem rebalance_eq_of_leaves (h : op.leaves u = op.leaves t) :
    op.rebalance u = op.rebalance t := by
  rw [rebalance, operands_eq_of_leaves h, rebalance]

/-- Each join has one more node than what it joins. -/
theorem nodeCount_leaves (op : Connective) (r : Rule) :
    Rule.nodeCounts (op.leaves r) + (op.leaves r).length = r.nodeCount + 1 := by
  induction r with
  | join o l r ihl ihr =>
    by_cases ho : o = op
    · subst ho
      simp only [leaves_join, Rule.nodeCounts_append, List.length_append, Rule.nodeCount]
      omega
    · simp [leaves, ho, Rule.nodeCounts]
  | _ => simp [leaves, Rule.nodeCounts]

theorem nodeCount_eq_of_leaves (h : op.leaves u = op.leaves t) : u.nodeCount = t.nodeCount := by
  have hu := nodeCount_leaves op u
  have ht := nodeCount_leaves op t
  rw [h] at hu
  omega

/-! ### What joining anew keeps -/

theorem leaves_rechain (op : Connective) (t : Rule) : op.leaves (op.rechain t) = op.leaves t := by
  rw [rechain, leaves_foldLeft, toList_operands, flatMap_leaves_leaves]

theorem leaves_rebalance (op : Connective) (t : Rule) :
    op.leaves (op.rebalance t) = op.leaves t := by
  rw [rebalance, leaves_foldHalves, toList_operands, flatMap_leaves_leaves]

/-! ### Joins to the left -/

/-- No right operand, on the way down the left sides, is itself a join of the connective. -/
def LeftDeep (op : Connective) : Rule → Prop
  | .join o l r => o = op → op.LeftDeep l ∧ op.split r = none
  | _ => True

theorem leftDeep_of_split_eq_none (h : op.split r = none) : op.LeftDeep r := by
  cases r with
  | join o l s =>
    intro ho
    simp [split, ho] at h
  | _ => trivial

theorem leftDeep_foldl {tail : List Rule} (hr : op.LeftDeep r)
    (htail : ∀ s ∈ tail, op.split s = none) : op.LeftDeep (tail.foldl (.join op) r) := by
  induction tail generalizing r with
  | nil => exact hr
  | cons s tail ih =>
    rw [List.forall_mem_cons] at htail
    exact ih (fun _ => ⟨hr, htail.1⟩) htail.2

theorem exists_rechain (op : Connective) (t : Rule) :
    ∃ head tail, op.leaves t = head :: tail ∧ op.rechain t = tail.foldl (.join op) head :=
  ⟨_, _, (op.toList_operands t).symm, rfl⟩

theorem rechain_of_leaves {head : Rule} {tail : List Rule} (h : op.leaves t = head :: tail) :
    op.rechain t = tail.foldl (.join op) head := by
  obtain ⟨first, rest, hleaves, hrechain⟩ := op.exists_rechain t
  obtain ⟨rfl, rfl⟩ := List.cons.inj (h.symm.trans hleaves)
  exact hrechain

theorem rechain_of_split_eq_none (h : op.split u = none) : op.rechain u = u := by
  rw [rechain_of_leaves (leaves_of_split_eq_none h), List.foldl_nil]

theorem rechain_join (l : Rule) (hr : op.split r = none) :
    op.rechain (.join op l r) = .join op (op.rechain l) r := by
  obtain ⟨head, tail, hleaves, hrechain⟩ := op.exists_rechain l
  have hjoin : op.leaves (.join op l r) = head :: (tail ++ [r]) := by
    rw [leaves_join, hleaves, leaves_of_split_eq_none hr, List.cons_append]
  rw [rechain_of_leaves hjoin, List.foldl_append, ← hrechain]
  rfl

theorem leftDeep_rechain (op : Connective) (t : Rule) : op.LeftDeep (op.rechain t) := by
  obtain ⟨head, tail, hleaves, hrechain⟩ := op.exists_rechain t
  have hall : ∀ s ∈ head :: tail, op.split s = none := by
    rw [← hleaves]
    exact fun s => split_eq_none_of_mem_leaves
  rw [List.forall_mem_cons] at hall
  rw [hrechain]
  exact leftDeep_foldl (leftDeep_of_split_eq_none hall.1) hall.2

theorem rechain_of_leftDeep (h : op.LeftDeep u) : op.rechain u = u := by
  induction u with
  | join o l r ihl ihr =>
    by_cases ho : o = op
    · subst ho
      obtain ⟨hl, hr⟩ := h rfl
      rw [rechain_join l hr, ihl hl]
    · exact rechain_of_split_eq_none (by simp [split, ho])
  | _ => exact rechain_of_split_eq_none rfl

/-- Joining anew, to the left or in halves, keeps the sequence of the operands and the number of nodes.
None of the operands is a join of the connective. To the left, the first operand is joined with one after
the other, and no other tree over these operands is left-deep. Either result is the same for all trees over
these operands, so that joining anew once more, in whichever way, gives what it gives at first. -/
theorem joined_anew (op : Connective) (t : Rule) :
    (op.leaves (op.rechain t) = op.leaves t ∧ op.leaves (op.rebalance t) = op.leaves t) ∧
    ((op.rechain t).nodeCount = t.nodeCount ∧ (op.rebalance t).nodeCount = t.nodeCount) ∧
    (∀ s ∈ op.leaves t, op.split s = none) ∧
    (∃ head tail, op.leaves t = head :: tail ∧ op.rechain t = tail.foldl (.join op) head) ∧
    (op.LeftDeep (op.rechain t) ∧
      ∀ u, op.LeftDeep u → op.leaves u = op.leaves t → u = op.rechain t) ∧
    (∀ u, op.leaves u = op.leaves t →
      op.rechain u = op.rechain t ∧ op.rebalance u = op.rebalance t) ∧
    op.rechain (op.rechain t) = op.rechain t ∧ op.rebalance (op.rebalance t) = op.rebalance t ∧
    op.rechain (op.rebalance t) = op.rechain t ∧ op.rebalance (op.rechain t) = op.rebalance t := by
  have hchain := op.leaves_rechain t
  have hhalves := op.leaves_rebalance t
  refine ⟨⟨hchain, hhalves⟩, ⟨nodeCount_eq_of_leaves hchain, nodeCount_eq_of_leaves hhalves⟩,
    fun s => split_eq_none_of_mem_leaves, op.exists_rechain t,
    ⟨op.leftDeep_rechain t, fun u hu hleaves => ?_⟩,
    fun u hu => ⟨rechain_eq_of_leaves hu, rebalance_eq_of_leaves hu⟩,
    rechain_eq_of_leaves hchain, rebalance_eq_of_leaves hhalves,
    rechain_eq_of_leaves hhalves, rebalance_eq_of_leaves hchain⟩
  exact (rechain_of_leftDeep hu).symm.trans (rechain_eq_of_leaves hleaves)

/-- Four operands joined to the right, one of them a join of the other connective. -/
theorem joined_anew_right :
    let leaf (name : Char) : Rule := .condition ⟨[name], .equal, .string ['x']⟩
    let pair : Rule := .join .or (leaf 'b') (leaf 'c')
    let t : Rule := .join .and (leaf 'a') (.join .and pair (.join .and (.not (leaf 'd')) (leaf 'e')))
    let row : Rule := .join .and (.join .and (.join .and (leaf 'a') pair) (.not (leaf 'd'))) (leaf 'e')
    Connective.and.leaves row = Connective.and.leaves t ∧ Connective.and.LeftDeep row ∧
      Connective.and.rechain t = row ∧
      Connective.and.rebalance row = Connective.and.rebalance t ∧
      Connective.and.split pair = none := by
  intro leaf pair t row
  have hleaves : Connective.and.leaves row = Connective.and.leaves t := rfl
  have hrow : Connective.and.LeftDeep row :=
    fun _ => ⟨fun _ => ⟨fun _ => ⟨trivial, rfl⟩, rfl⟩, rfl⟩
  obtain ⟨-, -, hoperands, -, ⟨-, hunique⟩, hsame, -⟩ := joined_anew .and t
  exact ⟨hleaves, hrow, (hunique row hrow hleaves).symm, (hsame row hleaves).2,
    hoperands pair (by simp [t, pair, leaf, leaves])⟩

end Rulebook.Connective
