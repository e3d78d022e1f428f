import Mathlib.Data.List.Forall2
import Rulebook.Proofs.CombinedDepth
import Rulebook.Proofs.Rejoining
set_option autoImplicit false

/-!
Combining in stages. The inputs may first be combined group by group. A policy that takes joins apart finds
in the results of the groups just the operands of the inputs, so that the last stage comes to what combining
all inputs at once comes to: to the same tree, or to the same refusal of it.
-/

namespace Rulebook

namespace Connective

variable {op : Connective} {r : Rule}

theorem leaves_ne_nil (op : Connective) (r : Rule) : op.leaves r ≠ [] := by
  rw [← toList_operands]
  exact List.cons_ne_nil _ _

/-- What has two leaves or more is a join. -/
theorem heads_of_two_le_leaves (h : 2 ≤ (op.leaves r).length) : op.heads r = true := by
  cases hsplit : op.split r with
  | none =>
    rw [leaves_of_split_eq_none hsplit, List.length_singleton] at h
    omega
  | some p => rw [heads, hsplit, Option.isSome_some]

theorem length_le_flatMap_leaves (op : Connective) (rules : List Rule) :
    rules.length ≤ (rules.flatMap op.leaves).length := by
  induction rules with
  | nil => simp
  | cons r rules ih =>
    have hpos := List.length_pos_iff.2 (op.leaves_ne_nil r)
    simp only [List.flatMap_cons, List.length_append, List.length_cons]
    omega

end Connective

namespace FlattenPolicy

open Connective (leaves_foldLeft leaves_join_policy)

variable {policy : FlattenPolicy} {op : Connective} {rules others : List Rule} {r t u : Rule}

/-- A policy that takes joins apart goes by the leaves alone. -/
theorem rewrite_of_leaves (hpolicy : policy ≠ disabled) (h : op.leaves u = op.leaves t) :
    policy.rewrite op u = policy.rewrite op t := by
  cases policy with
  | disabled => exact absurd rfl hpolicy
  | homogeneous => exact Connective.rechain_eq_of_leaves h
  | balanced => exact Connective.rebalance_eq_of_leaves h

/-- Uniform inputs with the same leaves have the same combination, or are refused with the same depth. -/
theorem combine_of_leaves (hpolicy : policy ≠ disabled) (hrules : Uniform op rules)
    (hothers : Uniform op others) (h : rules.flatMap op.leaves = others.flatMap op.leaves) :
    policy.combine op rules = policy.combine op others := by
  obtain ⟨first, rest, rfl⟩ := List.exists_cons_of_length_pos (Nat.lt_of_lt_of_le Nat.two_pos hrules.1)
  obtain ⟨one, more, rfl⟩ := List.exists_cons_of_length_pos (Nat.lt_of_lt_of_le Nat.two_pos hothers.1)
  have hjoined : op.leaves (rest.foldl (Rule.join op) first) =
      op.leaves (more.foldl (Rule.join op) one) :=
    (leaves_foldLeft op ⟨first, rest⟩).trans (h.trans (leaves_foldLeft op ⟨one, more⟩).symm)
  have hsame : policy.prescribed op first rest = policy.prescribed op one more := by
    simp only [prescribed, hrules, hothers, if_true]
    exact rewrite_of_leaves hpolicy hjoined
  rw [combine_cons, combine_cons, hsame]

theorem leaves_of_combine (h : policy.combine op rules = .ok r) :
    op.leaves r = rules.flatMap op.leaves := by
  obtain ⟨inputs, rfl, rfl, -⟩ := combine_eq_ok h
  exact leaves_join_policy policy op inputs

theorem combine_one_eq_ok (h : policy.combine op [t] = .ok r) : r = t := by
  obtain ⟨-, hr⟩ := combine_cons_eq_ok_iff.1 h
  rw [← hr, prescribed_one]

/-- The combination of a group is one of its members or a join. -/
theorem root_of_combine (h : policy.combine op rules = .ok r)
    (hroots : ∀ s ∈ rules, (∃ c, s = .condition c) ∨ ∃ a b, s = .join op a b) :
    (∃ c, r = .condition c) ∨ ∃ a b, r = .join op a b := by
  match rules with
  | [] => cases h
  | [s] =>
    rw [combine_one_eq_ok h]
    exact hroots s (by simp)
  | first :: second :: rest =>
    have hlength := op.length_le_flatMap_leaves (first :: second :: rest)
    rw [← leaves_of_combine h, List.length_cons, List.length_cons] at hlength
    exact .inr (Connective.heads_iff.1 (Connective.heads_of_two_le_leaves (by omega)))

section

variable {groups : List (List Rule)} {results : List Rule}

theorem leaves_of_stages
    (hstages : List.Forall₂ (fun g r => policy.combine op g = .ok r) groups results) :
    results.flatMap op.leaves = groups.flatten.flatMap op.leaves := by
  induction hstages with
  | nil => rfl
  | cons h _ ih =>
    rw [List.flatMap_cons, List.flatten_cons, List.flatMap_append, leaves_of_combine h, ih]

theorem roots_of_stages
    (hstages : List.Forall₂ (fun g r => policy.combine op g = .ok r) groups results)
    (hroots : ∀ g ∈ groups, ∀ r ∈ g, (∃ c, r = .condition c) ∨ ∃ a b, r = .join op a b) :
    ∀ r ∈ results, (∃ c, r = .condition c) ∨ ∃ a b, r = .join op a b := by
  induction hstages with
  | nil => simp
  | cons h _ ih =>
    rw [List.forall_mem_cons] at hroots ⊢
    exact ⟨root_of_combine h hroots.1, ih hroots.2⟩

/-- No group is empty, for it would have no result. -/
theorem length_le_of_stages
    (hstages : List.Forall₂ (fun g r => policy.combine op g = .ok r) groups results) :
    results.length ≤ groups.flatten.length := by
  induction hstages with
  | nil => simp
  | @cons g r _ _ h _ ih =>
    have hpos : 0 < g.length := by
      cases g with
      | nil => cases h
      | cons s g => exact Nat.succ_pos _
    simp only [List.length_cons, List.flatten_cons, List.length_append]
    omega

end

/-- A combination is a tree within the limit of depth, or the refusal of a deeper one. -/
theorem combine_cases (policy : FlattenPolicy) (op : Connective) (h : rules ≠ []) :
    (∃ t, policy.combine op rules = .ok t ∧ t.depth ≤ 100) ∨
      ∃ depth, policy.combine op rules = .error (.tooDeep depth) ∧ 100 < depth := by
  cases rules with
  | nil => exact absurd rfl h
  | cons first rest =>
    rw [combine_cons]
    split
    · rename_i hle
      exact .inl ⟨_, rfl, hle⟩
    · rename_i hle
      exact .inr ⟨_, rfl, Nat.lt_of_not_le hle⟩

/-- Groups of inputs whose roots are comparisons or joins of the connective, under a policy that takes joins
apart: where each group combines, the results of the groups combine to the same tree as all the inputs, or
are refused with the same depth. -/
theorem combine_in_stages {groups : List (List Rule)} {results : List Rule}
    (hpolicy : policy = homogeneous ∨ policy = balanced) (hgroups : groups ≠ [])
    (hroots : ∀ g ∈ groups, ∀ r ∈ g, (∃ c, r = .condition c) ∨ ∃ a b, r = .join op a b)
    (hstages : List.Forall₂ (fun g r => policy.combine op g = .ok r) groups results) :
    policy.combine op results = policy.combine op groups.flatten ∧
      ((∃ t, policy.combine op results = .ok t ∧ t.depth ≤ 100) ∨
        ∃ depth, policy.combine op results = .error (.tooDeep depth) ∧ 100 < depth) := by
  have hapart : policy ≠ disabled := by
    obtain rfl | rfl := hpolicy <;> decide
  have hlength := hstages.length_eq
  refine ⟨?_, combine_cases policy op fun hnil => ?_⟩
  · match groups, results, hstages with
    | [g], [r], .cons h .nil =>
      -- One group is no second stage: its result is copied.
      obtain ⟨inputs, -, -, hdepth⟩ := combine_eq_ok h
      rw [List.flatten_singleton, h]
      exact combine_cons_eq_ok_iff.2 ⟨by rwa [prescribed_one], prescribed_one policy op r⟩
    | g :: g' :: groups, r :: r' :: results, hstages =>
      have hle := length_le_of_stages hstages
      have htwo : 2 ≤ (r :: r' :: results).length := by simp
      have hinputs : ∀ s ∈ (g :: g' :: groups).flatten,
          (∃ c, s = .condition c) ∨ ∃ a b, s = .join op a b := by
        intro s hs
        obtain ⟨group, hgroup, hs⟩ := List.mem_flatten.1 hs
        exact hroots group hgroup s hs
      exact combine_of_leaves hapart ⟨htwo, roots_of_stages hstages hroots⟩
        ⟨Nat.le_trans htwo hle, hinputs⟩ (leaves_of_stages hstages)
  · rw [hnil, List.length_nil] at hlength
    exact hgroups (List.eq_nil_of_length_eq_zero hlength)

/-- Three groups under the balanced policy, one of them a single comparison; and two rows of sixty under the
homogeneous one, each of which combines. -/
theorem combine_in_stages_rows :
    let leaf (name : Char) : Rule := .condition ⟨[name], .equal, .string ['x']⟩
    let pair (a b : Rule) : Rule := .join .and a b
    let groups : List (List Rule) :=
      [[leaf 'a', pair (leaf 'b') (leaf 'c')], [leaf 'd'], [leaf 'e', leaf 'f']]
    let results : List Rule :=
      [pair (leaf 'a') (pair (leaf 'b') (leaf 'c')), leaf 'd', pair (leaf 'e') (leaf 'f')]
    let half : List Rule := List.replicate 60 (leaf 'a')
    let row : Rule := (List.replicate 59 (leaf 'a')).foldl pair (leaf 'a')
    balanced.combine .and results =
        .ok (pair (pair (leaf 'a') (pair (leaf 'b') (leaf 'c')))
          (pair (leaf 'd') (pair (leaf 'e') (leaf 'f')))) ∧
      balanced.combine .and results = balanced.combine .and groups.flatten ∧
      homogeneous.combine .and half = .ok row ∧
      homogeneous.combine .and [row, row] = homogeneous.combine .and (half ++ half) ∧
      homogeneous.combine .and [row, row] = .error (.tooDeep 120) := by
  intro leaf pair groups results half row
  have hgroups : List.Forall₂ (fun g r => balanced.combine .and g = .ok r) groups results := by
    refine .cons ?_ (.cons ?_ (.cons ?_ .nil))
    all_goals
      simp only [pair, leaf]
      cbv
  have hrow : homogeneous.combine .and half = .ok row := by
    simp only [half, row, pair, leaf]
    cbv
  have hhalf : ∀ r ∈ half, (∃ c, r = .condition c) ∨ ∃ a b, r = .join .and a b :=
    fun r hr => .inl ⟨_, List.eq_of_mem_replicate hr⟩
  obtain ⟨hhalves, -⟩ := combine_in_stages (.inr rfl) (by simp [groups])
    (by simp [groups, leaf, pair]) hgroups
  obtain ⟨hrows, -⟩ := @combine_in_stages homogeneous .and [half, half] [row, row] (.inl rfl) (by simp)
    (by simpa using hhalf) (.cons hrow (.cons hrow .nil))
  refine ⟨?_, hhalves, hrow, by simpa using hrows, ?_⟩
  · simp only [results, pair, leaf]
    cbv
  · simp only [row, pair, leaf]
    cbv

end FlattenPolicy
end Rulebook
