import Rulebook.Message
import Rulebook.Proofs.Operands
set_option autoImplicit false

/-!
The check of depth is exact. What a policy prescribes is built if it keeps within the limit; otherwise it
is refused with the depth that it would have had.
-/

namespace Rulebook

theorem Rule.isCondition_iff {r : Rule} : r.isCondition = true ↔ ∃ c, r = .condition c := by
  cases r <;> simp [isCondition]

theorem Connective.heads_iff {op : Connective} {r : Rule} :
    op.heads r = true ↔ ∃ a b, r = .join op a b := by
  simp only [heads, Option.isSome_iff_exists, Prod.exists, split_eq_some_iff]

namespace FlattenPolicy

/-- Two inputs or more, each a comparison or a join of the connective. -/
def Uniform (op : Connective) (inputs : List Rule) : Prop :=
  2 ≤ inputs.length ∧ ∀ r ∈ inputs, (∃ c, r = .condition c) ∨ ∃ a b, r = .join op a b

theorem uniform_iff {op : Connective} {inputs : List Rule} :
    2 ≤ inputs.length ∧ (inputs.all fun r => r.isCondition || op.heads r) = true ↔
      Uniform op inputs := by
  simp only [Uniform, List.all_eq_true, Bool.or_eq_true, Rule.isCondition_iff,
    Connective.heads_iff]

instance (op : Connective) (inputs : List Rule) : Decidable (Uniform op inputs) :=
  decidable_of_iff _ uniform_iff

theorem applies_iff {op : Connective} {inputs : Chain Rule} :
    applies op inputs = true ↔ Uniform op inputs.toList := by
  have htwo : (!inputs.tail.isEmpty) = true ↔ 2 ≤ inputs.toList.length := by
    obtain ⟨head, tail⟩ := inputs
    cases tail <;> simp [Chain.toList]
  rw [applies, Bool.and_eq_true, htwo, uniform_iff]

/-- What a policy makes of inputs that were joined to the left. -/
def rewrite (op : Connective) (joined : Rule) : FlattenPolicy → Rule
  | disabled => joined
  | homogeneous => op.rechain joined
  | balanced => op.rebalance joined

/-- The inputs joined to the left, and rewritten if they are uniform. -/
def prescribed (policy : FlattenPolicy) (op : Connective) (first : Rule) (rest : List Rule) : Rule :=
  let joined := rest.foldl (Rule.join op) first
  if Uniform op (first :: rest) then policy.rewrite op joined else joined

theorem prescribed_one (policy : FlattenPolicy) (op : Connective) (first : Rule) :
    policy.prescribed op first [] = first := by
  rw [prescribed, if_neg fun h => absurd h.1 (by simp)]
  rfl

theorem toList_operands_foldl (op : Connective) (first : Rule) (rest : List Rule) :
    (op.operands (rest.foldl (Rule.join op) first)).toList = (first :: rest).flatMap op.leaves :=
  op.toList_operands_foldLeft ⟨first, rest⟩

theorem join_eq_prescribed (policy : FlattenPolicy) (op : Connective) (first : Rule)
    (rest : List Rule) : policy.join op ⟨first, rest⟩ = policy.prescribed op first rest := by
  have happ : applies op ⟨first, rest⟩ = true ↔ Uniform op (first :: rest) := applies_iff
  unfold join prescribed
  by_cases h : Uniform op (first :: rest)
  · simp only [happ.2 h, h, if_true]
    cases policy <;> rfl
  · simp only [mt happ.1 h, h, if_false]
    rfl

theorem predictedDepth_eq_prescribed (policy : FlattenPolicy) (op : Connective) (first : Rule)
    (rest : List Rule) :
    policy.predictedDepth op ⟨first, rest⟩ = (policy.prescribed op first rest).depth := by
  rw [predictedDepth_eq, join_eq_prescribed]

theorem combine_cons (policy : FlattenPolicy) (op : Connective) (first : Rule) (rest : List Rule) :
    policy.combine op (first :: rest) =
      if (policy.prescribed op first rest).depth ≤ Rule.maxDepth then
        .ok (policy.prescribed op first rest)
      else .error (.tooDeep (policy.prescribed op first rest).depth) := by
  rw [combine, predictedDepth_eq_prescribed, join_eq_prescribed]
  by_cases h : (policy.prescribed op first rest).depth ≤ Rule.maxDepth
  · rw [if_pos h, if_neg (Nat.not_lt.2 h)]
  · rw [if_neg h, if_pos (Nat.lt_of_not_le h)]

theorem combine_cons_eq_ok_iff {policy : FlattenPolicy} {op : Connective} {first : Rule}
    {rest : List Rule} {t : Rule} :
    policy.combine op (first :: rest) = .ok t ↔
      (policy.prescribed op first rest).depth ≤ Rule.maxDepth ∧
        policy.prescribed op first rest = t := by
  rw [combine_cons]
  split
  · rename_i hle
    simp [hle]
  · rename_i hle
    simp [hle]

/-- The prescribed tree is the result if it is at most 100 levels deep. Otherwise the failure tells its
depth and the limit. The depth is the one predicted from the depths of the operands. -/
theorem combine_eq_prescribed (policy : FlattenPolicy) (op : Connective) (first : Rule)
    (rest : List Rule) :
    let t := policy.prescribed op first rest
    policy.combine op (first :: rest) =
        (if t.depth ≤ 100 then .ok t else .error (.tooDeep t.depth)) ∧
      policy.predictedDepth op ⟨first, rest⟩ = t.depth ∧
      (CombineError.tooDeep t.depth).message =
        "combined tree would be ".toList ++ Text.ofNat t.depth ++
          " levels deep, the limit is 100".toList := by
  intro t
  refine ⟨policy.combine_cons op first rest, policy.predictedDepth_eq_prescribed op first rest, ?_⟩
  have hend : " levels deep, the limit is ".toList ++ Text.ofNat 100 =
      " levels deep, the limit is 100".toList := by cbv
  exact (List.append_assoc _ _ _).trans (congrArg _ hend)

/-- Two joins of two comparisons each: their operands in a row, in halves, and left alone under the other
connective. -/
example :
    let leaf (name : Char) : Rule := .condition ⟨[name], .equal, .string ['x']⟩
    let pair : Rule := .join .or (leaf 'a') (leaf 'b')
    (homogeneous.prescribed .or pair [pair]).depth = 4 ∧
      balanced.prescribed .or pair [pair] = .join .or pair pair ∧
      homogeneous.prescribed .and pair [pair] = .join .and pair pair := by
  intro leaf pair
  simp only [leaf, pair]
  cbv

end FlattenPolicy
end Rulebook
