import Mathlib.Data.List.Iterate
import Mathlib.Data.Nat.Log
import Rulebook.Proofs.CombinedDepth
set_option autoImplicit false

/-!
Joining in halves against joining to the left. Halves are taken by the number of operands, whatever the
depths of the operands are: the logarithm of their number is put on top of the deepest one. Joining to the
left puts on top of an operand one level for each operand behind it, so that a deep operand near the end is
better off there.
-/

namespace Rulebook

namespace Connective

theorem lt_joinDepth_left (a b : Nat) : a < joinDepth a b := Nat.lt_succ_of_le (Nat.le_max_left a b)

theorem lt_joinDepth_right (a b : Nat) : b < joinDepth a b := Nat.lt_succ_of_le (Nat.le_max_right a b)

theorem add_length_le_foldl (d : Nat) (depths : List Nat) :
    d + depths.length ≤ depths.foldl joinDepth d := by
  induction depths generalizing d with
  | nil => simp
  | cons e depths ih =>
    have hjoin := lt_joinDepth_left d e
    have := ih (joinDepth d e)
    simp only [List.foldl_cons, List.length_cons]
    omega

/-- In a row, an operand has a level above it for each one behind it, and one more if it is not the
first. -/
theorem add_le_chainDepth (before : List Nat) (d : Nat) (after : List Nat) :
    d + after.length + min before.length 1 ≤ chainDepth (before ++ d :: after) := by
  cases before with
  | nil => simpa [chainDepth] using add_length_le_foldl d after
  | cons b before =>
    have hbehind := add_length_le_foldl (joinDepth (before.foldl joinDepth b) d) after
    have hjoin := lt_joinDepth_right (before.foldl joinDepth b) d
    simp only [chainDepth, List.cons_append, List.foldl_append, List.foldl_cons, List.length_cons]
    omega

theorem clog_eq_succ {n : Nat} (h : 2 ≤ n) : Nat.clog 2 n = Nat.clog 2 ((n + 1) / 2) + 1 :=
  Nat.clog_of_two_le (by decide) h

theorem eq_nil_or_singleton {depths : List Nat} (h : ¬2 ≤ depths.length) :
    depths = [] ∨ ∃ d, depths = [d] := by
  obtain _ | ⟨d, _ | ⟨e, rest⟩⟩ := depths
  · exact .inl rfl
  · exact .inr ⟨d, rfl⟩
  · exact absurd (by simp) h

/-- In halves, no operand has more levels above it than the logarithm of the number of operands. -/
theorem balancedDepth_le {depths : List Nat} {bound : Nat} (h : ∀ d ∈ depths, d ≤ bound) :
    balancedDepth depths ≤ bound + Nat.clog 2 depths.length := by
  induction hn : depths.length using Nat.strongRecOn generalizing depths with
  | ind n ih =>
    by_cases htwo : 2 ≤ n
    · have hclog := clog_eq_succ htwo
      have hfirst : balancedDepth (depths.take (n / 2)) ≤ bound + Nat.clog 2 (n / 2) :=
        ih (n / 2) (by omega) (fun d hd => h d (List.mem_of_mem_take hd)) (by simp; omega)
      have hsecond : balancedDepth (depths.drop (n / 2)) ≤ bound + Nat.clog 2 (n - n / 2) :=
        ih (n - n / 2) (by omega) (fun d hd => h d (List.mem_of_mem_drop hd)) (by simp [hn])
      have hless : Nat.clog 2 (n / 2) ≤ Nat.clog 2 ((n + 1) / 2) := Nat.clog_mono_right 2 (by omega)
      have hmore : Nat.clog 2 (n - n / 2) ≤ Nat.clog 2 ((n + 1) / 2) :=
        Nat.clog_mono_right 2 (by omega)
      rw [balancedDepth_of_two_le (hn ▸ htwo), hn, joinDepth]
      omega
    · obtain rfl | ⟨d, rfl⟩ := eq_nil_or_singleton (hn ▸ htwo)
      · simp [balancedDepth]
      · have := h d (by simp)
        simp only [balancedDepth]
        omega

/-- Where enough operands stand behind a deepest one, halves are no deeper than a row. -/
theorem balancedDepth_le_chainDepth {before : List Nat} {d : Nat} {after : List Nat}
    (hmax : ∀ e ∈ before ++ d :: after, e ≤ d)
    (h : Nat.clog 2 (before ++ d :: after).length ≤ after.length + 1) :
    balancedDepth (before ++ d :: after) ≤ chainDepth (before ++ d :: after) := by
  have hhalves := balancedDepth_le hmax
  have hrow := add_le_chainDepth before d after
  cases before with
  | nil =>
    -- The first operand is joined once less, but then all the others are behind it.
    have hclog : Nat.clog 2 (after.length + 1) ≤ after.length :=
      Nat.clog_le_of_le_pow Nat.lt_two_pow_self
    simp only [List.nil_append, List.length_cons, List.length_nil] at hhalves hrow ⊢
    omega
  | cons b before =>
    simp only [List.length_cons] at hrow
    omega

/-- In any case halves are at most so much deeper than a row. -/
theorem balancedDepth_le_add (depths : List Nat) :
    balancedDepth depths ≤ chainDepth depths + (Nat.clog 2 depths.length - 1) := by
  by_cases htwo : 2 ≤ depths.length
  · have hbelow : ∀ d ∈ depths, d ≤ chainDepth depths - 1 := by
      intro d hd
      obtain ⟨before, after, rfl⟩ := List.append_of_mem hd
      have := add_le_chainDepth before d after
      simp only [List.length_append, List.length_cons] at htwo
      omega
    have hpos : 0 < chainDepth depths := by
      obtain ⟨d, rest, rfl⟩ := List.exists_cons_of_length_pos (Nat.lt_of_lt_of_le Nat.two_pos htwo)
      have := add_length_le_foldl d rest
      simp only [chainDepth, List.length_cons] at htwo ⊢
      omega
    have := balancedDepth_le hbelow
    have hclog := clog_eq_succ htwo
    omega
  · obtain rfl | ⟨d, rfl⟩ := eq_nil_or_singleton htwo
    · simp [balancedDepth]
    · simp [balancedDepth, chainDepth]

end Connective

namespace FlattenPolicy

open Connective (chainDepth balancedDepth)

variable {op : Connective} {first : Rule} {rest : List Rule}

theorem depth_homogeneous (h : Uniform op (first :: rest)) :
    (homogeneous.prescribed op first rest).depth =
      chainDepth (((first :: rest).flatMap op.leaves).map Rule.depth) := by
  simp only [prescribed, h, if_true, rewrite, Connective.rechain, Connective.depth_foldLeft,
    toList_operands_foldl]

theorem depth_balanced (h : Uniform op (first :: rest)) :
    (balanced.prescribed op first rest).depth =
      balancedDepth (((first :: rest).flatMap op.leaves).map Rule.depth) := by
  simp only [prescribed, h, if_true, rewrite, Connective.rebalance, Connective.depth_foldHalves,
    toList_operands_foldl]

section

variable (hroots : ∀ r ∈ first :: rest, (∃ c, r = .condition c) ∨ ∃ a b, r = .join op a b)

include hroots

theorem depth_balanced_le :
    (balanced.prescribed op first rest).depth ≤ (homogeneous.prescribed op first rest).depth +
      (Nat.clog 2 ((first :: rest).flatMap op.leaves).length - 1) := by
  cases rest with
  | nil => simp only [prescribed_one, Nat.le_add_right]
  | cons second rest =>
    have huniform : Uniform op (first :: second :: rest) := ⟨by simp, hroots⟩
    rw [depth_homogeneous huniform, depth_balanced huniform, ← List.length_map (f := Rule.depth)]
    exact Connective.balancedDepth_le_add _

theorem depth_balanced_le_of_behind {before after : List Rule} {r : Rule}
    (hoperands : (first :: rest).flatMap op.leaves = before ++ r :: after)
    (hmax : ∀ s ∈ (first :: rest).flatMap op.leaves, s.depth ≤ r.depth)
    (hbehind : Nat.clog 2 ((first :: rest).flatMap op.leaves).length ≤ after.length + 1) :
    (balanced.prescribed op first rest).depth ≤ (homogeneous.prescribed op first rest).depth := by
  cases rest with
  | nil => simp only [prescribed_one, le_refl]
  | cons second rest =>
    have huniform : Uniform op (first :: second :: rest) := ⟨by simp, hroots⟩
    rw [depth_homogeneous huniform, depth_balanced huniform]
    rw [hoperands] at hmax hbehind ⊢
    rw [List.map_append, List.map_cons]
    refine Connective.balancedDepth_le_chainDepth (fun d hd => ?_) (by simpa using hbehind)
    rw [← List.map_cons, ← List.map_append] at hd
    obtain ⟨s, hs, rfl⟩ := List.mem_map.1 hd
    exact hmax s hs

end

/-- Inputs of which each is a comparison or a join of the connective, combined by the homogeneous policy:
the balanced policy gives the tree that it prescribes, or refuses it for its depth. That depth is greater by
less than the logarithm of the number of operands. It is not greater at all if there is a deepest operand
with enough others behind it, as when all are equally deep, and then the tree is not refused. -/
theorem balanced_of_homogeneous {t : Rule}
    (hroots : ∀ r ∈ first :: rest, (∃ c, r = .condition c) ∨ ∃ a b, r = .join op a b)
    (ht : homogeneous.combine op (first :: rest) = .ok t) :
    let operands := (first :: rest).flatMap op.leaves
    let t' := balanced.prescribed op first rest
    balanced.combine op (first :: rest) =
        (if t'.depth ≤ 100 then .ok t' else .error (.tooDeep t'.depth)) ∧
      t'.depth ≤ t.depth + (Nat.clog 2 operands.length - 1) ∧
      ∀ before r after, operands = before ++ r :: after → (∀ s ∈ operands, s.depth ≤ r.depth) →
        Nat.clog 2 operands.length ≤ after.length + 1 →
        t'.depth ≤ t.depth ∧ balanced.combine op (first :: rest) = .ok t' := by
  intro operands t'
  have hbalanced := balanced.combine_cons op first rest
  obtain ⟨hfits, rfl⟩ := combine_cons_eq_ok_iff.1 ht
  refine ⟨hbalanced, depth_balanced_le hroots, fun before r after hoperands hmax hbehind => ?_⟩
  have hle : t'.depth ≤ (homogeneous.prescribed op first rest).depth :=
    depth_balanced_le_of_behind hroots hoperands hmax hbehind
  exact ⟨hle, combine_cons_eq_ok_iff.2 ⟨hle.trans hfits, rfl⟩⟩

/-- The last of three operands is the deepest. In halves it is put one level deeper than in a row, and
where the row is as deep as it may be the halves are refused. -/
theorem balanced_deeper_than_homogeneous :
    let leaf (name : Char) : Rule := .condition ⟨[name], .equal, .string ['x']⟩
    let denied (count : Nat) : Rule := Rule.not^[count] (leaf 'c')
    let inputs (count : Nat) : List Rule := [leaf 'a', .join .and (leaf 'b') (denied count)]
    homogeneous.combine .and (inputs 1) =
        .ok (.join .and (.join .and (leaf 'a') (leaf 'b')) (denied 1)) ∧
      balanced.combine .and (inputs 1) =
        .ok (.join .and (leaf 'a') (.join .and (leaf 'b') (denied 1))) ∧
      (Rule.join .and (.join .and (leaf 'a') (leaf 'b')) (denied 1)).depth = 3 ∧
      (Rule.join .and (leaf 'a') (.join .and (leaf 'b') (denied 1))).depth = 4 ∧
      homogeneous.combine .and (inputs 98) =
        .ok (.join .and (.join .and (leaf 'a') (leaf 'b')) (denied 98)) ∧
      balanced.combine .and (inputs 98) = .error (.tooDeep 101) := by
  intro leaf denied inputs
  simp only [inputs, denied, leaf]
  cbv

/-- The deepest of four operands is the second, with two others behind it. -/
theorem balanced_of_homogeneous_four :
    let leaf (name : Char) : Rule := .condition ⟨[name], .equal, .string ['x']⟩
    let deepest : Rule := .not (.not (leaf 'b'))
    let inputs : List Rule := [.join .or (leaf 'a') deepest, leaf 'c', leaf 'd']
    let row : Rule := .join .or (.join .or (.join .or (leaf 'a') deepest) (leaf 'c')) (leaf 'd')
    let halves : Rule := .join .or (.join .or (leaf 'a') deepest) (.join .or (leaf 'c') (leaf 'd'))
    homogeneous.combine .or inputs = .ok row ∧ balanced.combine .or inputs = .ok halves ∧
      halves.depth ≤ row.depth := by
  intro leaf deepest inputs row halves
  have hrow : homogeneous.combine .or inputs = .ok row := by
    simp only [inputs, row, deepest, leaf]
    cbv
  have hhalves : balanced.prescribed .or (.join .or (leaf 'a') deepest) [leaf 'c', leaf 'd'] =
      halves := by
    simp only [halves, deepest, leaf]
    cbv
  have hroots : ∀ r ∈ inputs, (∃ c, r = .condition c) ∨ ∃ a b, r = .join .or a b := by
    simp [inputs, leaf]
  have hfour : Nat.clog 2 4 ≤ 3 := Nat.clog_le_of_le_pow (by decide)
  obtain ⟨-, -, hbehind⟩ := balanced_of_homogeneous hroots hrow
  obtain ⟨hle, hok⟩ := hbehind [leaf 'a'] deepest [leaf 'c', leaf 'd'] rfl
    (by simp [leaf, deepest, Rule.depth, Connective.leaves]) hfour
  rw [hhalves] at hle hok
  exact ⟨hrow, hok, hle⟩

end FlattenPolicy
end Rulebook
