import Mathlib.Data.List.Basic
import Rulebook.Proofs.Balance
import Rulebook.Proofs.Rejoining
set_option autoImplicit false

/-!
The least depth of a tree joined from given operands. A join at most doubles the number of operands and adds
one level. Hence over equally deep operands every tree has the logarithm of their number on top, and joining
in halves puts no more there.
-/

namespace Rulebook

/-- The depth of the deepest of these rules. -/
def Rule.deepest (rules : List Rule) : Nat := (rules.map Rule.depth).foldr max 0

theorem Rule.depth_le_deepest {rules : List Rule} {r : Rule} (h : r ∈ rules) :
    r.depth ≤ deepest rules := by
  induction rules with
  | nil => cases h
  | cons s rules ih =>
    obtain rfl | h := List.mem_cons.1 h
    · exact Nat.le_max_left _ _
    · exact (ih h).trans (Nat.le_max_right _ _)

namespace Connective

variable {op : Connective} {operands : List Rule} {t : Rule} {d : Nat}

/-- The tree is joined from these operands in this order, in one way or another. -/
inductive JoinedFrom (op : Connective) : List Rule → Rule → Prop
  | one (r : Rule) : JoinedFrom op [r] r
  | join {rs ss : List Rule} {l r : Rule} (hl : JoinedFrom op rs l) (hr : JoinedFrom op ss r) :
      JoinedFrom op (rs ++ ss) (.join op l r)

theorem joinedFrom_leaves (op : Connective) (t : Rule) : op.JoinedFrom (op.leaves t) t := by
  induction t with
  | join o l r ihl ihr =>
    by_cases ho : o = op
    · subst ho
      rw [leaves_join]
      exact .join ihl ihr
    · rw [leaves, if_neg ho]
      exact .one _
  | _ => exact .one _

theorem joinedFrom_foldHalves (op : Connective) (c : Chain Rule) :
    op.JoinedFrom c.toList (c.foldHalves (Rule.join op)) :=
  Chain.foldHalves_induction (P := fun c r => op.JoinedFrom c.toList r) JoinedFrom.one
    (fun _ _ _ _ hx hy => .join hx hy) c

theorem joinedFrom_rebalance (op : Connective) (t : Rule) :
    op.JoinedFrom (op.leaves t) (op.rebalance t) := by
  rw [← toList_operands]
  exact op.joinedFrom_foldHalves (op.operands t)

namespace JoinedFrom

theorem length_pos (h : op.JoinedFrom operands t) : 0 < operands.length := by
  induction h with
  | one r => exact Nat.one_pos
  | join _ _ ihl _ =>
    rw [List.length_append]
    exact Nat.add_pos_left ihl _

/-- A join at most doubles the number of operands, and it adds one level. -/
theorem length_mul_le (h : op.JoinedFrom operands t) (hdeep : ∀ r ∈ operands, d ≤ r.depth) :
    operands.length * 2 ^ d ≤ 2 ^ t.depth := by
  induction h with
  | one r =>
    rw [List.length_singleton, Nat.one_mul]
    exact Nat.pow_le_pow_right Nat.two_pos (hdeep r (by simp))
  | @join rs ss l r _ _ ihl ihr =>
    rw [List.forall_mem_append] at hdeep
    have hl : rs.length * 2 ^ d ≤ 2 ^ max l.depth r.depth :=
      (ihl hdeep.1).trans (Nat.pow_le_pow_right Nat.two_pos (Nat.le_max_left _ _))
    have hr : ss.length * 2 ^ d ≤ 2 ^ max l.depth r.depth :=
      (ihr hdeep.2).trans (Nat.pow_le_pow_right Nat.two_pos (Nat.le_max_right _ _))
    rw [List.length_append, Nat.add_mul, Rule.depth, Nat.pow_succ]
    omega

/-- Operands of some depth at least have the logarithm of their number above that depth. -/
theorem add_clog_le (h : op.JoinedFrom operands t) (hdeep : ∀ r ∈ operands, d ≤ r.depth) :
    d + Nat.clog 2 operands.length ≤ t.depth := by
  have hmul := h.length_mul_le hdeep
  have hd : d ≤ t.depth :=
    (Nat.pow_le_pow_iff_right Nat.one_lt_two).1
      ((Nat.le_mul_of_pos_left _ h.length_pos).trans hmul)
  have hlength : operands.length ≤ 2 ^ (t.depth - d) := by
    rw [← Nat.sub_add_cancel hd, Nat.pow_add] at hmul
    exact Nat.le_of_mul_le_mul_right hmul (Nat.two_pow_pos d)
  have := Nat.clog_le_of_le_pow hlength
  omega

end JoinedFrom

theorem rebalance_of_split_eq_none (h : op.split t = none) : op.rebalance t = t := by
  have hone : op.operands t = Chain.one t := by
    refine Chain.ext ?_
    rw [toList_operands, leaves_of_split_eq_none h, Chain.toList_one]
  rw [rebalance, hone, Chain.foldHalves_one]

theorem depth_rebalance_le (h : ∀ s ∈ op.leaves t, s.depth ≤ d) :
    (op.rebalance t).depth ≤ d + Nat.clog 2 (op.leaves t).length := by
  rw [rebalance, depth_foldHalves, toList_operands, ← List.length_map (f := Rule.depth)]
  exact balancedDepth_le (by simpa using h)

theorem depth_rebalance_eq (h : ∀ s ∈ op.leaves t, s.depth = d) :
    (op.rebalance t).depth = d + Nat.clog 2 (op.leaves t).length :=
  Nat.le_antisymm (depth_rebalance_le fun s hs => (h s hs).le)
    ((op.joinedFrom_rebalance t).add_clog_le fun s hs => (h s hs).ge)

end Connective

namespace FlattenPolicy

open Connective (depth_rebalance_eq depth_rebalance_le leaves_foldLeft rebalance_of_split_eq_none
  split_eq_none_of_mem_leaves)

section

variable {op : Connective} {first : Rule} {rest : List Rule}
  (hinputs : ∀ r ∈ first :: rest, ∃ c, r = .condition c)

include hinputs

theorem leaves_comparisons : (first :: rest).flatMap op.leaves = first :: rest := by
  have hone : ∀ r ∈ first :: rest, op.leaves r = [r] := by
    intro r hr
    obtain ⟨c, rfl⟩ := hinputs r hr
    rfl
  rw [List.flatMap_congr hone, List.flatMap_singleton']

theorem balanced_comparisons :
    balanced.prescribed op first rest = op.rebalance (rest.foldl (Rule.join op) first) := by
  cases rest with
  | nil =>
    obtain ⟨c, rfl⟩ := hinputs first (by simp)
    exact (prescribed_one balanced op _).trans (rebalance_of_split_eq_none rfl).symm
  | cons second rest =>
    have huniform : Uniform op (first :: second :: rest) := ⟨by simp, fun r hr => .inl (hinputs r hr)⟩
    simp only [prescribed, huniform, if_true, rewrite]

theorem depth_balanced_comparisons :
    (balanced.prescribed op first rest).depth = 1 + Nat.clog 2 (first :: rest).length := by
  have hleaves : op.leaves (rest.foldl (Rule.join op) first) = first :: rest :=
    (leaves_foldLeft op ⟨first, rest⟩).trans (leaves_comparisons hinputs)
  rw [balanced_comparisons hinputs, depth_rebalance_eq (d := 1), hleaves]
  rw [hleaves]
  intro s hs
  obtain ⟨c, rfl⟩ := hinputs s hs
  rfl

end

/-- The operands of a tree joined anew in halves are at most the logarithm of their number below its root.
If they are all equally deep, there is no tree over them that is less deep. So comparisons combined by the
balanced policy are refused for their depth only if there are more than 2^99 of them. -/
theorem balanced_logarithmic (op : Connective) (t : Rule) :
    let operands := op.leaves t
    let levels := Nat.clog 2 operands.length
    (op.JoinedFrom operands t ∧ op.JoinedFrom operands (op.rebalance t) ∧
      ∀ s ∈ operands, op.split s = none) ∧
    (op.rebalance t).depth ≤ Rule.deepest operands + levels ∧
    (∀ h, (∀ s ∈ operands, s.depth = h) →
      (op.rebalance t).depth = h + levels ∧ ∀ u, op.JoinedFrom operands u → h + levels ≤ u.depth) ∧
    ∀ first rest, (∀ r ∈ first :: rest, ∃ c, r = .condition c) →
      let n := (first :: rest).length
      let u := balanced.prescribed op first rest
      u.depth = 1 + Nat.clog 2 n ∧
        balanced.combine op (first :: rest) = if n ≤ 2 ^ 99 then .ok u else .error (.tooDeep u.depth) := by
  intro operands levels
  refine ⟨⟨op.joinedFrom_leaves t, op.joinedFrom_rebalance t, fun s => split_eq_none_of_mem_leaves⟩,
    depth_rebalance_le fun s => Rule.depth_le_deepest, fun h hequal => ⟨depth_rebalance_eq hequal,
      fun u hu => hu.add_clog_le fun s hs => (hequal s hs).ge⟩, ?_⟩
  intro first rest hinputs n u
  have hdepth : u.depth = 1 + Nat.clog 2 n := depth_balanced_comparisons hinputs
  refine ⟨hdepth, ?_⟩
  have hfits : u.depth ≤ Rule.maxDepth ↔ n ≤ 2 ^ 99 := by
    rw [← Nat.clog_le_iff_le_pow Nat.one_lt_two, hdepth, Rule.maxDepth]
    omega
  rw [combine_cons]
  exact if_congr hfits rfl rfl

/-- Five operands of depth 2, joined to the right and anew in halves, and three comparisons combined. -/
theorem balanced_logarithmic_five :
    let leaf (name : Char) : Rule := .condition ⟨[name], .equal, .string ['x']⟩
    let pair : Rule := .join .or (leaf 'c') (leaf 'd')
    let last : Rule := .join .and (.not (leaf 'e')) (.not (leaf 'f'))
    let t : Rule := .join .and (.not (leaf 'a')) (.join .and (.not (leaf 'b')) (.join .and pair last))
    (Connective.and.rebalance t).depth = 5 ∧ 5 ≤ t.depth ∧
      Connective.and.rebalance t =
        .join .and (.join .and (.not (leaf 'a')) (.not (leaf 'b'))) (.join .and pair last) ∧
      balanced.combine .or [leaf 'a', leaf 'b', leaf 'c'] =
        .ok (.join .or (leaf 'a') (.join .or (leaf 'b') (leaf 'c'))) := by
  intro leaf pair last t
  have hfive : Nat.clog 2 5 = 3 :=
    Nat.le_antisymm (Nat.clog_le_of_le_pow (by decide))
      ((Nat.lt_clog_iff_pow_lt Nat.one_lt_two).2 (by decide))
  have hlevels : 2 + Nat.clog 2 (Connective.and.leaves t).length = 5 := congrArg (2 + ·) hfive
  obtain ⟨⟨hjoined, -⟩, -, hequal, -⟩ := balanced_logarithmic .and t
  obtain ⟨hdepth, hleast⟩ := hequal 2 (by simp [t, pair, last, leaf, Connective.leaves, Rule.depth])
  obtain ⟨-, -, -, hcombine⟩ := balanced_logarithmic .or t
  obtain ⟨-, hok⟩ := hcombine (leaf 'a') [leaf 'b', leaf 'c'] (by simp [leaf])
  refine ⟨hdepth.trans hlevels, hlevels ▸ hleast t hjoined, ?_, hok.trans ?_⟩
  · simp only [t, pair, last, leaf]
    cbv
  · simp only [leaf]
    cbv

end FlattenPolicy
end Rulebook
