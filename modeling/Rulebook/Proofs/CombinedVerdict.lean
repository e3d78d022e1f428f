import Rulebook.Evaluation
import Rulebook.Proofs.Operands
set_option autoImplicit false

/-!
A combination means what its inputs mean one after the other: the first of them that fails or settles the
matter gives the verdict, whichever way the policy has them joined.
-/

namespace Rulebook

namespace Connective

variable {op : Connective} {d : Data}

/-- The outcome of an operand after which the ones to its right are not looked at. -/
def settles : Connective → Except EvalError Bool → Bool
  | _, .error _ => true
  | .and, .ok b => !b
  | .or, .ok b => b

/-- The first outcome that settles the matter; without one, AND holds and OR does not. -/
def shortCircuit (op : Connective) (outcomes : List (Except EvalError Bool)) :
    Except EvalError Bool :=
  (outcomes.find? op.settles).getD (.ok (op == .and))

theorem shortCircuit_cons (op : Connective) (v : Except EvalError Bool)
    (vs : List (Except EvalError Bool)) :
    op.shortCircuit (v :: vs) = if op.settles v then v else op.shortCircuit vs := by
  by_cases h : op.settles v = true <;> simp [shortCircuit, h]

theorem shortCircuit_append (op : Connective) (vs ws : List (Except EvalError Bool)) :
    op.shortCircuit (vs ++ ws) =
      if op.settles (op.shortCircuit vs) then op.shortCircuit vs else op.shortCircuit ws := by
  induction vs with
  | nil => cases op <;> simp [shortCircuit, settles]
  | cons v vs ih =>
    rw [List.cons_append, shortCircuit_cons, shortCircuit_cons, ih]
    by_cases h : op.settles v = true <;> simp [h]

/-- An outcome that does not settle the matter is the one that leaves it as it was. -/
theorem shortCircuit_singleton (op : Connective) (v : Except EvalError Bool) :
    op.shortCircuit [v] = v := by
  rw [shortCircuit_cons]
  rcases v with e | b
  · rfl
  · cases op <;> cases b <;> rfl

theorem evaluate_join (op : Connective) (d : Data) (l r : Rule) :
    (Rule.join op l r).evaluate d =
      if op.settles (l.evaluate d) then l.evaluate d else r.evaluate d := by
  rw [Rule.evaluate]
  rcases l.evaluate d with e | b
  · rfl
  · cases op <;> cases b <;> rfl

theorem evaluate_leaves (op : Connective) (d : Data) (r : Rule) :
    r.evaluate d = op.shortCircuit ((op.leaves r).map (Rule.evaluate d)) := by
  induction r with
  | join o l s ihl ihs =>
    by_cases ho : o = op
    · subst ho
      rw [evaluate_join, leaves_join, List.map_append, shortCircuit_append, ← ihl, ← ihs]
    · simp [leaves, ho, shortCircuit_singleton]
  | _ => exact (shortCircuit_singleton op _).symm

/-- However the leaves are joined, they are met in their order. -/
theorem evaluate_of_leaves_eq {r : Rule} {rules : List Rule}
    (h : op.leaves r = rules.flatMap op.leaves) :
    r.evaluate d = op.shortCircuit (rules.map (Rule.evaluate d)) := by
  rw [evaluate_leaves op d r, h]
  clear h
  induction rules with
  | nil => rfl
  | cons s rules ih =>
    rw [List.flatMap_cons, List.map_append, shortCircuit_append, ← evaluate_leaves, ih,
      List.map_cons, shortCircuit_cons]

theorem leaves_foldHalves (op : Connective) (c : Chain Rule) :
    op.leaves (c.foldHalves (Rule.join op)) = c.toList.flatMap op.leaves := by
  refine Chain.foldHalves_induction (P := fun c r => op.leaves r = c.toList.flatMap op.leaves)
    ?_ ?_ c
  · simp
  · intro c d x y hx hy
    simp [hx, hy]

theorem flatMap_leaves_leaves (op : Connective) (r : Rule) :
    (op.leaves r).flatMap op.leaves = op.leaves r := by
  induction r with
  | join o l s ihl ihs =>
    by_cases ho : o = op
    · subst ho
      simp [ihl, ihs]
    · simp [leaves, ho]
  | _ => simp [leaves]

theorem leaves_join_policy (policy : FlattenPolicy) (op : Connective) (inputs : Chain Rule) :
    op.leaves (policy.join op inputs) = inputs.toList.flatMap op.leaves := by
  have hflat : (inputs.toList.flatMap op.leaves).flatMap op.leaves =
      inputs.toList.flatMap op.leaves := by
    rw [List.flatMap_assoc]
    simp only [flatMap_leaves_leaves]
  obtain h | ⟨leaves, hl, h | h⟩ := policy.join_cases op inputs
  · rw [h, leaves_foldLeft]
  · rw [h, leaves_foldLeft, hl, hflat]
  · rw [h, leaves_foldHalves, hl, hflat]

end Connective

namespace FlattenPolicy

/-- A combination has the outcome of its inputs met in their order, failures included, so that all
policies agree on it. -/
theorem evaluate_combine (op : Connective) (rules : List Rule) (d : Data) :
    (∀ (policy : FlattenPolicy) (r : Rule), policy.combine op rules = .ok r →
      r.evaluate d = op.shortCircuit (rules.map (Rule.evaluate d))) ∧
    (∀ (policy other : FlattenPolicy) (r s : Rule), policy.combine op rules = .ok r →
      other.combine op rules = .ok s → r.evaluate d = s.evaluate d) := by
  have h : ∀ (policy : FlattenPolicy) (r : Rule), policy.combine op rules = .ok r →
      r.evaluate d = op.shortCircuit (rules.map (Rule.evaluate d)) := by
    intro policy r hr
    obtain ⟨inputs, rfl, rfl, -⟩ := combine_eq_ok hr
    exact Connective.evaluate_of_leaves_eq (Connective.leaves_join_policy policy op inputs)
  refine ⟨h, ?_⟩
  intro policy other r s hr hs
  rw [h policy r hr, h other s hs]

/-- The record lacks what the second of three operands asks for. -/
theorem evaluate_combine_missing :
    let leaf (name value : Char) : Rule := .condition ⟨[name], .equal, .string [value]⟩
    let rules : List Rule := [.join .and (leaf 'a' 'x') (leaf 'b' 'y'), leaf 'a' 'z']
    let halved : Rule := .join .and (leaf 'a' 'x') (.join .and (leaf 'b' 'y') (leaf 'a' 'z'))
    let chained : Rule := .join .and (.join .and (leaf 'a' 'x') (leaf 'b' 'y')) (leaf 'a' 'z')
    let d : Data := Data.ofList [(['a'], .string ['x'])]
    balanced.combine .and rules = .ok halved ∧ homogeneous.combine .and rules = .ok chained ∧
      halved.evaluate d = .error (.missingAttribute ['b']) ∧
      halved.evaluate d = chained.evaluate d := by
  intro leaf rules halved chained d
  have hhalved : balanced.combine .and rules = .ok halved := by
    simp only [rules, halved, leaf]
    cbv
  have hchained : homogeneous.combine .and rules = .ok chained := by
    simp only [rules, chained, leaf]
    cbv
  obtain ⟨hmeans, hagree⟩ := evaluate_combine .and rules d
  exact ⟨hhalved, hchained, (hmeans balanced halved hhalved).trans rfl,
    hagree balanced homogeneous halved chained hhalved hchained⟩

end FlattenPolicy
end Rulebook
