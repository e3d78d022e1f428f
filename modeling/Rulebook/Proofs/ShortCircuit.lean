import Mathlib.Data.List.Nodup
import Rulebook.Proofs.CombinedVerdict
set_option autoImplicit false

/-!
Which nodes of a rule are met, and which subtrees are skipped: the right operand of a join that is met and
whose left operand settles it, with false under AND and with true under OR. The nodes that are counted are
those that are met, all others lie in skipped subtrees, and what stands there has no say.
-/

namespace Rulebook

inductive Side where
  | left | right
  deriving DecidableEq, Repr

/-- The way to a node, from the root. -/
abbrev Place := List Side

namespace Rule

variable {d : Data} {t r l s : Rule} {op : Connective} {b : Bool} {n : Nat} {p : Place}
  {side : Side}

/-! ### Verdicts by rules -/

/-- A rule comes to a verdict after so many nodes. A join stops at its left operand if that settles it. -/
inductive Decides (d : Data) : Rule → Bool → Nat → Prop
  | condition {c : Condition} {b : Bool} (h : c.evaluate d = .ok b) : Decides d (.condition c) b 1
  | settled {op : Connective} {l : Rule} {m : Nat} (r : Rule) (hl : Decides d l (op == .or) m) :
      Decides d (.join op l r) (op == .or) (m + 1)
  | continued {op : Connective} {l r : Rule} {b : Bool} {m n : Nat}
      (hl : Decides d l (op == .and) m) (hr : Decides d r b n) :
      Decides d (.join op l r) b (m + n + 1)
  | denied {r : Rule} {b : Bool} {n : Nat} (hr : Decides d r b n) : Decides d (.not r) (!b) (n + 1)

theorem decidedBy_iff : op.decidedBy b = true ↔ b = (op == .or) := by
  cases op <;> cases b <;> decide

theorem not_decidedBy_iff : op.decidedBy b = false ↔ b = (op == .and) := by
  cases op <;> cases b <;> decide

/-- What leaves a join open is not what settles it. -/
theorem and_ne_or : (.ok (op == .and) : Except EvalError Bool) ≠ .ok (op == .or) := by
  cases op <;> decide

theorem Decides.evaluateCounting (h : Decides d t b n) : t.evaluateCounting d = .ok (b, n) := by
  induction h with
  | condition h => simp only [Rule.evaluateCounting, h]; rfl
  | settled r hl ihl => simp only [Rule.evaluateCounting, ihl, decidedBy_iff.2, if_true]
  | continued hl hr ihl ihr =>
    simp only [Rule.evaluateCounting, ihl, not_decidedBy_iff.2, ihr]
    rfl
  | denied hr ih => simp only [Rule.evaluateCounting, ih]; rfl

theorem map_eq_ok_iff {ε α β : Type} {f : α → β} {x : Except ε α} {v : β} :
    x.map f = .ok v ↔ ∃ w, x = .ok w ∧ f w = v := by
  cases x <;> simp [Except.map]

theorem decides_of_evaluateCounting (h : t.evaluateCounting d = .ok (b, n)) : Decides d t b n := by
  induction t generalizing b n with
  | condition c =>
    obtain ⟨b', hc, hv⟩ := map_eq_ok_iff.1 h
    cases hv
    exact .condition hc
  | join op l r ihl ihr =>
    rw [evaluateCounting] at h
    split at h
    · cases h
    · rename_i b' m hl
      split at h
      · rename_i hb
        cases h
        obtain rfl := decidedBy_iff.1 hb
        exact .settled r (ihl hl)
      · rename_i hb
        obtain rfl := not_decidedBy_iff.1 (Bool.not_eq_true _ ▸ hb)
        obtain ⟨v, hr, hv⟩ := map_eq_ok_iff.1 h
        cases hv
        exact .continued (ihl hl) (ihr hr)
  | not r ih =>
    obtain ⟨v, hr, hv⟩ := map_eq_ok_iff.1 h
    cases hv
    exact .denied (ih hr)
  | _ => cases h

theorem evaluateCounting_eq_ok_iff : t.evaluateCounting d = .ok (b, n) ↔ Decides d t b n :=
  ⟨decides_of_evaluateCounting, Decides.evaluateCounting⟩

theorem Decides.evaluate (h : Decides d t b n) : t.evaluate d = .ok b := by
  induction h with
  | condition h => exact h
  | settled r hl ihl => simp only [Rule.evaluate, ihl, decidedBy_iff.2, if_true]
  | continued hl hr ihl ihr => simp only [Rule.evaluate, ihl, not_decidedBy_iff.2, ihr]; rfl
  | denied hr ih => simp only [Rule.evaluate, ih]; rfl

/-! ### Places that are met or skipped -/

/-- Evaluating `t` on `d` meets the node at this place, the root of `s`. -/
inductive Visited (d : Data) : Rule → Place → Rule → Prop
  | root (t : Rule) : Visited d t [] t
  | left {op : Connective} {l s : Rule} {p : Place} (r : Rule) (h : Visited d l p s) :
      Visited d (.join op l r) (.left :: p) s
  | right {op : Connective} {l r s : Rule} {p : Place} (hl : l.evaluate d = .ok (op == .and))
      (h : Visited d r p s) : Visited d (.join op l r) (.right :: p) s
  | inner {r s : Rule} {p : Place} (h : Visited d r p s) : Visited d (.not r) (.left :: p) s

theorem visited_root : Visited d t [] s ↔ s = t := by
  constructor
  · rintro ⟨⟩
    rfl
  · rintro rfl
    exact .root s

theorem visited_join_left : Visited d (.join op l r) (.left :: p) s ↔ Visited d l p s :=
  ⟨fun | .left _ h => h, .left r⟩

theorem visited_join_right : Visited d (.join op l r) (.right :: p) s ↔
    l.evaluate d = .ok (op == .and) ∧ Visited d r p s :=
  ⟨fun | .right hl h => ⟨hl, h⟩, fun h => .right h.1 h.2⟩

theorem visited_not : Visited d (.not r) (side :: p) s ↔ side = .left ∧ Visited d r p s :=
  ⟨fun | .inner h => ⟨rfl, h⟩, fun ⟨hside, h⟩ => hside ▸ .inner h⟩

/-- The subtree `s` at this place is the right operand of a join that is met, and its left operand has the
verdict that settles the join. -/
def Skipped (d : Data) (t : Rule) (p : Place) (s : Rule) : Prop :=
  ∃ q op l, p = q ++ [.right] ∧ Visited d t q (.join op l s) ∧ l.evaluate d = .ok (op == .or)

theorem not_skipped_root : ¬Skipped d t [] s := by
  rintro ⟨q, op, l, hp, -⟩
  simp at hp

/-- Either the root is the join, or the join lies further down. -/
theorem skipped_cons : Skipped d t (side :: p) s ↔
    (side = .right ∧ p = [] ∧ ∃ op l, t = .join op l s ∧ l.evaluate d = .ok (op == .or)) ∨
      ∃ q op l, p = q ++ [.right] ∧ Visited d t (side :: q) (.join op l s) ∧
        l.evaluate d = .ok (op == .or) := by
  constructor
  · rintro ⟨q, op, l, hp, hq, hl⟩
    cases q with
    | nil =>
      obtain ⟨rfl, rfl⟩ := List.cons.inj hp
      exact .inl ⟨rfl, rfl, op, l, (visited_root.1 hq).symm, hl⟩
    | cons side' q =>
      obtain ⟨rfl, rfl⟩ := List.cons.inj hp
      exact .inr ⟨q, op, l, rfl, hq, hl⟩
  · rintro (⟨rfl, rfl, op, l, rfl, hl⟩ | ⟨q, op, l, rfl, hq, hl⟩)
    · exact ⟨[], op, l, rfl, .root _, hl⟩
    · exact ⟨side :: q, op, l, rfl, hq, hl⟩

theorem skipped_join_left : Skipped d (.join op l r) (.left :: p) s ↔ Skipped d l p s := by
  rw [skipped_cons]
  simp [visited_join_left, Skipped]

theorem skipped_join_right : Skipped d (.join op l r) (.right :: p) s ↔
    (p = [] ∧ s = r ∧ l.evaluate d = .ok (op == .or)) ∨
      (l.evaluate d = .ok (op == .and) ∧ Skipped d r p s) := by
  rw [skipped_cons]
  constructor
  · rintro (⟨-, rfl, _, _, ht, hl⟩ | ⟨q, o, l', hp, hq, hl'⟩)
    · cases ht
      exact .inl ⟨rfl, rfl, hl⟩
    · obtain ⟨hl, hq⟩ := visited_join_right.1 hq
      exact .inr ⟨hl, q, o, l', hp, hq, hl'⟩
  · rintro (⟨rfl, rfl, hl⟩ | ⟨hl, q, o, l', hp, hq, hl'⟩)
    · exact .inl ⟨rfl, rfl, op, l, rfl, hl⟩
    · exact .inr ⟨q, o, l', hp, .right hl hq, hl'⟩

theorem skipped_not : Skipped d (.not r) (side :: p) s ↔ side = .left ∧ Skipped d r p s := by
  rw [skipped_cons]
  simp [visited_not, Skipped, and_left_comm, and_assoc]

/-! ### All of them -/

/-- Nodes of a child, seen from its parent. -/
def under (side : Side) (nodes : List (Place × Rule)) : List (Place × Rule) :=
  nodes.map fun node => (side :: node.1, node.2)

@[simp] theorem mem_under {side' : Side} {nodes : List (Place × Rule)} :
    (side :: p, s) ∈ under side' nodes ↔ side = side' ∧ (p, s) ∈ nodes := by
  simp [under, and_comm, eq_comm]

@[simp] theorem not_mem_under {nodes : List (Place × Rule)} : ([], s) ∉ under side nodes := by
  simp [under]

theorem nodup_under {nodes : List (Place × Rule)} (h : nodes.Nodup) : (under side nodes).Nodup := by
  refine h.map fun node other he => ?_
  simp only [Prod.mk.injEq, List.cons.injEq, true_and] at he
  exact Prod.ext he.1 he.2

theorem nodup_children {first second : List (Place × Rule)} (h₁ : first.Nodup) (h₂ : second.Nodup) :
    (under .left first ++ under .right second).Nodup := by
  refine List.nodup_append.2 ⟨nodup_under h₁, nodup_under h₂, ?_⟩
  simp only [under, List.mem_map]
  rintro _ ⟨node, -, rfl⟩ _ ⟨other, -, rfl⟩ he
  cases he

/-- The nodes that are met, a node before its children. -/
def visited (d : Data) : Rule → List (Place × Rule)
  | join op l r =>
    ([], join op l r) :: (under .left (l.visited d) ++
      under .right
        (match l.evaluate d with
        | .error _ => []
        | .ok b => if op.decidedBy b then [] else r.visited d))
  | not r => ([], not r) :: under .left (r.visited d)
  | t => [([], t)]

/-- The subtrees that are skipped, left to right. -/
def skipped (d : Data) : Rule → List (Place × Rule)
  | join op l r =>
    under .left (l.skipped d) ++
      under .right
        (match l.evaluate d with
        | .error _ => []
        | .ok b => if op.decidedBy b then [([], r)] else r.skipped d)
  | not r => under .left (r.skipped d)
  | _ => []

theorem mem_visited : (p, s) ∈ t.visited d ↔ Visited d t p s := by
  induction t generalizing p s with
  | join op l r ihl ihr =>
    obtain _ | ⟨_ | _, p⟩ := p
    · simp [visited, visited_root]
    · simp [visited, visited_join_left, ihl]
    · cases hl : l.evaluate d with
      | error e => simp [visited, visited_join_right, hl]
      | ok b =>
        cases hb : op.decidedBy b <;>
          simp [visited, visited_join_right, hl, hb, ihr, ← not_decidedBy_iff]
  | not r ih =>
    obtain _ | ⟨side, p⟩ := p
    · simp [visited, visited_root]
    · simp [visited, visited_not, ih]
  | _ =>
    obtain _ | ⟨side, p⟩ := p
    · simp [visited, visited_root]
    · simp only [visited, List.mem_singleton, Prod.mk.injEq, reduceCtorEq, false_and, false_iff]
      nofun

theorem mem_skipped : (p, s) ∈ t.skipped d ↔ Skipped d t p s := by
  induction t generalizing p s with
  | join op l r ihl ihr =>
    obtain _ | ⟨_ | _, p⟩ := p
    · simp [skipped, not_skipped_root]
    · simp [skipped, skipped_join_left, ihl]
    · cases hl : l.evaluate d with
      | error e => simp [skipped, skipped_join_right, hl]
      | ok b =>
        cases hb : op.decidedBy b <;>
          simp [skipped, skipped_join_right, hl, hb, ihr, ← not_decidedBy_iff, ← decidedBy_iff]
  | not r ih =>
    obtain _ | ⟨side, p⟩ := p
    · simp [skipped, not_skipped_root]
    · simp [skipped, skipped_not, ih]
  | _ =>
    simp only [skipped, List.not_mem_nil, false_iff]
    rintro ⟨q, op, l, -, hq, -⟩
    cases hq

theorem nodup_visited (d : Data) (t : Rule) : (t.visited d).Nodup := by
  induction t with
  | join op l r ihl ihr =>
    refine List.nodup_cons.2 ⟨by simp, nodup_children ihl ?_⟩
    split
    · exact .nil
    · split
      · exact .nil
      · exact ihr
  | not r ih => exact List.nodup_cons.2 ⟨not_mem_under, nodup_under ih⟩
  | _ => exact List.nodup_singleton _

theorem nodup_skipped (d : Data) (t : Rule) : (t.skipped d).Nodup := by
  induction t with
  | join op l r ihl ihr =>
    refine nodup_children ihl ?_
    split
    · exact .nil
    · split
      · exact List.nodup_singleton _
      · exact ihr
  | not r ih => exact nodup_under ih
  | _ => exact .nil

theorem Decides.length_visited (h : Decides d t b n) : (t.visited d).length = n := by
  induction h with
  | condition h => rfl
  | settled r hl ihl => simp [visited, under, hl.evaluate, decidedBy_iff.2, ihl]
  | continued hl hr ihl ihr =>
    simp [visited, under, hl.evaluate, not_decidedBy_iff.2, ihl, ihr]
  | denied hr ih => simp [visited, under, ih]

/-- The nodes of subtrees. -/
def nodesIn (subtrees : List (Place × Rule)) : Nat := nodeCounts (subtrees.map Prod.snd)

@[simp] theorem nodesIn_singleton (p : Place) (s : Rule) : nodesIn [(p, s)] = s.nodeCount := rfl

@[simp] theorem nodesIn_under (side : Side) (nodes : List (Place × Rule)) :
    nodesIn (under side nodes) = nodesIn nodes := by
  simp [nodesIn, under, Function.comp_def]

@[simp] theorem nodesIn_append (nodes more : List (Place × Rule)) :
    nodesIn (nodes ++ more) = nodesIn nodes + nodesIn more := by
  simp [nodesIn]

theorem Decides.nodesIn_skipped (h : Decides d t b n) :
    n + nodesIn (t.skipped d) = t.nodeCount := by
  induction h with
  | condition h => rfl
  | settled r hl ihl =>
    simp only [skipped, hl.evaluate, decidedBy_iff.2, if_true, nodesIn_append, nodesIn_under,
      nodesIn_singleton, nodeCount]
    omega
  | continued hl hr ihl ihr =>
    simp only [skipped, hl.evaluate, not_decidedBy_iff.2, Bool.false_eq_true, if_false,
      nodesIn_append, nodesIn_under, nodeCount]
    omega
  | denied hr ih =>
    simp only [skipped, nodesIn_under, nodeCount]
    omega

/-! ### Other subtrees in place of skipped ones -/

/-- The tree with other subtrees at the places that have a new one. -/
def graft (new : Place → Option Rule) : Rule → Rule
  | condition c => (new []).getD (condition c)
  | join op l r =>
    (new []).getD
      (join op (l.graft fun p => new (.left :: p)) (r.graft fun p => new (.right :: p)))
  | not r => (new []).getD (not (r.graft fun p => new (.left :: p)))
  | foreign o => (new []).getD (foreign o)
  | foreignLeft o l => (new []).getD (foreignLeft o (l.graft fun p => new (.left :: p)))
  | foreignRight o r => (new []).getD (foreignRight o (r.graft fun p => new (.right :: p)))
  | foreignBoth o l r =>
    (new []).getD
      (foreignBoth o (l.graft fun p => new (.left :: p)) (r.graft fun p => new (.right :: p)))

theorem graft_of_root {new : Place → Option Rule} (h : new [] = some s) : t.graft new = s := by
  cases t <;> simp only [graft, h, Option.getD_some]

theorem graft_of_none {new : Place → Option Rule} (h : ∀ p, new p = none) : t.graft new = t := by
  induction t generalizing new with
  | join op l r ihl ihr | foreignBoth o l r ihl ihr =>
    rw [graft, h, ihl fun p => h _, ihr fun p => h _, Option.getD_none]
  | not r ih | foreignLeft o r ih | foreignRight o r ih =>
    rw [graft, h, ih fun p => h _, Option.getD_none]
  | _ => rw [graft, h, Option.getD_none]

/-- Only skipped subtrees have a new one. -/
def Spares (d : Data) (t : Rule) (new : Place → Option Rule) : Prop :=
  ∀ p s, new p = some s → ∃ old, Skipped d t p old

variable {new : Place → Option Rule}

theorem Spares.root (h : Spares d t new) : new [] = none :=
  Option.eq_none_iff_forall_ne_some.2 fun s hs => not_skipped_root (h [] s hs).choose_spec

theorem Spares.left (h : Spares d (.join op l r) new) : Spares d l fun p => new (.left :: p) :=
  fun _ s hs => (h _ s hs).imp fun _ => skipped_join_left.1

theorem Spares.right (h : Spares d (.join op l r) new) (hl : l.evaluate d = .ok (op == .and)) :
    Spares d r fun p => new (.right :: p) := by
  intro p s hs
  obtain ⟨old, hold⟩ := h _ s hs
  obtain ⟨-, -, hor⟩ | ⟨-, hr⟩ := skipped_join_right.1 hold
  · exact absurd (hl.symm.trans hor) and_ne_or
  · exact ⟨old, hr⟩

/-- The place of a skipped operand has a new tree, or neither it nor any place further down has one. -/
theorem Spares.graft_right (h : Spares d (.join op l r) new) (hl : l.evaluate d = .ok (op == .or)) :
    (r.graft fun p => new (.right :: p)) = (new [.right]).getD r := by
  cases hnew : new [.right] with
  | some s => exact graft_of_root hnew
  | none =>
    refine graft_of_none fun p => Option.eq_none_iff_forall_ne_some.2 fun s hs => ?_
    obtain ⟨old, hold⟩ := h _ s hs
    obtain ⟨rfl, -⟩ | ⟨hand, -⟩ := skipped_join_right.1 hold
    · rw [hnew] at hs
      cases hs
    · exact absurd (hand.symm.trans hl) and_ne_or

theorem Spares.inner (h : Spares d (.not r) new) : Spares d r fun p => new (.left :: p) :=
  fun _ s hs => (h _ s hs).imp fun _ hold => (skipped_not.1 hold).2

theorem Decides.graft (h : Decides d t b n) (hnew : Spares d t new) :
    Decides d (t.graft new) b n := by
  induction h generalizing new with
  | condition h => simpa only [Rule.graft, hnew.root] using .condition h
  | settled r hl ihl => simpa only [Rule.graft, hnew.root] using .settled _ (ihl hnew.left)
  | continued hl hr ihl ihr =>
    simpa only [Rule.graft, hnew.root] using
      .continued (ihl hnew.left) (ihr (hnew.right hl.evaluate))
  | denied hr ih => simpa only [Rule.graft, hnew.root] using .denied (ih hnew.inner)

/-- Every skipped subtree is now the new one, or is still there. -/
theorem Decides.skipped_graft (h : Decides d t b n) (hnew : Spares d t new) (hs : Skipped d t p s) :
    Skipped d (t.graft new) p ((new p).getD s) := by
  induction h generalizing new p with
  | condition h =>
    obtain ⟨q, op, l, -, hq, -⟩ := hs
    cases hq
  | settled r hl ihl =>
    simp only [Rule.graft, hnew.root, Option.getD_none]
    obtain _ | ⟨_ | _, p⟩ := p
    · exact absurd hs not_skipped_root
    · exact skipped_join_left.2 (ihl hnew.left (skipped_join_left.1 hs))
    · obtain ⟨rfl, rfl, -⟩ | ⟨hand, -⟩ := skipped_join_right.1 hs
      · rw [hnew.graft_right hl.evaluate]
        exact skipped_join_right.2 (.inl ⟨rfl, rfl, (hl.graft hnew.left).evaluate⟩)
      · exact absurd (hand.symm.trans hl.evaluate) and_ne_or
  | continued hl hr ihl ihr =>
    simp only [Rule.graft, hnew.root, Option.getD_none]
    obtain _ | ⟨_ | _, p⟩ := p
    · exact absurd hs not_skipped_root
    · exact skipped_join_left.2 (ihl hnew.left (skipped_join_left.1 hs))
    · obtain ⟨-, -, hor⟩ | ⟨-, hs⟩ := skipped_join_right.1 hs
      · exact absurd (hl.evaluate.symm.trans hor) and_ne_or
      · exact skipped_join_right.2
          (.inr ⟨(hl.graft hnew.left).evaluate, ihr (hnew.right hl.evaluate) hs⟩)
  | denied hr ih =>
    simp only [Rule.graft, hnew.root, Option.getD_none]
    obtain _ | ⟨side, p⟩ := p
    · exact absurd hs not_skipped_root
    · obtain ⟨rfl, hinner⟩ := skipped_not.1 hs
      exact skipped_not.2 ⟨rfl, ih hnew.inner hinner⟩

/-- A verdict reached after so many nodes is the verdict. The nodes are those that are met, and with the
nodes of the skipped subtrees they are all there are. Whatever other trees stand in place of skipped
subtrees, the verdict and the number stay. -/
theorem evaluateCounting_exact (h : t.evaluateCounting d = .ok (b, n)) :
    t.evaluate d = .ok b ∧
    ((t.visited d).Nodup ∧ (∀ p s, (p, s) ∈ t.visited d ↔ Visited d t p s) ∧
      n = (t.visited d).length) ∧
    ((t.skipped d).Nodup ∧ (∀ p s, (p, s) ∈ t.skipped d ↔ Skipped d t p s) ∧
      n + nodeCounts ((t.skipped d).map Prod.snd) = t.nodeCount) ∧
    ∀ new : Place → Option Rule, (∀ p s, new p = some s → ∃ old, Skipped d t p old) →
      (t.graft new).evaluateCounting d = .ok (b, n) ∧
        ∀ p s, Skipped d t p s → Skipped d (t.graft new) p ((new p).getD s) := by
  have hd := evaluateCounting_eq_ok_iff.1 h
  exact ⟨hd.evaluate, ⟨nodup_visited d t, fun p s => mem_visited, hd.length_visited.symm⟩,
    ⟨nodup_skipped d t, fun p s => mem_skipped, hd.nodesIn_skipped⟩,
    fun new hnew =>
      ⟨evaluateCounting_eq_ok_iff.2 (hd.graft hnew), fun p s => hd.skipped_graft hnew⟩⟩

/-- Two operands are skipped, one under each connective. In their places stand a foreign operator and a
comparison with an attribute that the record lacks. -/
theorem evaluateCounting_exact_both :
    let leaf (name : Char) : Rule := .condition ⟨[name], .equal, .string ['x']⟩
    let t : Rule := .join .or (.join .and (leaf 'a') (.not (leaf 'b'))) (.join .or (leaf 'c') (leaf 'd'))
    let d : Data := Data.ofList [(['a'], .string ['y']), (['c'], .string ['x'])]
    let new : Place → Option Rule := fun p =>
      if p = [.left, .right] then some (.foreign ['?'])
      else if p = [.right, .right] then some (leaf 'e') else none
    t.evaluateCounting d = .ok (true, 5) ∧ t.evaluate d = .ok true ∧ (t.visited d).length = 5 ∧
      t.skipped d = [([.left, .right], .not (leaf 'b')), ([.right, .right], leaf 'd')] ∧
      5 + nodeCounts [.not (leaf 'b'), leaf 'd'] = t.nodeCount ∧
      (∀ p s, new p = some s → ∃ old, Skipped d t p old) ∧
      t.graft new =
        .join .or (.join .and (leaf 'a') (.foreign ['?'])) (.join .or (leaf 'c') (leaf 'e')) ∧
      (t.graft new).evaluateCounting d = .ok (true, 5) := by
  intro leaf t d new
  have hcount : t.evaluateCounting d = .ok (true, 5) := rfl
  have hskipped : t.skipped d = [([.left, .right], .not (leaf 'b')), ([.right, .right], leaf 'd')] := rfl
  obtain ⟨hverdict, ⟨-, -, hmet⟩, ⟨-, hplaces, htotal⟩, hgraft⟩ := evaluateCounting_exact hcount
  have hnew : ∀ p s, new p = some s → ∃ old, Skipped d t p old := by
    intro p s hs
    simp only [new] at hs
    split at hs
    · rename_i hp
      exact ⟨.not (leaf 'b'), (hplaces _ _).1 (by simp [hskipped, hp])⟩
    · split at hs
      · rename_i hp
        exact ⟨leaf 'd', (hplaces _ _).1 (by simp [hskipped, hp])⟩
      · cases hs
  exact ⟨hcount, hverdict, hmet.symm, hskipped, htotal, hnew, rfl, (hgraft new hnew).1⟩

end Rule
end Rulebook
