import Rulebook.Proofs.ShortCircuit
import Rulebook.Rule.Outline
import Rulebook.Rule.Walk
set_option autoImplicit false

/-!
What a walk with a list of pending nodes meets, and what the outline draws by recursion, node by node. Every
node of a tree has its place. The places in their order, with the nodes there, give both: the walk has for
each the length of its way from the root, and the outline a line that is found by looking at the way alone.
-/

namespace Rulebook

namespace Place

/-- A node comes before those under it, and those on the left of a node before those on its right. -/
def Before : Place → Place → Prop := List.Lex fun a b => a = .left ∧ b = .right

theorem not_before_self (p : Place) : ¬p.Before p :=
  List.lex_irrefl (fun _ h => Side.noConfusion (h.1.symm.trans h.2)) p

/-- The places of the nodes above, that of the root first. -/
def above (p : Place) : List Place := (List.range p.length).map fun k => p.take k

@[simp] theorem length_above (p : Place) : p.above.length = p.length := by simp [above]

theorem above_snoc (p : Place) (side : Side) : above (p ++ [side]) = p.above ++ [p] := by
  have htake : ∀ k ∈ List.range p.length, (p ++ [side]).take k = p.take k := by
    intro k hk
    exact List.take_append_of_le_length (Nat.le_of_lt (List.mem_range.1 hk))
  rw [above, List.length_append, List.length_singleton, List.range_succ, List.map_append,
    List.map_congr_left htake, List.map_singleton, List.take_left, ← above]

end Place

namespace Rule

variable {r s t : Rule} {p : Place} {side : Side}

/-! ### Children -/

def child? (r : Rule) : Side → Option Rule
  | .left => r.left?
  | .right => r.right?

/-- What holds of a rule whenever it holds of its children holds of every rule. -/
@[elab_as_elim] theorem child_induction {P : Rule → Prop}
    (h : ∀ r, (∀ side s, r.child? side = some s → P s) → P r) (r : Rule) : P r := by
  induction r with
  | condition c | foreign o => exact h _ fun | .left, _, hs | .right, _, hs => nomatch hs
  | join op l r ihl ihr | foreignBoth o l r ihl ihr =>
    exact h _ fun
      | .left, _, hs => Option.some.inj hs ▸ ihl
      | .right, _, hs => Option.some.inj hs ▸ ihr
  | not l ih | foreignLeft o l ih =>
    exact h _ fun
      | .left, _, hs => Option.some.inj hs ▸ ih
      | .right, _, hs => nomatch hs
  | foreignRight o r ih =>
    exact h _ fun
      | .left, _, hs => nomatch hs
      | .right, _, hs => Option.some.inj hs ▸ ih

/-- The subtree at a place, if the tree has this place. -/
def at? : Rule → Place → Option Rule
  | r, [] => some r
  | r, side :: p => (r.child? side).bind fun s => s.at? p

@[simp] theorem at?_nil (r : Rule) : r.at? [] = some r := rfl

theorem at?_cons (r : Rule) (side : Side) (p : Place) :
    r.at? (side :: p) = (r.child? side).bind fun s => s.at? p := rfl

theorem at?_append (r : Rule) (p q : Place) :
    r.at? (p ++ q) = (r.at? p).bind fun s => s.at? q := by
  induction p generalizing r with
  | nil => rfl
  | cons side p ih =>
    rw [List.cons_append, at?_cons, at?_cons, Option.bind_assoc]
    exact congrArg _ (funext ih)

theorem at?_snoc (h : t.at? p = some r) (side : Side) : t.at? (p ++ [side]) = r.child? side := by
  rw [at?_append, h, Option.bind_some, at?_cons]
  exact Option.bind_fun_some _

/-! ### All nodes -/

/-- Every node with its place, a node before its children and the left child before the right one. -/
def nodes : Rule → List (Place × Rule)
  | join op l r => ([], join op l r) :: (under .left l.nodes ++ under .right r.nodes)
  | not r => ([], not r) :: under .left r.nodes
  | foreignLeft o l => ([], foreignLeft o l) :: under .left l.nodes
  | foreignRight o r => ([], foreignRight o r) :: under .right r.nodes
  | foreignBoth o l r => ([], foreignBoth o l r) :: (under .left l.nodes ++ under .right r.nodes)
  | r => [([], r)]

/-- The nodes on one side of the root. -/
def nodesOn (r : Rule) (side : Side) : List (Place × Rule) :=
  (r.child? side).elim [] fun s => under side s.nodes

theorem nodes_eq (r : Rule) : r.nodes = ([], r) :: (r.nodesOn .left ++ r.nodesOn .right) := by
  cases r <;> simp [nodes, nodesOn, child?, left?, right?]

theorem nodesOn_of_none (h : r.child? side = none) : r.nodesOn side = [] := by simp [nodesOn, h]

theorem nodesOn_of_some (h : r.child? side = some s) : r.nodesOn side = under side s.nodes := by
  simp [nodesOn, h]

theorem mem_nodesOn {x : Place × Rule} :
    x ∈ r.nodesOn side ↔ ∃ p s t, r.child? side = some s ∧ (p, t) ∈ s.nodes ∧ (side :: p, t) = x := by
  cases h : r.child? side with
  | none => simp [nodesOn_of_none h]
  | some s => simp [nodesOn_of_some h, under]

theorem mem_nodes : (p, s) ∈ r.nodes ↔ r.at? p = some s := by
  induction p generalizing r with
  | nil => simp [nodes_eq r, mem_nodesOn, eq_comm]
  | cons side p ih =>
    rw [at?_cons, Option.bind_eq_some_iff]
    cases side <;> simp [nodes_eq r, mem_nodesOn, ← ih]

theorem pairwise_nodes (r : Rule) : r.nodes.Pairwise fun x y => x.1.Before y.1 := by
  induction r using child_induction with
  | h r ih =>
    have hside : ∀ side, (r.nodesOn side).Pairwise fun x y => x.1.Before y.1 := by
      intro side
      cases hs : r.child? side with
      | none => simp [nodesOn_of_none hs]
      | some s =>
        rw [nodesOn_of_some hs, under, List.pairwise_map]
        exact (ih side s hs).imp fun h => .cons h
    rw [nodes_eq, List.pairwise_cons, List.pairwise_append]
    refine ⟨fun x hx => ?_, hside .left, hside .right, fun x hx y hy => ?_⟩
    · obtain hx | hx := List.mem_append.1 hx
      all_goals
        obtain ⟨p, s, u, -, -, rfl⟩ := mem_nodesOn.1 hx
        exact .nil
    · obtain ⟨p, s, u, -, -, rfl⟩ := mem_nodesOn.1 hx
      obtain ⟨p', s', u', -, -, rfl⟩ := mem_nodesOn.1 hy
      exact .rel ⟨rfl, rfl⟩

theorem nodup_places (r : Rule) : (r.nodes.map Prod.fst).Nodup := by
  rw [List.Nodup, List.pairwise_map]
  refine r.pairwise_nodes.imp fun h he => ?_
  rw [he] at h
  exact Place.not_before_self _ h

/-! ### The walk -/

/-- One node after another is met, these ones in all, until none is left. -/
inductive Pending.Meets : Pending → List (Nat × Rule) → Prop
  | none {p : Pending} (h : p.next? = none) : Meets p []
  | some {p q : Pending} {node : Nat × Rule} {nodes : List (Nat × Rule)}
      (h : p.next? = some (node, q)) (hrest : Meets q nodes) : Meets p (node :: nodes)

theorem meets_visit (p : Pending) : p.Meets p.visit := by
  induction p using Pending.visit.induct with
  | case1 =>
    rw [visit_nil]
    exact .none rfl
  | case2 level r rest ih =>
    rw [visit_cons]
    exact .some (next?_cons level r rest) ih

/-- A step takes the next node off what is still to be visited. -/
theorem visit_of_next? {p q : Pending} {node : Nat × Rule} (h : p.next? = some (node, q)) :
    p.visit = node :: q.visit := by
  cases p with
  | nil => cases h
  | cons x rest =>
    rw [next?_cons] at h
    cases h
    exact visit_cons _ _ _

theorem meets_iff {p : Pending} {nodes : List (Nat × Rule)} : p.Meets nodes ↔ nodes = p.visit := by
  constructor
  · intro h
    induction h with
    | @none p h =>
      cases p with
      | nil => exact visit_nil.symm
      | cons x rest => cases h
    | some h _ ih => rw [visit_of_next? h, ih]
  · rintro rfl
    exact meets_visit p

theorem visit_one (level : Nat) (r : Rule) :
    Pending.visit [(level, r)] = r.nodes.map fun x => (level + x.1.length, x.2) := by
  induction r using child_induction generalizing level with
  | h r ih =>
    have hside : ∀ side, Pending.visit ((r.child? side).toList.map fun s => (level + 1, s)) =
        (r.nodesOn side).map fun x => (level + x.1.length, x.2) := by
      intro side
      cases hs : r.child? side with
      | none => simp [nodesOn_of_none hs]
      | some s =>
        simp only [Option.toList_some, List.map_singleton, ih side s hs, nodesOn_of_some hs, under,
          List.map_map]
        exact List.map_congr_left fun x _ => by simp [Nat.add_assoc, Nat.add_comm 1]
    -- Whatever is put in front is visited to its end before the rest, so the two sides come apart.
    rw [visit_cons, List.append_nil, owed, children, List.map_append, visit_append, nodes_eq,
      List.map_cons, List.map_append, ← hside .left, ← hside .right]
    rfl

theorem walk_eq_nodes (r : Rule) : r.walk = r.nodes.map fun x => (x.1.length, x.2) := by
  rw [walk, visit_one]
  simp only [Nat.zero_add]

theorem length_nodes (r : Rule) : r.nodes.length = r.nodeCount := by
  induction r <;> simp [nodes, under, nodeCount, *]

theorem depth_eq (r : Rule) :
    r.depth = max ((r.child? .left).elim 0 depth) ((r.child? .right).elim 0 depth) + 1 := by
  cases r <;> simp [depth, child?, left?, right?]

theorem depth_lt_of_child? (h : r.child? side = some s) : s.depth < r.depth := by
  have hr := r.depth_eq
  cases side <;> rw [h, Option.elim_some] at hr <;> omega

theorem length_lt_depth (h : r.at? p = some s) : p.length < r.depth := by
  induction p generalizing r with
  | nil =>
    rw [depth_eq]
    exact Nat.succ_pos _
  | cons side p ih =>
    obtain ⟨c, hc, hs⟩ := Option.bind_eq_some_iff.1 h
    exact Nat.lt_of_le_of_lt (ih hs) (depth_lt_of_child? hc)

/-- Down the deeper sides there is a node on the lowest level. -/
theorem exists_at?_of_depth (r : Rule) : ∃ p s, r.at? p = some s ∧ p.length + 1 = r.depth := by
  induction r using child_induction with
  | h r ih =>
    obtain ⟨side, hside⟩ : ∃ side, r.depth = (r.child? side).elim 0 depth + 1 := by
      rw [depth_eq]
      obtain hle | hle :=
        Nat.le_total ((r.child? .left).elim 0 depth) ((r.child? .right).elim 0 depth)
      · exact ⟨.right, by rw [Nat.max_eq_right hle]⟩
      · exact ⟨.left, by rw [Nat.max_eq_left hle]⟩
    cases hs : r.child? side with
    | none => exact ⟨[], r, rfl, by rw [hside, hs]; rfl⟩
    | some s =>
      obtain ⟨p, u, hp, hlength⟩ := ih side s hs
      refine ⟨side :: p, u, ?_, ?_⟩
      · rw [at?_cons, hs]
        exact hp
      · rw [hside, hs, Option.elim_some, ← hlength, List.length_cons]

theorem max?_walk (r : Rule) : (r.walk.map fun x => x.1 + 1).max? = some r.depth := by
  rw [List.max?_eq_some_iff, walk_eq_nodes, List.map_map]
  constructor
  · obtain ⟨p, s, hp, hlength⟩ := r.exists_at?_of_depth
    exact List.mem_map.2 ⟨(p, s), mem_nodes.2 hp, hlength⟩
  · intro level h
    obtain ⟨⟨p, s⟩, hx, rfl⟩ := List.mem_map.1 h
    exact length_lt_depth (mem_nodes.1 hx)

/-! ### The outline -/

/-- The node at this place is a left child, and its parent has a right child as well. -/
def LeftOfTwo (t : Rule) (p : Place) : Prop :=
  ∃ q, p = q ++ [.left] ∧ (t.at? (q ++ [.right])).isSome

instance (t : Rule) (p : Place) : Decidable (t.LeftOfTwo p) :=
  decidable_of_iff (p.getLast? = some .left ∧ (t.at? (p.dropLast ++ [.right])).isSome) <| by
    rw [List.getLast?_eq_some_iff]
    constructor
    · rintro ⟨⟨q, rfl⟩, h⟩
      rw [List.dropLast_concat] at h
      exact ⟨q, rfl, h⟩
    · rintro ⟨q, rfl, h⟩
      rw [List.dropLast_concat]
      exact ⟨⟨q, rfl⟩, h⟩

/-- What a node contributes to the lines of the nodes under it. -/
def block (t : Rule) (p : Place) : Text :=
  if t.LeftOfTwo p then "│   ".toList else "    ".toList

def connector (t : Rule) (p : Place) : Text :=
  if t.LeftOfTwo p then "├── ".toList else "└── ".toList

/-- The line of a node: a block for each node above it, then its connector and its value. -/
def line (t : Rule) (x : Place × Rule) : Text :=
  x.1.above.flatMap t.block ++ t.connector x.1 ++ x.2.value ++ ['\n']

theorem length_block (t : Rule) (p : Place) : (t.block p).length = 4 := by
  unfold block
  split <;> rfl

theorem not_leftOfTwo_root (t : Rule) : ¬t.LeftOfTwo [] := by
  rintro ⟨q, hq, -⟩
  simp at hq

theorem not_leftOfTwo_right (t : Rule) (p : Place) : ¬t.LeftOfTwo (p ++ [.right]) := by
  rintro ⟨q, hq, -⟩
  simp at hq

theorem leftOfTwo_left (h : t.at? p = some r) : t.LeftOfTwo (p ++ [.left]) ↔ r.right?.isSome := by
  rw [LeftOfTwo, ← show r.child? .right = r.right? from rfl, ← at?_snoc h]
  constructor
  · rintro ⟨q, hq, hr⟩
    rwa [List.append_cancel_right hq]
  · exact fun hr => ⟨p, rfl, hr⟩

theorem outlineUnder_eq (lead : Text) (last : Bool) (r : Rule) :
    r.outlineUnder lead last = outlineLine lead last r ++
      (r.left?.elim [] fun l => l.outlineUnder (lead ++ indent last) r.right?.isNone) ++
      r.right?.elim [] fun s => s.outlineUnder (lead ++ indent last) true := by
  cases r <;> simp [outlineUnder, left?, right?]

/-- The text in front of a node and whether it is drawn as a last child follow from its place. -/
theorem outlineUnder_eq_lines {lead : Text} {last : Bool} (hp : t.at? p = some r)
    (hlead : lead = p.above.flatMap t.block) (hlast : last = !decide (t.LeftOfTwo p)) :
    r.outlineUnder lead last = r.nodes.flatMap fun x => t.line (p ++ x.1, x.2) := by
  induction r using child_induction generalizing p lead last with
  | h r ih =>
    have hblock : t.block p = indent last := by
      by_cases h : t.LeftOfTwo p <;> simp [hlast, block, indent, h]
    have hconnector : t.connector p = branch last := by
      by_cases h : t.LeftOfTwo p <;> simp [hlast, connector, branch, h]
    have hline : outlineLine lead last r = t.line (p, r) := by
      rw [outlineLine, line, hlead, hconnector]
    -- Both children are drawn with the same text in front. It has this node's block as its last one.
    have hunder : ∀ side, lead ++ indent last = (p ++ [side]).above.flatMap t.block := by
      intro side
      rw [Place.above_snoc, List.flatMap_append, List.flatMap_singleton, ← hlead, hblock]
    have hside : ∀ side last', last' = !decide (t.LeftOfTwo (p ++ [side])) →
        ((r.child? side).elim [] fun s => s.outlineUnder (lead ++ indent last) last') =
          (r.nodesOn side).flatMap fun x => t.line (p ++ x.1, x.2) := by
      intro side last' hlast'
      cases hs : r.child? side with
      | none => simp [nodesOn_of_none hs]
      | some s =>
        have hchild : t.at? (p ++ [side]) = some s := (at?_snoc hp side).trans hs
        rw [Option.elim_some, ih side s hs hchild (hunder side) hlast', nodesOn_of_some hs, under,
          List.flatMap_map]
        simp only [List.append_assoc, List.singleton_append]
    have hleft : r.right?.isNone = !decide (t.LeftOfTwo (p ++ [.left])) := by
      simp only [leftOfTwo_left hp, Bool.decide_eq_true, Option.not_isSome]
    have hright : true = !decide (t.LeftOfTwo (p ++ [.right])) := by
      simp only [not_leftOfTwo_right, decide_false, Bool.not_false]
    rw [nodes_eq, List.flatMap_cons, List.flatMap_append, ← hside .left _ hleft,
      ← hside .right _ hright, List.append_nil, ← hline, ← List.append_assoc]
    exact outlineUnder_eq lead last r

theorem outline_eq_lines (r : Rule) : r.outline = r.nodes.flatMap r.line := by
  have hlead : ([] : Text) = (Place.above []).flatMap r.block := rfl
  have hlast : true = !decide (r.LeftOfTwo []) := by
    simp only [not_leftOfTwo_root, decide_false, Bool.not_false]
  rw [outline, outlineUnder_eq_lines (at?_nil r) hlead hlast]
  rfl

/-- Step by step the walk meets its nodes and ends. They are all the nodes of the tree, one for each place, in
the order of their places and with the lengths of their ways from the root. Depth and number of the nodes can
be read off it. The outline has a line for each in the same order: so many blocks of four characters as the
way is long, a connector, the value. A bar or a tee stands just where there is a right sibling to come. -/
theorem outline_follows_walk (r : Rule) :
    (∀ met, Pending.Meets [(0, r)] met ↔ met = r.walk) ∧
    (r.walk = r.nodes.map (fun x => (x.1.length, x.2)) ∧ (r.nodes.map Prod.fst).Nodup ∧
      (∀ p s, (p, s) ∈ r.nodes ↔ r.at? p = some s) ∧
      r.nodes.Pairwise fun x y => x.1.Before y.1) ∧
    ((r.walk.map fun x => x.1 + 1).max?.getD 1 = r.depth ∧ r.walk.length = r.nodeCount) ∧
    r.outline = r.nodes.flatMap r.line ∧
    ∀ p : Place, p.above.length = p.length ∧ (r.block p).length = 4 := by
  refine ⟨fun met => meets_iff, ⟨r.walk_eq_nodes, r.nodup_places, fun p s => mem_nodes, r.pairwise_nodes⟩,
    ⟨?_, ?_⟩, r.outline_eq_lines, fun p => ⟨p.length_above, r.length_block p⟩⟩
  · rw [max?_walk, Option.getD_some]
  · rw [walk_eq_nodes, List.length_map, length_nodes]

/-- The bar beside the second line goes on to the right sibling of that node. -/
example :
    let leaf : Rule := .condition ⟨['a'], .equal, .string ['x']⟩
    let t : Rule := .foreignBoth ['?'] (.foreignRight ['!'] (.not leaf)) (.foreign ['~'])
    t.walk.map Prod.fst = [0, 1, 2, 3, 1] ∧
      t.outline = "└── ?\n    ├── !\n    │   └── NOT\n    │       └── a == 'x'\n    └── ~\n".toList := by
  cbv

end Rule
end Rulebook
