import Rulebook.Rule.Basic
set_option autoImplicit false

/-!
A walk over a rule meets every node once, a node before its children and the left child before the
right one. It keeps the nodes it still owes in a list, and each with its distance from the root.
-/

namespace Rulebook.Rule

def children (r : Rule) : List Rule := r.left?.toList ++ r.right?.toList

theorem nodeCount_eq (r : Rule) : r.nodeCount = nodeCounts r.children + 1 := by
  cases r <;> simp [nodeCount, nodeCounts, children, left?, right?]

/-- Nodes still to be met, the next one first, with their distances from the root. -/
abbrev Pending := List (Nat × Rule)

def Pending.nodeCount (p : Pending) : Nat := nodeCounts (p.map Prod.snd)

def owed (level : Nat) (r : Rule) : Pending := r.children.map fun c => (level + 1, c)

/-- The node met next, and what is pending then. Its right child is put in front before the left one, which
therefore is met first. -/
def Pending.next? : Pending → Option ((Nat × Rule) × Pending)
  | [] => none
  | (level, r) :: rest =>
    let behind := r.right?.elim rest fun s => (level + 1, s) :: rest
    some ((level, r), r.left?.elim behind fun l => (level + 1, l) :: behind)

theorem next?_cons (level : Nat) (r : Rule) (rest : Pending) :
    Pending.next? ((level, r) :: rest) = some ((level, r), owed level r ++ rest) := by
  cases hl : r.left? <;> cases hr : r.right? <;> simp [Pending.next?, owed, children, hl, hr]

theorem nodeCount_owed (level : Nat) (r : Rule) :
    r.nodeCount = (owed level r).nodeCount + 1 := by
  rw [nodeCount_eq]
  simp [owed, Pending.nodeCount, List.map_map, Function.comp_def]

/-- Everything pending and what lies below it. The children of the node just met come first. -/
def Pending.visit : Pending → List (Nat × Rule)
  | [] => []
  | (level, r) :: rest => (level, r) :: visit (owed level r ++ rest)
termination_by p => p.nodeCount
decreasing_by
  have h := nodeCount_owed level r
  simp [Pending.nodeCount, nodeCounts] at h ⊢
  omega

@[simp] theorem visit_nil : Pending.visit [] = [] := by
  unfold Pending.visit
  rfl

@[simp] theorem visit_cons (level : Nat) (r : Rule) (rest : Pending) :
    Pending.visit ((level, r) :: rest) =
      (level, r) :: Pending.visit (owed level r ++ rest) := by
  conv => lhs; unfold Pending.visit

theorem visit_append (p q : Pending) :
    Pending.visit (p ++ q) = Pending.visit p ++ Pending.visit q := by
  induction h : p.nodeCount using Nat.strongRecOn generalizing p with
  | ind n ih =>
    match p with
    | [] => simp
    | (level, r) :: rest =>
      have hr := nodeCount_owed level r
      have hlt : Pending.nodeCount (owed level r ++ rest) < n := by
        subst h
        simp [Pending.nodeCount, nodeCounts] at hr ⊢
        omega
      simp only [List.cons_append, visit_cons]
      rw [← List.append_assoc, ih _ hlt _ rfl]

def walk (r : Rule) : List (Nat × Rule) := Pending.visit [(0, r)]

end Rulebook.Rule
