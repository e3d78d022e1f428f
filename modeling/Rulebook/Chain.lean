set_option autoImplicit false

/-!
Chains: lists with at least one item, and the two ways in which an operation folds them to one item.
-/

namespace Rulebook

structure Chain (α : Type) where
  head : α
  tail : List α
  deriving DecidableEq, Repr

namespace Chain

variable {α : Type}

def one (a : α) : Chain α := ⟨a, []⟩

def toList (c : Chain α) : List α := c.head :: c.tail

def append (c d : Chain α) : Chain α := ⟨c.head, c.tail ++ d.toList⟩

@[simp] theorem toList_one (a : α) : (one a).toList = [a] := rfl

@[simp] theorem toList_append (c d : Chain α) : (c.append d).toList = c.toList ++ d.toList := rfl

theorem ext {c d : Chain α} (h : c.toList = d.toList) : c = d := by
  cases c; cases d; simpa [toList] using h

/-- From the left: the result so far, then the next item. -/
def foldLeft (f : α → α → α) (c : Chain α) : α := c.tail.foldl f c.head

/-- The first half of a chain takes so many items beside the head. -/
def half (tail : List α) : Nat := (tail.length + 1) / 2 - 1

/-- Both halves folded first; of an odd number of items the second half has one more. -/
def foldHalves (f : α → α → α) (c : Chain α) : α :=
  match _h : c.tail.drop (half c.tail) with
  | [] => c.head
  | a :: rest =>
    f (foldHalves f ⟨c.head, c.tail.take (half c.tail)⟩) (foldHalves f ⟨a, rest⟩)
termination_by c.tail.length
decreasing_by
  all_goals
    have := congrArg List.length _h
    simp at this ⊢
    omega

@[simp] theorem foldHalves_one (f : α → α → α) (a : α) : (one a).foldHalves f = a := by
  rw [foldHalves]
  split
  · rfl
  · rename_i h
    simp [one] at h

end Chain
end Rulebook
