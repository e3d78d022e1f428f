import Rulebook.Chain
import Rulebook.Rule.Basic
import Rulebook.Text.Blank
set_option autoImplicit false

/-!
Rules joined under one connective. The inputs are joined to the left. If each of them is a comparison
or already a join of that connective, a policy may have their operands joined anew, to the left or in
halves. The depth of the result is known from the depths of the operands, and what would be too deep is
refused before it is built.
-/

namespace Rulebook

inductive CombineError where
  | emptyInput
  | unsupportedOperator (word : Text)
  | tooDeep (depth : Nat)
  deriving DecidableEq, Repr

namespace Connective

/-- A connective by its word, in any case and with blanks around it. -/
def ofText (t : Text) : Except CombineError Connective :=
  if Text.sameWord t.trim "AND".toList then .ok .and
  else if Text.sameWord t.trim "OR".toList then .ok .or
  else .error (.unsupportedOperator t.trim)

def split (op : Connective) : Rule → Option (Rule × Rule)
  | .join o l r => if o = op then some (l, r) else none
  | _ => none

def heads (op : Connective) (r : Rule) : Bool := (op.split r).isSome

theorem split_eq_some_iff {op : Connective} {r a b : Rule} :
    op.split r = some (a, b) ↔ r = .join op a b := by
  cases r with
  | join o l s =>
    by_cases h : o = op
    · subst h
      simp [split]
    · simp [split, h]
  | _ => simp [split]

/-- Down the left sides of the joins at the root, to the leftmost operand. The right sides passed on the
way are put before what is pending. -/
def descend (op : Connective) (pending : List Rule) : Rule → Rule × List Rule
  | .join o l r => if o = op then descend op (r :: pending) l else (.join o l r, pending)
  | r => (r, pending)

theorem nodeCount_of_split {op : Connective} {r a b : Rule} (h : op.split r = some (a, b)) :
    a.nodeCount + b.nodeCount < r.nodeCount := by
  rw [split_eq_some_iff.1 h, Rule.nodeCount]
  omega

/-- The operands of the pending subtrees, each of which is taken apart as long as the connective heads
it. -/
def drain (op : Connective) : List Rule → List Rule
  | [] => []
  | r :: pending =>
    match _h : op.split r with
    | some (a, b) => drain op (a :: b :: pending)
    | none => r :: drain op pending
termination_by pending => Rule.nodeCounts pending
decreasing_by
  · have := nodeCount_of_split _h
    simp only [Rule.nodeCounts]
    omega
  · have := r.nodeCount_pos
    simp only [Rule.nodeCounts]
    omega

/-- The largest subtrees under the root that the connective does not head, left to right. -/
def operands (op : Connective) (r : Rule) : Chain Rule :=
  let (head, pending) := op.descend [] r
  ⟨head, op.drain pending⟩

def operandDepths (op : Connective) : List Rule → List Nat
  | [] => []
  | r :: pending =>
    match _h : op.split r with
    | some (a, b) => operandDepths op (a :: b :: pending)
    | none => r.depth :: operandDepths op pending
termination_by pending => Rule.nodeCounts pending
decreasing_by
  · have := nodeCount_of_split _h
    simp only [Rule.nodeCounts]
    omega
  · have := r.nodeCount_pos
    simp only [Rule.nodeCounts]
    omega

def joinDepth (a b : Nat) : Nat := max a b + 1

def chainDepth : List Nat → Nat
  | [] => 0
  | d :: rest => rest.foldl joinDepth d

/-- The depth of operands of these depths joined in halves. -/
def balancedDepth : List Nat → Nat
  | [] => 0
  | [d] => d
  | d :: e :: rest =>
    let half := (d :: e :: rest).length / 2
    joinDepth (balancedDepth ((d :: e :: rest).take half)) (balancedDepth ((d :: e :: rest).drop half))
termination_by depths => depths.length
decreasing_by
  all_goals
    simp
    omega

/-- The operands at the root joined to the left, as a text without parentheses is read. -/
def rechain (op : Connective) (r : Rule) : Rule := (op.operands r).foldLeft (Rule.join op)

def rebalance (op : Connective) (r : Rule) : Rule := (op.operands r).foldHalves (Rule.join op)

end Connective

/-- What becomes of the joins of the connective that the inputs bring along. -/
inductive FlattenPolicy where
  /-- They stay as they are. -/
  | disabled
  /-- Their operands are joined anew, to the left. -/
  | homogeneous
  /-- Their operands are joined anew, in halves. -/
  | balanced
  deriving DecidableEq, Repr

namespace FlattenPolicy

def name : FlattenPolicy → Text
  | disabled => "disabled".toList
  | homogeneous => "homogeneous".toList
  | balanced => "balanced".toList

def ofName? (t : Text) : Option FlattenPolicy :=
  [disabled, homogeneous, balanced].find? fun p => p.name == t

/-- A word that names no policy, without blanks around it and in lower case. -/
structure Unknown where
  word : Text
  deriving DecidableEq, Repr

/-- A policy by its name, in any case and with blanks around it; `none` is another word for disabled. -/
def ofText (t : Text) : Except Unknown FlattenPolicy :=
  let word := t.trim.lower
  if word = "none".toList then .ok disabled
  else
    match ofName? word with
    | some p => .ok p
    | none => .error ⟨word⟩

/-- The policy applies: there are two inputs or more, each a comparison or a join of the connective. -/
def applies (op : Connective) (inputs : Chain Rule) : Bool :=
  !inputs.tail.isEmpty && inputs.toList.all fun r => r.isCondition || op.heads r

/-- The depths of what is joined: where the policy has joins taken apart, those of their operands. -/
def joinedDepths (policy : FlattenPolicy) (op : Connective) (inputs : Chain Rule) : List Nat :=
  if applies op inputs ∧ policy ≠ disabled then inputs.toList.flatMap fun r => op.operandDepths [r]
  else inputs.toList.map Rule.depth

/-- The depth of the combination, from the depths of its operands alone. -/
def predictedDepth (policy : FlattenPolicy) (op : Connective) (inputs : Chain Rule) : Nat :=
  let depths := policy.joinedDepths op inputs
  if applies op inputs ∧ policy = balanced then Connective.balancedDepth depths
  else Connective.chainDepth depths

def join (policy : FlattenPolicy) (op : Connective) (inputs : Chain Rule) : Rule :=
  let joined := inputs.foldLeft (Rule.join op)
  if applies op inputs then
    match policy with
    | disabled => joined
    | homogeneous => op.rechain joined
    | balanced => op.rebalance joined
  else joined

def combine (policy : FlattenPolicy) (op : Connective) : List Rule → Except CombineError Rule
  | [] => .error .emptyInput
  | first :: rest =>
    let depth := policy.predictedDepth op ⟨first, rest⟩
    if Rule.maxDepth < depth then .error (.tooDeep depth) else .ok (policy.join op ⟨first, rest⟩)

end FlattenPolicy
end Rulebook
