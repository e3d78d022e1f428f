import Rulebook.Token.Basic
import Rulebook.Value.Basic
set_option autoImplicit false

/-!
Rule trees. A leaf is one comparison of an attribute with a literal; an inner node joins two rules,
denies one, or carries an operator that is none of these and has whatever children it came with.
-/

namespace Rulebook

structure Condition where
  name : Text
  comparator : Comparator
  literal : Value
  deriving DecidableEq

def Condition.text (c : Condition) : Text :=
  c.name ++ ' ' :: c.comparator.symbol ++ ' ' :: c.literal.literal

def Condition.equal (c d : Condition) : Bool :=
  c.name == d.name && c.comparator == d.comparator && c.literal.equal d.literal

/-- A foreign operator has no child, one on the left, one on the right, or both. -/
inductive Rule where
  | condition (c : Condition)
  | join (op : Connective) (left right : Rule)
  | not (inner : Rule)
  | foreign (operator : Text)
  | foreignLeft (operator : Text) (left : Rule)
  | foreignRight (operator : Text) (right : Rule)
  | foreignBoth (operator : Text) (left right : Rule)
  deriving DecidableEq

namespace Rule

/-- No tree deeper than this is built or accepted. -/
def maxDepth : Nat := 100

def foreignOf (operator : Text) : Option Rule → Option Rule → Rule
  | none, none => .foreign operator
  | some l, none => .foreignLeft operator l
  | none, some r => .foreignRight operator r
  | some l, some r => .foreignBoth operator l r

def isCondition : Rule → Bool
  | condition _ => true
  | _ => false

/-- The child of a denial stands on the left. -/
def left? : Rule → Option Rule
  | condition _ | foreign _ | foreignRight _ _ => none
  | join _ l _ | not l | foreignLeft _ l | foreignBoth _ l _ => some l

def right? : Rule → Option Rule
  | condition _ | not _ | foreign _ | foreignLeft _ _ => none
  | join _ _ r | foreignRight _ r | foreignBoth _ _ r => some r

def value : Rule → Text
  | condition c => c.text
  | join op _ _ => op.word
  | not _ => "NOT".toList
  | foreign o | foreignLeft o _ | foreignRight o _ | foreignBoth o _ _ => o

/-- A lone comparison has depth 1. -/
def depth : Rule → Nat
  | condition _ | foreign _ => 1
  | not r | foreignLeft _ r | foreignRight _ r => r.depth + 1
  | join _ l r | foreignBoth _ l r => max l.depth r.depth + 1

def nodeCount : Rule → Nat
  | condition _ | foreign _ => 1
  | not r | foreignLeft _ r | foreignRight _ r => r.nodeCount + 1
  | join _ l r | foreignBoth _ l r => l.nodeCount + r.nodeCount + 1

theorem nodeCount_pos (r : Rule) : 0 < r.nodeCount := by
  cases r <;> simp [nodeCount]

def nodeCounts : List Rule → Nat
  | [] => 0
  | r :: rest => r.nodeCount + nodeCounts rest

@[simp] theorem nodeCounts_append (rules more : List Rule) :
    nodeCounts (rules ++ more) = nodeCounts rules + nodeCounts more := by
  induction rules with
  | nil => simp [nodeCounts]
  | cons r rest ih => simp [nodeCounts, ih, Nat.add_assoc]

/-- The same tree up to the sign of a zero. -/
def equal : Rule → Rule → Bool
  | condition c, condition d => c.equal d
  | join o l r, join p m s => o == p && l.equal m && r.equal s
  | not r, not s => r.equal s
  | foreign o, foreign p => o == p
  | foreignLeft o l, foreignLeft p m => o == p && l.equal m
  | foreignRight o r, foreignRight p s => o == p && r.equal s
  | foreignBoth o l r, foreignBoth p m s => o == p && l.equal m && r.equal s
  | _, _ => false

/-- The fully parenthesised text of a rule. -/
def text : Rule → Text
  | condition c => c.text
  | join op l r => '(' :: l.text ++ ' ' :: op.word ++ ' ' :: r.text ++ [')']
  | not r => "NOT ".toList ++ r.text
  | foreign o => '(' :: o ++ [')']
  | foreignLeft o l => '(' :: o ++ ' ' :: l.text ++ [')']
  | foreignRight o r => '(' :: o ++ ' ' :: r.text ++ [')']
  | foreignBoth o l r => '(' :: o ++ ' ' :: l.text ++ ' ' :: r.text ++ [')']

end Rule
end Rulebook
