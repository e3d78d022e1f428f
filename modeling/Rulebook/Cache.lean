import Rulebook.Rule.Parser
import Std.Data.HashMap
set_option autoImplicit false

/-!
A cache of read rules by their texts. It is emptied when it is full and another one comes. Texts that
spell no rule are not kept.
-/

namespace Rulebook

structure Cache where
  rules : Std.HashMap Text Rule

namespace Cache

def capacity : Nat := 4096

def empty : Cache := ⟨∅⟩

def size (c : Cache) : Nat := c.rules.size

def find? (c : Cache) (text : Text) : Option Rule := c.rules[text]?

/-- With one rule more, in an empty cache if there was no room. -/
def keep (c : Cache) (text : Text) (rule : Rule) : Cache :=
  if capacity ≤ c.size then ⟨(∅ : Std.HashMap Text Rule).insert text rule⟩
  else ⟨c.rules.insert text rule⟩

theorem find?_keep (c : Cache) (text : Text) (rule : Rule) (t : Text) :
    (c.keep text rule).find? t =
      if text = t then some rule else if capacity ≤ c.size then none else c.find? t := by
  unfold keep find?
  by_cases ht : text = t <;> split <;> simp [Std.HashMap.getElem?_insert, ht]

theorem size_keep_le (c : Cache) (text : Text) (rule : Rule) (h : c.size ≤ capacity) :
    (c.keep text rule).size ≤ capacity := by
  unfold keep size at *
  split
  · simp [Std.HashMap.size_insert, capacity]
  · rw [Std.HashMap.size_insert]
    split <;> omega

end Cache
end Rulebook
