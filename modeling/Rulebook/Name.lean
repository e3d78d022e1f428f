import Rulebook.Text.Basic
set_option autoImplicit false

/-!
Names of stored rules. An identifier made of digits alone always means an id, so that no name may look
like one.
-/

namespace Rulebook

inductive NameFault where
  | shape (name : Text)
  | allDigits (name : Text)
  deriving DecidableEq, Repr

namespace Name

def maxLength : Nat := 100

/-- ASCII letters and digits, and four more. -/
def isNameChar (c : Char) : Bool := c.isAlphanum || c = '_' || c = '.' || c = '-' || c = ' '

theorem toNat_lt {c : Char} (h : isNameChar c = true) : c.toNat < 128 := by
  simp only [isNameChar, Bool.or_eq_true, decide_eq_true_eq] at h
  obtain (((h | rfl) | rfl) | rfl) | rfl := h
  · change (decide (65 ≤ c.val ∧ c.val ≤ 90) || (decide (97 ≤ c.val) && decide (c.val ≤ 122)) ||
      (decide (48 ≤ c.val) && decide (c.val ≤ 57))) = true at h
    simp only [Bool.or_eq_true, Bool.and_eq_true, decide_eq_true_eq, UInt32.le_iff_toNat_le] at h
    obtain (⟨-, hle⟩ | ⟨-, hle⟩) | ⟨-, hle⟩ := h
    all_goals exact Nat.lt_of_le_of_lt hle (by decide)
  all_goals decide

def check (name : Text) : Except NameFault Unit :=
  if name.isEmpty || maxLength < name.length || !name.all isNameChar then .error (.shape name)
  else if name.all Char.isDigit then .error (.allDigits name)
  else .ok ()

theorem check_eq_ok_iff {name : Text} :
    check name = .ok () ↔
      name ≠ [] ∧ name.length ≤ maxLength ∧ name.all isNameChar = true ∧
        name.all Char.isDigit = false := by
  unfold check
  split
  · rename_i h
    simp only [Bool.or_eq_true, decide_eq_true_eq, List.isEmpty_iff, Bool.not_eq_true'] at h
    simp only [reduceCtorEq, false_iff]
    rintro ⟨hn, hl, hc, -⟩
    rcases h with (h | h) | h
    · exact hn h
    · omega
    · simp [hc] at h
  · rename_i h
    simp only [Bool.or_eq_true, decide_eq_true_eq, List.isEmpty_iff, Bool.not_eq_true', not_or,
      Bool.not_eq_false] at h
    obtain ⟨⟨hn, hl⟩, hc⟩ := h
    split
    · rename_i hd
      simp [hd]
    · rename_i hd
      exact iff_of_true rfl ⟨hn, Nat.not_lt.1 hl, hc, Bool.eq_false_iff.2 hd⟩

end Name
end Rulebook
