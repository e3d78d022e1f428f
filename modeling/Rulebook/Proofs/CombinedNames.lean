import Rulebook.Proofs.Lexeme
import Rulebook.Service.Operations
set_option autoImplicit false

/-!
The names of combined rules. Settings are checked on one name, which stands for all that can be drawn: they
are valid exactly if each of these is a valid name. The check has no answer where the length of the names is
past the greatest word.
-/

namespace Rulebook

namespace Name

/-- In a name, bytes are characters. -/
theorem byteLength_eq_length {name : Text} (h : name.all isNameChar = true) :
    name.byteLength = name.length :=
  Text.byteLength_of_ascii fun c hc => toNat_lt (List.all_eq_true.1 h c hc)

theorem isNameChar_of_isAlpha {c : Char} (h : c.isAlpha = true) : isNameChar c = true := by
  simp [isNameChar, Char.isAlphanum, h]

theorem isDigit_eq_false_of_isAlpha {c : Char} (h : c.isAlpha = true) : c.isDigit = false :=
  Token.ascii_of_forall (P := fun c => c.isAlpha = true → c.isDigit = false) (by decide)
    (toNat_lt (isNameChar_of_isAlpha h)) h

/-- With letters at its end, a name is valid if it is short enough and made of the right characters. -/
theorem check_append_iff {affix letters : Text} (hne : letters ≠ [])
    (hletters : letters.all Char.isAlpha = true) :
    check (affix ++ letters) = .ok () ↔
      affix.length + letters.length ≤ maxLength ∧ affix.all isNameChar = true := by
  have hchars : letters.all isNameChar = true :=
    List.all_eq_true.2 fun c hc => isNameChar_of_isAlpha (List.all_eq_true.1 hletters c hc)
  have hdigits : letters.all Char.isDigit = false := by
    obtain ⟨c, rest, rfl⟩ := List.exists_cons_of_ne_nil hne
    rw [List.all_cons, Bool.and_eq_true] at hletters
    rw [List.all_cons, isDigit_eq_false_of_isAlpha hletters.1, Bool.false_and]
  rw [check_eq_ok_iff, List.length_append, List.all_append, List.all_append, hchars, hdigits]
  simp [hne]

end Name

namespace Settings

variable {s : Settings}

/-- The length of the names in characters, which are bytes where they are valid. -/
theorem nameLength?_eq (h : s.affix.length + s.letterCount ≤ Name.maxLength)
    (hchars : s.affix.all Name.isNameChar = true) :
    s.nameLength? = some (s.affix.length + s.letterCount) := by
  have hfits : Name.maxLength < 2 ^ wordBits := by decide
  rw [nameLength?, Name.byteLength_eq_length hchars]
  exact if_pos (Nat.lt_of_le_of_lt h hfits)

theorem check_eq_ok_iff :
    s.check = some (.ok ()) ↔
      1 ≤ s.letterCount ∧ s.affix.length + s.letterCount ≤ Name.maxLength ∧
        s.affix.all Name.isNameChar = true := by
  by_cases hzero : s.letterCount = 0
  · simp [check, hzero]
  · have hsample : Name.check (s.affix ++ List.replicate s.letterCount 'x') = .ok () ↔
        s.affix.length + s.letterCount ≤ Name.maxLength ∧ s.affix.all Name.isNameChar = true := by
      rw [Name.check_append_iff (by simpa using hzero) (by simp), List.length_replicate]
    rw [← hsample, check, if_neg hzero, Option.map_eq_some_iff]
    constructor
    · rintro ⟨length, -, hlength⟩
      refine ⟨Nat.one_le_iff_ne_zero.2 hzero, ?_⟩
      split at hlength
      · cases hlength
      · split at hlength
        · assumption
        · cases hlength
    · rintro ⟨-, hvalid⟩
      obtain ⟨hlength, hchars⟩ := hsample.1 hvalid
      refine ⟨_, nameLength?_eq hlength hchars, ?_⟩
      rw [if_neg (Nat.not_lt.2 hlength), hvalid]

theorem check_eq_none_iff :
    s.check = none ↔ 1 ≤ s.letterCount ∧ 2 ^ wordBits ≤ s.affix.byteLength + s.letterCount := by
  by_cases hzero : s.letterCount = 0
  · simp [check, hzero]
  · rw [check, if_neg hzero, Option.map_eq_none_iff, nameLength?, Nat.one_le_iff_ne_zero]
    simp [hzero]

/-- Valid settings are those that have a letter to draw and draw valid names alone. -/
theorem check_eq_ok_iff_names :
    s.check = some (.ok ()) ↔
      1 ≤ s.letterCount ∧ ∀ letters : Text, letters.length = s.letterCount →
        letters.all Char.isAlpha = true → Name.check (s.affix ++ letters) = .ok () := by
  rw [check_eq_ok_iff, and_congr_right_iff]
  intro hpos
  constructor
  · intro hvalid letters hlength hletters
    have hne : letters ≠ [] := List.ne_nil_of_length_pos (by omega)
    rwa [Name.check_append_iff hne hletters, hlength]
  · intro hnames
    have hne : List.replicate s.letterCount 'x' ≠ [] :=
      List.ne_nil_of_length_pos (by rwa [List.length_replicate])
    have hsample := hnames (List.replicate s.letterCount 'x') (by simp) (by simp)
    rwa [Name.check_append_iff hne (by simp), List.length_replicate] at hsample

/-- Settings are found valid exactly if there is a letter to draw and all names that can be drawn are valid.
Other settings are faulty, unless the length of the names is past the greatest word: then there is no answer,
and there is none in no other case. -/
theorem check_tells_names (s : Settings) :
    (s.check = some (.ok ()) ↔
      1 ≤ s.letterCount ∧ ∀ letters : Text, letters.length = s.letterCount →
        letters.all Char.isAlpha = true → Name.check (s.affix ++ letters) = .ok ()) ∧
    (s.check = none ↔ 1 ≤ s.letterCount ∧ 2 ^ (64 : Nat) ≤ s.affix.byteLength + s.letterCount) ∧
    (s.affix.byteLength + s.letterCount < 2 ^ (64 : Nat) →
      s.check = some (.ok ()) ∨ ∃ f, s.check = some (.error f)) := by
  refine ⟨check_eq_ok_iff_names, check_eq_none_iff, fun hfits => ?_⟩
  cases hcheck : s.check with
  | none =>
    obtain ⟨-, hpast⟩ := check_eq_none_iff.1 hcheck
    exact absurd hfits (Nat.not_lt.2 hpast)
  | some result =>
    cases result with
    | ok => exact .inl rfl
    | error f => exact .inr ⟨f, rfl⟩

/-- Names of a hundred characters are valid, and names of one more are not. Without an affix, the greatest
word is a length like any other that is too great. -/
theorem check_tells_names_limit :
    let affix : Text := List.replicate 96 '7'
    let s : Settings := { Settings.standard with affix := affix }
    let longer : Settings := { s with letterCount := 5 }
    let longest : Settings := { s with affix := [], letterCount := 18446744073709551615 }
    Name.check (affix ++ "AbyZ".toList) = .ok () ∧
      (∃ f, longer.check = some (.error f)) ∧ ∃ f, longest.check = some (.error f) := by
  intro affix s longer longest
  have hs : s.check = some (.ok ()) := check_eq_ok_iff.2 (by decide)
  have hlonger : longer.check ≠ some (.ok ()) := mt check_eq_ok_iff.1 (by decide)
  have hlongest : longest.check ≠ some (.ok ()) := mt check_eq_ok_iff.1 (by decide)
  exact ⟨((check_tells_names s).1.1 hs).2 _ rfl (by decide),
    ((check_tells_names longer).2.2 (by decide)).resolve_left hlonger,
    ((check_tells_names longest).2.2 (by decide)).resolve_left hlongest⟩

/-- One character before a count of letters that is the greatest word: the check has no answer. -/
theorem check_of_longest_count :
    let s : Settings := { Settings.standard with affix := ['a'], letterCount := 18446744073709551615 }
    s.letterCount < 2 ^ (64 : Nat) ∧ s.check = none := by
  intro s
  exact ⟨by decide, check_eq_none_iff.2 (by decide)⟩

end Settings
end Rulebook
