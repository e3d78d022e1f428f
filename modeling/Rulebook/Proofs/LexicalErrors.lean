import Rulebook.Proofs.Pieces
import Rulebook.Text.Slice
set_option autoImplicit false

/-!
An error of the scanner stands at the first character at which no token can begin. The text in front of
it has tokens, and nothing that begins there is spelled like one: it is a mark that lacks what has to
follow it, a character of no class, or a quote that is not closed.
-/

namespace Rulebook.Token

/-- No token begins at the character: its mark stands alone, or it is in no class of tokens. -/
def Foreign (c : Char) (rest : Text) : Prop :=
  c = '!' ∧ rest.head? ≠ some '=' ∨
    c = '-' ∧ (∀ d ∈ rest.head?, d.isDigit = false) ∨
    ∀ kind more, ¬ Spelling kind (c :: more)

theorem head_of_digitCount {rest : Text} (h : digitCount rest = 0) :
    ∀ d ∈ rest.head?, d.isDigit = false := by
  cases rest with
  | nil => simp
  | cons c tail =>
    intro d hd
    obtain rfl : c = d := by simpa using hd
    rw [digitCount, List.length_eq_zero_iff, List.takeWhile_cons] at h
    split at h
    · cases h
    · simpa using ‹¬ c.isDigit = true›

theorem not_spelling_of_no_class {c : Char} (hm : c ∉ marks) (hd : ¬ c.isDigit = true)
    (hw : ¬ isWordStart c = true) (kind : Kind) (more : Text) : ¬ Spelling kind (c :: more) := by
  intro hspelling
  obtain ⟨kind', n, hscan, -⟩ := exists_scan (lexeme_iff_spelling.2 hspelling) []
  simp only [marks, List.mem_cons, List.not_mem_nil, not_or] at hm
  simp [scan, hm, hd, hw] at hscan

theorem scan_quote {c : Char} (hc : c = '\'' ∨ c = '"') (rest : Text) :
    (∃ more, scan c rest = .token .string more) ∨ scan c rest = .unterminated ∧ c ∉ rest := by
  cases hclose : rest.findIdx? (· == c) with
  | some close =>
    refine .inl ⟨close + 1, ?_⟩
    rcases hc with rfl | rfl <;> simp only [scan, hclose] <;> rfl
  | none =>
    refine .inr ⟨?_, fun hmem => ?_⟩
    · rcases hc with rfl | rfl <;> simp only [scan, hclose] <;> rfl
    · simpa using List.findIdx?_eq_none_iff.1 hclose c hmem

/-- What can be scanned at a character, and if nothing, why. -/
theorem scan_cases (c : Char) (rest : Text) :
    (∃ kind more, scan c rest = .token kind more) ∨
    (scan c rest = .unexpected ∧ Foreign c rest) ∨
    (scan c rest = .unterminated ∧ (c = '\'' ∨ c = '"') ∧ c ∉ rest) := by
  by_cases hq : c = '\'' ∨ c = '"'
  · obtain ⟨more, h⟩ | ⟨h, hmem⟩ := scan_quote hq rest
    · exact .inl ⟨_, _, h⟩
    · exact .inr (.inr ⟨h, hq, hmem⟩)
  by_cases hm : c ∈ marks
  · simp only [marks, List.mem_cons, List.not_mem_nil, or_false] at hm
    rcases hm with rfl | rfl | rfl | rfl | rfl | rfl | hc | hc | rfl
    · exact .inl ⟨_, _, rfl⟩
    · exact .inl ⟨_, _, rfl⟩
    · exact .inl (exists_scan_sign (by decide) rest)
    · exact .inl (exists_scan_sign (by decide) rest)
    · exact .inl (exists_scan_sign (by decide) rest)
    · by_cases hhead : rest.head? = some '='
      · exact .inl ⟨_, _, if_pos hhead⟩
      · exact .inr (.inl ⟨if_neg hhead, .inl ⟨rfl, hhead⟩⟩)
    · exact absurd (.inl hc) hq
    · exact absurd (.inr hc) hq
    · by_cases hzero : digitCount rest = 0
      · exact .inr (.inl ⟨if_pos hzero, .inr (.inl ⟨rfl, head_of_digitCount hzero⟩)⟩)
      · exact .inl ⟨_, _, if_neg hzero⟩
  by_cases hd : c.isDigit = true
  · exact .inl ⟨_, _, @scan_digit c [] rest hd⟩
  by_cases hw : isWordStart c = true
  · exact .inl ⟨_, _, scan_of_isWordStart hw rest⟩
  have hnone := not_spelling_of_no_class hm hd hw
  simp only [marks, List.mem_cons, List.not_mem_nil, not_or] at hm
  exact .inr (.inl ⟨by simp [scan, hm, hd, hw], .inr (.inr hnone)⟩)

/-- Where nothing is scanned no lexeme begins. -/
theorem Halts.not_spelling {c : Char} {rest : Text} {offset : Nat} {e : LexError}
    (h : Halts c rest offset e) {kind : Kind} {w : Text} (hw : w <+: c :: rest) :
    ¬ Spelling kind w := by
  intro hspelling
  have hlexeme := lexeme_iff_spelling.2 hspelling
  cases w with
  | nil => exact hlexeme.ne_nil rfl
  | cons d more =>
    obtain ⟨tail, htail⟩ := hw
    obtain ⟨rfl, rfl⟩ := List.cons.inj htail
    obtain ⟨kind', n, hscan, -⟩ := exists_scan hlexeme tail
    rcases h with ⟨hnone, -⟩ | ⟨hnone, -⟩ <;> cases hscan.symm.trans hnone

theorem Halts.cases {c : Char} {rest : Text} {offset : Nat} {e : LexError}
    (h : Halts c rest offset e) :
    e = .unexpectedCharacter c offset ∧ Foreign c rest ∨
      e = .unterminatedString offset ∧ (c = '\'' ∨ c = '"') ∧ c ∉ rest := by
  obtain ⟨kind, more, hscan⟩ | ⟨hscan, hforeign⟩ | ⟨hscan, hquote⟩ := scan_cases c rest
  · rcases h with ⟨hnone, -⟩ | ⟨hnone, -⟩ <;> cases hscan.symm.trans hnone
  · rcases h with ⟨-, he⟩ | ⟨hnone, -⟩
    · exact .inl ⟨he, hforeign⟩
    · cases hscan.symm.trans hnone
  · rcases h with ⟨hnone, -⟩ | ⟨-, he⟩
    · cases hscan.symm.trans hnone
    · exact .inr ⟨he, hquote⟩

/-- The scanner stops at the first character at which no token begins, and says why none does. -/
theorem tokenize_error_at_first {rule : Text} {e : LexError} (h : tokenize rule = .error e) :
    ∃ before c after, rule = before ++ c :: after ∧ rule.slice? 0 e.offset = some before ∧
      (∃ ts, tokenize before = .ok ts) ∧ Text.isBlank c = false ∧
      (∀ kind w, w <+: c :: after → ¬ Spelling kind w) ∧
      (∀ character offset, e = .unexpectedCharacter character offset →
        character = c ∧ Foreign c after) ∧
      (∀ offset, e = .unterminatedString offset → (c = '\'' ∨ c = '"') ∧ c ∉ after) := by
  obtain ⟨before, c, after, ts, hrule, htokens, hblank, hhalts⟩ := halts_of_tokenize h
  have hslice : rule.slice? 0 (Text.byteLength before) = some before :=
    Text.slice?_eq_some_iff.2 ⟨[], c :: after, hrule, rfl, Nat.zero_add _⟩
  refine ⟨before, c, after, hrule, ?_, ⟨ts, htokens⟩, hblank,
    fun kind w hw => hhalts.not_spelling hw, ?_⟩
  · rw [hhalts.offset_eq]
    exact hslice
  · obtain ⟨rfl, hforeign⟩ | ⟨rfl, hquote⟩ := hhalts.cases
    · refine ⟨fun character offset he => ?_, fun offset he => ?_⟩
      · cases he
        exact ⟨rfl, hforeign⟩
      · cases he
    · refine ⟨fun character offset he => ?_, fun offset _ => hquote⟩
      cases he

/-- A point that no digit follows does not belong to the number in front of it. -/
theorem tokenize_error_at_first_point :
    tokenize "é>5.".toList = .error (.unexpectedCharacter '.' 4) ∧
      Text.slice? "é>5.".toList 0 4 = some "é>5".toList ∧
      (∃ ts, tokenize "é>5".toList = .ok ts) ∧ Foreign '.' [] := by
  have h : tokenize "é>5.".toList = .error (.unexpectedCharacter '.' 4) := rfl
  have hbefore : Text.slice? "é>5.".toList 0 4 = some "é>5".toList := rfl
  obtain ⟨before, c, after, hrule, hslice, htokens, -, -, hforeign, -⟩ := tokenize_error_at_first h
  obtain rfl : "é>5".toList = before := Option.some.inj (hbefore.symm.trans hslice)
  obtain ⟨rfl, rfl⟩ : c = '.' ∧ after = [] := by simpa [eq_comm] using hrule
  exact ⟨h, hbefore, htokens, (hforeign _ _ rfl).2⟩

end Rulebook.Token
