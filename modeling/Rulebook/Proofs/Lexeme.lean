import Rulebook.Token.Lexer
set_option autoImplicit false

/-!
The lexical classes as predicates, apart from the scanner. What the scanner takes belongs to the class
of its kind, and a text of a class is taken whole before anything that cannot extend it.
-/

namespace Rulebook.Token

def IsWord (w : Text) : Prop :=
  ∃ c more, w = c :: more ∧ isWordStart c = true ∧ ∀ x ∈ more, isWordChar x = true

def AllDigits (t : Text) : Prop := ∀ c ∈ t, c.isDigit = true

/-- Nothing, or a point with digits behind it. -/
def IsFraction (t : Text) : Prop :=
  t = [] ∨ ∃ digits, t = '.' :: digits ∧ digits ≠ [] ∧ AllDigits digits

def IsDecimal (w : Text) : Prop :=
  ∃ sign whole fraction, w = sign ++ (whole ++ fraction) ∧ (sign = [] ∨ sign = ['-']) ∧
    whole ≠ [] ∧ AllDigits whole ∧ IsFraction fraction

/-- A text between two quotes that do not occur in it. -/
def IsQuoted (w s : Text) : Prop :=
  ∃ quote, (quote = '\'' ∨ quote = '"') ∧ quote ∉ s ∧ w = quote :: (s ++ [quote])

def Lexeme : Kind → Text → Prop
  | .leftParen, w => w = ['(']
  | .rightParen, w => w = [')']
  | .comparator c, w => Comparator.ofSymbol? w = some c
  | .string, w => ∃ s, IsQuoted w s
  | .number, w => IsDecimal w
  | k, w => IsWord w ∧ wordKind w = k

/-! ### The scanner takes lexemes -/

theorem take_length_takeWhile (p : Char → Bool) (t : Text) :
    t.take (t.takeWhile p).length = t.takeWhile p := by
  have h := List.takeWhile_append_dropWhile (p := p) (l := t)
  calc
    _ = (t.takeWhile p ++ t.dropWhile p).take (t.takeWhile p).length := by rw [h]
    _ = _ := List.take_left

theorem allDigits_takeWhile (t : Text) : AllDigits (t.takeWhile Char.isDigit) :=
  List.all_eq_true.1 List.all_takeWhile

theorem take_numberLength (t : Text) :
    ∃ fraction, IsFraction fraction ∧
      t.take (numberLength t) = t.takeWhile Char.isDigit ++ fraction := by
  have hwhole := take_length_takeWhile Char.isDigit t
  unfold numberLength
  dsimp only
  split
  · rename_i rest hrest
    split
    · exact ⟨[], .inl rfl, by rw [List.append_nil]; exact hwhole⟩
    · rename_i hne
      refine ⟨'.' :: rest.takeWhile Char.isDigit, .inr ⟨_, rfl, ?_, allDigits_takeWhile rest⟩, ?_⟩
      · intro hnil
        exact hne (by simp [digitCount, hnil])
      · have hsum : digitCount t + 1 + digitCount rest = digitCount t + (digitCount rest + 1) := by
          omega
        rw [hsum, List.take_add, hrest, digitCount, hwhole, List.take_succ_cons, digitCount,
          take_length_takeWhile]
  · exact ⟨[], .inl rfl, by rw [List.append_nil]; exact hwhole⟩

theorem isDecimal_unsigned {c : Char} {rest : Text} (hc : c.isDigit = true) :
    IsDecimal (c :: rest.take (numberLength rest)) := by
  obtain ⟨fraction, hf, ht⟩ := take_numberLength rest
  refine ⟨[], c :: rest.takeWhile Char.isDigit, fraction, by simp [ht], .inl rfl, by simp, ?_, hf⟩
  intro x hx
  rcases List.mem_cons.1 hx with rfl | hx
  · exact hc
  · exact allDigits_takeWhile rest x hx

theorem isDecimal_negative {rest : Text} (h : digitCount rest ≠ 0) :
    IsDecimal ('-' :: rest.take (numberLength rest)) := by
  obtain ⟨fraction, hf, ht⟩ := take_numberLength rest
  refine ⟨['-'], rest.takeWhile Char.isDigit, fraction, by simp [ht], .inr rfl, ?_,
    allDigits_takeWhile rest, hf⟩
  intro hnil
  exact h (by simp [digitCount, hnil])

theorem take_of_findIdx? {c : Char} {rest : Text} {close : Nat}
    (h : rest.findIdx? (· == c) = some close) :
    ∃ s, c ∉ s ∧ rest.take (close + 1) = s ++ [c] := by
  obtain ⟨hlt, heq, hbefore⟩ := List.findIdx?_eq_some_iff_getElem.1 h
  refine ⟨rest.take close, ?_, ?_⟩
  · intro hmem
    obtain ⟨i, hi, hget⟩ := List.mem_iff_getElem.1 hmem
    rw [List.getElem_take] at hget
    have hne := hbefore i (by simp at hi; omega)
    simp [hget] at hne
  · rw [List.take_succ_eq_append_getElem hlt, beq_iff_eq.1 heq]

theorem isWord_of_all {c : Char} {more : Text} (h : isWordStart c = true)
    (hm : more.all isWordChar = true) : IsWord (c :: more) :=
  ⟨c, more, rfl, h, List.all_eq_true.1 hm⟩

theorem isWord_takeWhile {c : Char} {rest : Text} (h : isWordStart c = true) :
    IsWord (c :: rest.takeWhile isWordChar) :=
  isWord_of_all h List.all_takeWhile

theorem wordKind_cases (w : Text) :
    (∃ op, wordKind w = .connective op) ∨ wordKind w = .not ∨ wordKind w = .identifier := by
  unfold wordKind
  split
  · exact .inl ⟨_, rfl⟩
  · split
    · exact .inl ⟨_, rfl⟩
    · split
      · exact .inr (.inl rfl)
      · exact .inr (.inr rfl)

theorem lexeme_word {w : Text} (h : IsWord w) : Lexeme (wordKind w) w := by
  obtain ⟨op, hk⟩ | hk | hk := wordKind_cases w <;> simp [hk, Lexeme, h]

theorem lexeme_identifier {w : Text} (h : IsWord w) (hk : wordKind w = .identifier) :
    Lexeme .identifier w := ⟨h, hk⟩

theorem lexeme_not : Lexeme .not "NOT".toList :=
  ⟨isWord_of_all (by decide) (by decide), rfl⟩

theorem lexeme_open : Lexeme .leftParen ['('] := rfl

theorem lexeme_close : Lexeme .rightParen [')'] := rfl

/-- A character that is a comparator, or becomes another one with an equals sign behind it. -/
theorem lexeme_comparator {one two : Comparator} {c : Char} {rest : Text} {kind : Kind} {more : Nat}
    (hone : Comparator.ofSymbol? [c] = some one)
    (htwo : Comparator.ofSymbol? [c, '='] = some two)
    (h : (if rest.head? = some '=' then Scan.token (.comparator two) 1
      else .token (.comparator one) 0) = .token kind more) :
    Lexeme kind (c :: rest.take more) := by
  split at h
  · rename_i hhead
    obtain ⟨tail, rfl⟩ := List.head?_eq_some_iff.1 hhead
    cases h
    exact htwo
  · cases h
    exact hone

theorem scan_lexeme {c : Char} {rest : Text} {kind : Kind} {more : Nat}
    (h : scan c rest = .token kind more) : Lexeme kind (c :: rest.take more) := by
  unfold scan at h
  split at h
  · rename_i hc
    cases h
    simp [Lexeme, hc]
  split at h
  · rename_i hc
    cases h
    simp [Lexeme, hc]
  split at h
  · rename_i hc
    subst hc
    exact lexeme_comparator rfl rfl h
  split at h
  · rename_i hc
    subst hc
    exact lexeme_comparator rfl rfl h
  split at h
  · rename_i hc
    subst hc
    exact lexeme_comparator rfl rfl h
  split at h
  · rename_i hc
    subst hc
    split at h
    · rename_i hhead
      obtain ⟨tail, rfl⟩ := List.head?_eq_some_iff.1 hhead
      cases h
      rfl
    · simp at h
  split at h
  · rename_i hc
    split at h
    · rename_i close hclose
      cases h
      obtain ⟨s, hs, htake⟩ := take_of_findIdx? hclose
      exact ⟨s, c, by simpa using hc, hs, by rw [htake]⟩
    · simp at h
  split at h
  · rename_i hc
    subst hc
    split at h
    · simp at h
    · rename_i hcount
      cases h
      exact isDecimal_negative hcount
  split at h
  · rename_i hc
    cases h
    exact isDecimal_unsigned hc
  split at h
  · rename_i hc
    cases h
    rw [take_length_takeWhile]
    exact lexeme_word (isWord_takeWhile hc)
  · simp at h

/-- A character belongs to the token before it, or is a blank, or starts the first token. -/
theorem tokensFrom_cons_ok {c : Char} {rest : Text} {offset taken : Nat} {ts : List Token}
    (h : tokensFrom offset taken (c :: rest) = .ok ts) :
    (∃ more, taken = more + 1 ∧ tokensFrom (offset + c.utf8Size) more rest = .ok ts) ∨
    (taken = 0 ∧ Text.isBlank c = true ∧ tokensFrom (offset + c.utf8Size) 0 rest = .ok ts) ∨
    (taken = 0 ∧ Text.isBlank c = false ∧ ∃ kind more tokens, scan c rest = .token kind more ∧
      tokensFrom (offset + c.utf8Size) more rest = .ok tokens ∧
      ts = ⟨kind, c :: rest.take more, offset⟩ :: tokens) := by
  unfold tokensFrom at h
  dsimp only at h
  split at h
  · exact .inl ⟨_, rfl, h⟩
  · split at h
    · rename_i hblank
      exact .inr (.inl ⟨rfl, hblank, h⟩)
    · rename_i hblank
      split at h
      · rename_i kind more hscan
        split at h
        · rename_i tokens htokens
          cases h
          exact .inr (.inr ⟨rfl, by simpa using hblank, kind, more, tokens, hscan, htokens, rfl⟩)
        · simp at h
      · simp at h
      · simp at h

/-- What holds of each piece that is scanned holds of every token. -/
theorem forall_tokensFrom {P : Token → Prop} {t : Text} {offset taken : Nat} {ts : List Token}
    (h : tokensFrom offset taken t = .ok ts)
    (hscan : ∀ c rest kind more offset, (c :: rest) <:+ t → scan c rest = .token kind more →
      P ⟨kind, c :: rest.take more, offset⟩) : ∀ token ∈ ts, P token := by
  induction t generalizing offset taken ts with
  | nil =>
    cases h
    simp
  | cons c rest ih =>
    have hrest : ∀ c' rest' kind more offset, (c' :: rest') <:+ rest →
        scan c' rest' = .token kind more → P ⟨kind, c' :: rest'.take more, offset⟩ :=
      fun c' rest' kind more offset hsuffix =>
        hscan c' rest' kind more offset (hsuffix.trans (List.suffix_cons c rest))
    obtain ⟨more, rfl, htail⟩ | ⟨rfl, -, htail⟩ |
      ⟨rfl, -, kind, more, tokens, htoken, htail, rfl⟩ := tokensFrom_cons_ok h
    · exact ih htail hrest
    · exact ih htail hrest
    · exact List.forall_mem_cons.2 ⟨hscan c rest kind more offset (List.suffix_refl _) htoken,
        ih htail hrest⟩

theorem tokenize_lexeme {t : Text} {ts : List Token} (h : tokenize t = .ok ts) :
    ∀ token ∈ ts, Lexeme token.kind token.text :=
  forall_tokensFrom h fun _ _ _ _ _ _ hscan => scan_lexeme hscan

/-- A token is cut out of the text. -/
theorem tokenize_subset {t : Text} {ts : List Token} (h : tokenize t = .ok ts) :
    ∀ token ∈ ts, token.text ⊆ t := by
  refine forall_tokensFrom h fun c rest kind more offset hsuffix _ => ?_
  exact List.Subset.trans (List.cons_subset_cons c (List.take_subset more rest)) hsuffix.subset

/-! ### Lexemes are taken whole -/

/-- What follows extends no token: it begins with no word character, point or equals sign. -/
def Breaks (rest : Text) : Prop :=
  ∀ c ∈ rest.head?, isWordChar c = false ∧ c ≠ '.' ∧ c ≠ '='

/-- Parentheses and strings end by themselves, all other tokens before a break. -/
def Kind.EndsBefore : Kind → Text → Prop
  | .leftParen, _ | .rightParen, _ | .string, _ => True
  | _, rest => Breaks rest

theorem Kind.endsBefore_of_breaks {rest : Text} (h : Breaks rest) (kind : Kind) :
    kind.EndsBefore rest := by
  cases kind <;> first | exact h | trivial

theorem breaks_close (t : Text) : Breaks (')' :: t) := by
  intro c hc
  obtain rfl : ')' = c := by simpa using hc
  decide

theorem breaks_nil : Breaks [] := by simp [Breaks]

theorem takeWhile_append_of_head {p : Char → Bool} {w rest : Text} (hw : ∀ x ∈ w, p x = true)
    (hr : ∀ c ∈ rest.head?, p c = false) : (w ++ rest).takeWhile p = w := by
  rw [List.takeWhile_append_of_pos hw]
  cases rest with
  | nil => simp
  | cons c tail => simp [hr c (by simp)]

theorem toNat_lt_of_isDigit {c : Char} (h : c.isDigit = true) : c.toNat < 128 := by
  simp only [Char.isDigit, Bool.and_eq_true, decide_eq_true_eq, UInt32.le_iff_toNat_le] at h
  have h57 : c.val.toNat ≤ 57 := h.2
  simp only [Char.toNat]
  omega

/-- What holds of every ASCII character can be checked on all of them. -/
theorem ascii_of_forall {P : Char → Prop} (h : ∀ n < 128, P (Char.ofNat n)) {c : Char}
    (hc : c.toNat < 128) : P c := by
  have hn := h c.toNat hc
  rwa [Char.ofNat_toNat] at hn

theorem isWordChar_of_isDigit {c : Char} (h : c.isDigit = true) : isWordChar c = true := by
  simp [isWordChar, Text.isNumeral, toNat_lt_of_isDigit h, h]

theorem Breaks.not_digit {rest : Text} (h : Breaks rest) :
    ∀ c ∈ rest.head?, c.isDigit = false := by
  intro c hc
  cases hd : c.isDigit with
  | false => rfl
  | true =>
    have hw := isWordChar_of_isDigit hd
    rw [(h c hc).1] at hw
    exact hw.symm

theorem has_eq_false_of_disjoint {s t : Text.Ranges}
    (h : (s.all fun a => t.all fun b => decide (a.2 < b.1 ∨ b.2 < a.1)) = true) {c : Char}
    (hc : s.has c = true) : t.has c = false := by
  simp only [List.all_eq_true, decide_eq_true_eq] at h
  obtain ⟨a, ha, hac⟩ := List.any_eq_true.1 hc
  simp only [Text.Ranges.has, List.any_eq_false]
  intro b hb
  have hab := h a ha b hb
  simp only [Bool.and_eq_true, decide_eq_true_eq] at hac ⊢
  omega

theorem isLetter_eq_false_of_isBlank {c : Char} (h : Text.isBlank c = true) :
    Text.isLetter c = false := by
  by_cases hlt : c.toNat < 128
  · exact ascii_of_forall (P := fun c => Text.isBlank c = true → Text.isLetter c = false)
      (by decide) hlt h
  · rw [Text.isLetter, if_neg hlt]
    exact has_eq_false_of_disjoint (by decide +kernel) h

theorem isNumeral_eq_false_of_isBlank {c : Char} (h : Text.isBlank c = true) :
    Text.isNumeral c = false := by
  by_cases hlt : c.toNat < 128
  · exact ascii_of_forall (P := fun c => Text.isBlank c = true → Text.isNumeral c = false)
      (by decide) hlt h
  · rw [Text.isNumeral, if_neg hlt]
    exact has_eq_false_of_disjoint (by decide +kernel) h

theorem breaks_of_isBlank {c : Char} (h : Text.isBlank c = true) (t : Text) : Breaks (c :: t) := by
  intro d hd
  obtain rfl : c = d := by simpa using hd
  have hne {e : Char} (he : Text.isBlank e = false) : c ≠ e := by
    rintro rfl
    rw [h] at he
    cases he
  have hscore : c ≠ '_' := hne (by decide)
  refine ⟨?_, hne (by decide), hne (by decide)⟩
  simp [isWordChar, isLetter_eq_false_of_isBlank h, isNumeral_eq_false_of_isBlank h, hscore]

theorem breaks_blank (t : Text) : Breaks (' ' :: t) := breaks_of_isBlank (by decide) t

/-- The characters that start another class of tokens than words, digits apart. -/
def marks : Text := ['(', ')', '>', '<', '=', '!', '\'', '"', '-']

theorem isDigit_eq_false_of_isWordStart {c : Char} (h : isWordStart c = true) :
    c.isDigit = false := by
  cases hd : c.isDigit with
  | false => rfl
  | true =>
    have hno := ascii_of_forall (P := fun c => c.isDigit = true → isWordStart c = false)
      (by decide) (toNat_lt_of_isDigit hd) hd
    rw [hno] at h
    exact h.symm

theorem not_mem_marks {p : Char → Bool} (h : (marks.all fun c => !p c) = true) {c : Char}
    (hc : p c = true) : c ∉ marks := by
  intro hmem
  have hno := List.all_eq_true.1 h c hmem
  simp [hc] at hno

theorem not_isBlank {c : Char} (h : isWordStart c = true ∨ c.isDigit = true ∨ c ∈ marks) :
    Text.isBlank c = false := by
  rcases h with h | h | h
  · cases hb : Text.isBlank c with
    | false => rfl
    | true =>
      have hne : c ≠ '_' := by
        rintro rfl
        exact absurd hb (by decide)
      simp [isWordStart, isLetter_eq_false_of_isBlank hb, hne] at h
  · exact ascii_of_forall (P := fun c => c.isDigit = true → Text.isBlank c = false)
      (by decide) (toNat_lt_of_isDigit h) h
  · cases hb : Text.isBlank c with
    | false => rfl
    | true => exact absurd h (not_mem_marks (by decide) hb)

theorem scan_word {c : Char} {more rest : Text} (hc : isWordStart c = true)
    (hm : ∀ x ∈ more, isWordChar x = true) (hr : Breaks rest) :
    scan c (more ++ rest) = .token (wordKind (c :: more)) more.length := by
  have hmarks := not_mem_marks (by decide) hc
  simp only [marks, List.mem_cons, List.not_mem_nil, not_or] at hmarks
  have htake : (more ++ rest).takeWhile isWordChar = more :=
    takeWhile_append_of_head hm fun x hx => (hr x hx).1
  simp [scan, hmarks, isDigit_eq_false_of_isWordStart hc, hc, htake]

theorem scan_quoted {quote : Char} {s : Text} (hq : quote = '\'' ∨ quote = '"')
    (hs : quote ∉ s) (rest : Text) :
    scan quote (s ++ [quote] ++ rest) = .token .string (s.length + 1) := by
  have hnone : s.findIdx? (· == quote) = none := by
    rw [List.findIdx?_eq_none_iff]
    intro x hx
    exact beq_eq_false_iff_ne.2 fun h => hs (h ▸ hx)
  have hfind : (s ++ [quote] ++ rest).findIdx? (· == quote) = some s.length := by
    simp [List.findIdx?_append, List.findIdx?_cons, hnone]
  rcases hq with rfl | rfl <;> simp only [scan, hfind] <;> rfl

theorem digitCount_append {whole rest : Text} (hw : AllDigits whole)
    (hr : ∀ c ∈ rest.head?, c.isDigit = false) : digitCount (whole ++ rest) = whole.length := by
  rw [digitCount, takeWhile_append_of_head hw hr]

theorem IsFraction.not_digit {fraction rest : Text} (hf : IsFraction fraction) (hr : Breaks rest) :
    ∀ c ∈ (fraction ++ rest).head?, c.isDigit = false := by
  obtain rfl | ⟨digits, rfl, -⟩ := hf
  · exact hr.not_digit
  · intro c hc
    obtain rfl : '.' = c := by simpa using hc
    rfl

theorem numberLength_append {whole fraction : Text} (hw : AllDigits whole)
    (hf : IsFraction fraction) (rest : Text) (hr : Breaks rest) :
    numberLength (whole ++ fraction ++ rest) = (whole ++ fraction).length := by
  have hwhole : digitCount (whole ++ (fraction ++ rest)) = whole.length :=
    digitCount_append hw (hf.not_digit hr)
  rw [List.append_assoc, numberLength, hwhole, List.drop_left]
  obtain rfl | ⟨digits, rfl, hne, hd⟩ := hf
  · cases rest with
    | nil => simp
    | cons c tail =>
      have hpoint := (hr c (by simp)).2.1
      rw [List.nil_append]
      split
      · rename_i h
        cases h
        exact absurd rfl hpoint
      · simp
  · have hcount : digitCount (digits ++ rest) = digits.length := digitCount_append hd hr.not_digit
    have hpos := List.length_pos_iff.2 hne
    simp only [List.cons_append, hcount, List.length_append, List.length_cons]
    split <;> omega

theorem scan_digit {c : Char} {more rest : Text} (hc : c.isDigit = true) :
    scan c (more ++ rest) = .token .number (numberLength (more ++ rest)) := by
  have hmarks := not_mem_marks (by decide) hc
  simp only [marks, List.mem_cons, List.not_mem_nil, not_or] at hmarks
  simp [scan, hmarks, hc]

theorem scan_decimal {c : Char} {more rest : Text} (h : IsDecimal (c :: more)) (hr : Breaks rest) :
    scan c (more ++ rest) = .token .number more.length ∧ Text.isBlank c = false := by
  obtain ⟨sign, whole, fraction, heq, hsign, hne, hw, hf⟩ := h
  obtain rfl | rfl := hsign
  · cases whole with
    | nil => exact absurd rfl hne
    | cons d digits =>
      obtain ⟨rfl, rfl⟩ : c = d ∧ more = digits ++ fraction := by simpa using heq
      have hc := hw c (by simp)
      have hdigits : AllDigits digits := fun x hx => hw x (by simp [hx])
      refine ⟨?_, not_isBlank (.inr (.inl hc))⟩
      rw [scan_digit hc, numberLength_append hdigits hf rest hr]
  · obtain ⟨rfl, rfl⟩ : c = '-' ∧ more = whole ++ fraction := by simpa using heq
    have hlength := numberLength_append hw hf rest hr
    have hcount : digitCount (whole ++ (fraction ++ rest)) = whole.length :=
      digitCount_append hw (hf.not_digit hr)
    have hzero : digitCount (whole ++ fraction ++ rest) ≠ 0 := by
      rw [List.append_assoc, hcount]
      exact Nat.ne_of_gt (List.length_pos_iff.2 hne)
    exact ⟨by simp only [scan, hzero, hlength]; rfl, by decide⟩

theorem spelling_of_comparator {w : Text} {k : Comparator}
    (h : Comparator.ofSymbol? w = some k) : w = k.symbol ∨ w = ['='] ∧ k = .equal := by
  unfold Comparator.ofSymbol? at h
  split at h
  · rename_i hw
    cases h
    exact .inr ⟨hw, rfl⟩
  · have hfound := List.find?_some h
    exact .inl (beq_iff_eq.1 hfound).symm

theorem scan_comparator {c : Char} {more rest : Text} {k : Comparator}
    (h : Comparator.ofSymbol? (c :: more) = some k) (hr : Breaks rest) :
    scan c (more ++ rest) = .token (.comparator k) more.length ∧ Text.isBlank c = false := by
  have hhead : rest.head? ≠ some '=' := by
    intro heq
    exact (hr '=' heq).2.2 rfl
  obtain hw | ⟨hw, rfl⟩ := spelling_of_comparator h
  · cases k <;> simp [Comparator.symbol] at hw <;> obtain ⟨rfl, rfl⟩ := hw <;>
      exact ⟨by simp [scan, hhead], by decide⟩
  · obtain ⟨rfl, rfl⟩ := List.cons.inj hw
    exact ⟨by simp [scan, hhead], by decide⟩

/-- A lexeme is scanned whole before anything that does not extend it. -/
theorem scan_of_lexeme {kind : Kind} {c : Char} {more rest : Text} (h : Lexeme kind (c :: more))
    (hr : kind.EndsBefore rest) :
    scan c (more ++ rest) = .token kind more.length ∧ Text.isBlank c = false := by
  have hword : IsWord (c :: more) ∧ wordKind (c :: more) = kind → Breaks rest →
      scan c (more ++ rest) = .token kind more.length ∧ Text.isBlank c = false := by
    rintro ⟨⟨d, tail, heq, hd, htail⟩, hk⟩ hr
    obtain ⟨rfl, rfl⟩ := List.cons.inj heq
    exact ⟨by rw [scan_word hd htail hr, hk], not_isBlank (.inl hd)⟩
  cases kind with
  | connective op => exact hword h hr
  | not => exact hword h hr
  | identifier => exact hword h hr
  | comparator k => exact scan_comparator h hr
  | number => exact scan_decimal h hr
  | string =>
    obtain ⟨s, quote, hq, hs, heq⟩ := h
    obtain ⟨rfl, rfl⟩ := List.cons.inj heq
    refine ⟨by rw [scan_quoted hq hs rest, List.length_append, List.length_singleton], ?_⟩
    rcases hq with rfl | rfl <;> decide
  | leftParen =>
    obtain ⟨rfl, rfl⟩ := List.cons.inj h
    exact ⟨rfl, by decide⟩
  | rightParen =>
    obtain ⟨rfl, rfl⟩ := List.cons.inj h
    exact ⟨rfl, by decide⟩

/-! ### Reading a text piece by piece -/

/-- Before the rest, the text reads as these tokens. -/
def ReadsAs (offset : Nat) (w : Text) (ts : List Token) (rest : Text) : Prop :=
  tokensFrom offset 0 (w ++ rest) =
    (tokensFrom (offset + Text.byteLength w) 0 rest).map (ts ++ ·)

theorem tokensFrom_taken (w : Text) (offset : Nat) (rest : Text) :
    tokensFrom offset w.length (w ++ rest) =
      tokensFrom (offset + Text.byteLength w) 0 rest := by
  induction w generalizing offset with
  | nil => rfl
  | cons c w ih =>
    simp only [List.length_cons, List.cons_append, Text.byteLength_cons, tokensFrom]
    rw [ih, Nat.add_assoc]

theorem Lexeme.ne_nil {kind : Kind} {w : Text} (h : Lexeme kind w) : w ≠ [] := by
  rintro rfl
  have hword : ¬ IsWord [] := by
    rintro ⟨c, more, h, -⟩
    cases h
  cases kind with
  | connective op => exact hword h.1
  | not => exact hword h.1
  | identifier => exact hword h.1
  | comparator k => cases h
  | leftParen => cases h
  | rightParen => cases h
  | string =>
    obtain ⟨s, quote, -, -, h⟩ := h
    cases h
  | number =>
    obtain ⟨sign, whole, fraction, heq, -, hne, -⟩ := h
    simp [hne] at heq

/-- A character whose scan takes up just what is written behind it. -/
theorem readsAs_of_scan {kind : Kind} {c : Char} {more rest : Text} (hb : Text.isBlank c = false)
    (h : scan c (more ++ rest) = .token kind more.length) (offset : Nat) :
    ReadsAs offset (c :: more) [⟨kind, c :: more, offset⟩] rest := by
  have htaken := tokensFrom_taken more (offset + c.utf8Size) rest
  unfold ReadsAs
  simp only [List.cons_append, tokensFrom, hb, h, htaken, List.take_left, Text.byteLength_cons,
    Nat.add_assoc]
  cases tokensFrom (offset + (c.utf8Size + Text.byteLength more)) 0 rest <;> rfl

theorem readsAs_lexeme {kind : Kind} {w rest : Text} (h : Lexeme kind w)
    (hr : kind.EndsBefore rest) (offset : Nat) : ReadsAs offset w [⟨kind, w, offset⟩] rest := by
  cases w with
  | nil => exact absurd rfl h.ne_nil
  | cons c more =>
    obtain ⟨hscan, hblank⟩ := scan_of_lexeme h hr
    exact readsAs_of_scan hblank hscan offset

theorem readsAs_word {kind : Kind} {w rest : Text} (h : Lexeme kind w) (hr : Breaks rest)
    (offset : Nat) : ReadsAs offset w [⟨kind, w, offset⟩] rest :=
  readsAs_lexeme h (Kind.endsBefore_of_breaks hr kind) offset

theorem readsAs_blank {c : Char} (h : Text.isBlank c = true) (offset : Nat) (rest : Text) :
    ReadsAs offset [c] [] rest := by
  unfold ReadsAs
  simp only [List.cons_append, List.nil_append, tokensFrom, h, if_true, Text.byteLength_cons,
    Text.byteLength_nil, Nat.add_zero]
  cases tokensFrom (offset + c.utf8Size) 0 rest <;> rfl

theorem ReadsAs.append {offset : Nat} {v w rest : Text} {ts us : List Token}
    (hv : ReadsAs offset v ts (w ++ rest))
    (hw : ReadsAs (offset + Text.byteLength v) w us rest) :
    ReadsAs offset (v ++ w) (ts ++ us) rest := by
  unfold ReadsAs at hv hw ⊢
  rw [List.append_assoc, hv, hw, Text.byteLength_append, ← Nat.add_assoc]
  cases tokensFrom (offset + Text.byteLength v + Text.byteLength w) 0 rest with
  | error e => rfl
  | ok tokens => simp [Except.map]

theorem ReadsAs.spaced {offset : Nat} {v w rest : Text} {ts us : List Token}
    (hv : ReadsAs offset v ts (' ' :: (w ++ rest)))
    (hw : ReadsAs (offset + Text.byteLength (v ++ [' '])) w us rest) :
    ReadsAs offset (v ++ ' ' :: w) (ts ++ us) rest := by
  have hblank := readsAs_blank (c := ' ') (by decide) (offset + Text.byteLength v) (w ++ rest)
  have happend := ReadsAs.append (ReadsAs.append hv hblank) hw
  rwa [List.append_assoc, List.singleton_append, List.append_nil] at happend

theorem tokenize_of_readsAs {w : Text} {ts : List Token} (h : ReadsAs 0 w ts []) :
    tokenize w = .ok ts := by
  unfold ReadsAs at h
  rw [List.append_nil] at h
  rw [tokenize, h]
  simp [tokensFrom, Except.map]

end Rulebook.Token
