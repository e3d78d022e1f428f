import Rulebook.Proofs.Lexeme
set_option autoImplicit false

/-!
The tokens of a text are its longest lexemes. Whatever follows a lexeme, the scanner takes at least the
lexeme; hence it takes the longest one that begins at its place, and a text has tokens exactly if it falls
into blanks and such lexemes.
-/

namespace Rulebook

namespace Text

theorem lower_eq_of_sameWord {w k l : Text} (hk : sameWord w k = true)
    (hl : sameWord w l = true) : k.lower = l.lower := by
  rw [sameWord, beq_iff_eq] at hk hl
  rw [← hk, hl]

end Text

namespace Token

/-! ### The classes by their spellings -/

theorem isWordStart_of_toLower {c : Char} (h : c.toLower.isAlpha = true) :
    isWordStart c = true := by
  by_cases hc : c.toNat < 128
  · exact ascii_of_forall (P := fun c => c.toLower.isAlpha = true → isWordStart c = true)
      (by decide) hc h
  · rw [Text.toLower_of_le (Nat.not_lt.1 hc)] at h
    change (decide (65 ≤ c.val ∧ c.val ≤ 90) || (decide (97 ≤ c.val) && decide (c.val ≤ 122))) =
      true at h
    simp only [Bool.or_eq_true, Bool.and_eq_true, decide_eq_true_eq, UInt32.le_iff_toNat_le] at h
    obtain ⟨-, hle⟩ | ⟨-, hle⟩ := h
    all_goals exact absurd (Nat.lt_of_le_of_lt hle (by decide)) hc

theorem isWord_of_sameWord {w k : Text} (hk : k.lower.all Char.isAlpha = true) (hne : k ≠ [])
    (h : Text.sameWord w k = true) : IsWord w := by
  rw [Text.sameWord, beq_iff_eq] at h
  have hstart : ∀ x ∈ w, isWordStart x = true := fun x hx =>
    isWordStart_of_toLower (List.all_eq_true.1 hk _ (h ▸ List.mem_map_of_mem hx))
  cases w with
  | nil => exact absurd (List.map_eq_nil_iff.1 h.symm) hne
  | cons c more =>
    refine ⟨c, more, rfl, hstart c (by simp), fun x hx => ?_⟩
    have hx := hstart x (by simp [hx])
    simp only [isWordStart, isWordChar, Bool.or_eq_true] at hx ⊢
    exact hx.imp_left .inl

/-- The spellings of each kind of token. -/
def Spelling : Kind → Text → Prop
  | .connective op, w => Text.sameWord w op.word = true
  | .not, w => Text.sameWord w "NOT".toList = true
  | .identifier, w => IsWord w ∧ (∀ op : Connective, Text.sameWord w op.word = false) ∧
      Text.sameWord w "NOT".toList = false
  | .comparator c, w => w = c.symbol ∨ w = ['='] ∧ c = .equal
  | .string, w => ∃ s, IsQuoted w s
  | .number, w => IsDecimal w
  | .leftParen, w => w = ['(']
  | .rightParen, w => w = [')']

theorem wordKind_of_connective {w : Text} {op : Connective}
    (h : Text.sameWord w op.word = true) : wordKind w = .connective op := by
  cases op with
  | and => exact if_pos h
  | or =>
    have hand : ¬ Text.sameWord w "AND".toList = true := fun hand =>
      absurd (Text.lower_eq_of_sameWord h hand) (by decide)
    rw [wordKind, if_neg hand]
    exact if_pos h

theorem wordKind_of_not {w : Text} (h : Text.sameWord w "NOT".toList = true) :
    wordKind w = .not := by
  have hand : ¬ Text.sameWord w "AND".toList = true := fun hand =>
    absurd (Text.lower_eq_of_sameWord h hand) (by decide)
  have hor : ¬ Text.sameWord w "OR".toList = true := fun hor =>
    absurd (Text.lower_eq_of_sameWord h hor) (by decide)
  rw [wordKind, if_neg hand, if_neg hor, if_pos h]

theorem sameWord_of_wordKind {w : Text} {op : Connective} (h : wordKind w = .connective op) :
    Text.sameWord w op.word = true := by
  unfold wordKind at h
  split at h
  · cases h
    assumption
  split at h
  · cases h
    assumption
  split at h <;> cases h

theorem lexeme_iff_spelling {kind : Kind} {w : Text} : Lexeme kind w ↔ Spelling kind w := by
  cases kind with
  | connective op =>
    constructor
    · exact fun h => sameWord_of_wordKind h.2
    · intro h
      have hletters : op.word.lower.all Char.isAlpha = true := by cases op <;> decide
      have hne : op.word ≠ [] := by cases op <;> decide
      exact ⟨isWord_of_sameWord hletters hne h, wordKind_of_connective h⟩
  | not =>
    constructor
    · rintro ⟨-, h⟩
      unfold wordKind at h
      split at h
      · cases h
      split at h
      · cases h
      split at h
      · assumption
      · cases h
    · exact fun h => ⟨isWord_of_sameWord (by decide) (by decide) h, wordKind_of_not h⟩
  | identifier =>
    constructor
    · rintro ⟨hw, h⟩
      refine ⟨hw, fun op => Bool.eq_false_iff.2 fun hop => ?_, Bool.eq_false_iff.2 fun hnot => ?_⟩
      · rw [wordKind_of_connective hop] at h
        cases h
      · rw [wordKind_of_not hnot] at h
        cases h
    · rintro ⟨hw, hop, hnot⟩
      have hand : ¬ Text.sameWord w "AND".toList = true := Bool.eq_false_iff.1 (hop .and)
      have hor : ¬ Text.sameWord w "OR".toList = true := Bool.eq_false_iff.1 (hop .or)
      exact ⟨hw, by rw [wordKind, if_neg hand, if_neg hor, if_neg (Bool.eq_false_iff.1 hnot)]⟩
  | comparator c =>
    constructor
    · exact spelling_of_comparator
    · rintro (rfl | ⟨rfl, rfl⟩)
      · exact Comparator.ofSymbol?_symbol c
      · rfl
  | string | number | leftParen | rightParen => exact Iff.rfl

/-! ### Longest lexemes -/

theorem scan_of_isWordStart {c : Char} (hc : isWordStart c = true) (rest : Text) :
    scan c rest =
      .token (wordKind (c :: rest.takeWhile isWordChar)) (rest.takeWhile isWordChar).length := by
  have hmarks := not_mem_marks (by decide) hc
  simp only [marks, List.mem_cons, List.not_mem_nil, not_or] at hmarks
  simp [scan, hmarks, isDigit_eq_false_of_isWordStart hc, hc, take_length_takeWhile]

theorem le_digitCount_append {whole : Text} (hw : AllDigits whole) (rest : Text) :
    whole.length ≤ digitCount (whole ++ rest) := by
  rw [digitCount, List.takeWhile_append_of_pos hw, List.length_append]
  omega

theorem digitCount_le_numberLength (t : Text) : digitCount t ≤ numberLength t := by
  unfold numberLength
  dsimp only
  split
  · split <;> omega
  · omega

theorem le_numberLength_append {whole fraction : Text} (hw : AllDigits whole)
    (hf : IsFraction fraction) (rest : Text) :
    (whole ++ fraction).length ≤ numberLength (whole ++ fraction ++ rest) := by
  obtain rfl | ⟨digits, rfl, hne, hd⟩ := hf
  · rw [List.append_nil]
    exact Nat.le_trans (le_digitCount_append hw rest) (digitCount_le_numberLength _)
  · have hpoint : ∀ c ∈ ('.' :: digits ++ rest).head?, c.isDigit = false := by simp
    have hwhole : digitCount (whole ++ ('.' :: digits ++ rest)) = whole.length :=
      digitCount_append hw hpoint
    have hcount := le_digitCount_append hd rest
    have hpos := List.length_pos_iff.2 hne
    rw [List.append_assoc, numberLength, hwhole, List.drop_left]
    simp only [List.cons_append, List.length_append, List.length_cons]
    split <;> omega

theorem exists_scan_sign {c : Char} (hc : c = '>' ∨ c = '<' ∨ c = '=') (rest : Text) :
    ∃ kind more, scan c rest = .token kind more := by
  by_cases hhead : rest.head? = some '='
  · rcases hc with rfl | rfl | rfl <;> exact ⟨_, _, if_pos hhead⟩
  · rcases hc with rfl | rfl | rfl <;> exact ⟨_, _, if_neg hhead⟩

/-- A lexeme is scanned at least to its end, whatever follows. -/
theorem exists_scan {kind : Kind} {c : Char} {more : Text} (h : Lexeme kind (c :: more))
    (rest : Text) : ∃ kind' n, scan c (more ++ rest) = .token kind' n ∧ more.length ≤ n := by
  have hword : IsWord (c :: more) →
      ∃ kind' n, scan c (more ++ rest) = .token kind' n ∧ more.length ≤ n := by
    rintro ⟨d, tail, heq, hd, htail⟩
    obtain ⟨rfl, rfl⟩ := List.cons.inj heq
    refine ⟨_, _, scan_of_isWordStart hd _, ?_⟩
    rw [List.takeWhile_append_of_pos htail, List.length_append]
    omega
  cases kind with
  | connective op => exact hword h.1
  | not => exact hword h.1
  | identifier => exact hword h.1
  | comparator k =>
    have hsign : c = '>' ∨ c = '<' ∨ c = '=' → more = [] →
        ∃ kind' n, scan c (more ++ rest) = .token kind' n ∧ more.length ≤ n := by
      rintro hc rfl
      obtain ⟨kind', n, hscan⟩ := exists_scan_sign hc rest
      exact ⟨kind', n, hscan, Nat.zero_le n⟩
    obtain hw | ⟨hw, rfl⟩ := spelling_of_comparator h
    · cases k with
      | greater | less =>
        obtain ⟨rfl, rfl⟩ := List.cons.inj hw
        exact hsign (by decide) rfl
      | greaterEqual | lessEqual | equal | notEqual =>
        obtain ⟨rfl, rfl⟩ := List.cons.inj hw
        exact ⟨_, 1, rfl, Nat.le_refl 1⟩
    · obtain ⟨rfl, rfl⟩ := List.cons.inj hw
      exact hsign (by decide) rfl
  | number =>
    obtain ⟨sign, whole, fraction, heq, hsign, hne, hw, hf⟩ := h
    obtain rfl | rfl := hsign
    · cases whole with
      | nil => exact absurd rfl hne
      | cons d digits =>
        obtain ⟨rfl, rfl⟩ : c = d ∧ more = digits ++ fraction := by simpa using heq
        have hdigits : AllDigits digits := fun x hx => hw x (by simp [hx])
        exact ⟨_, _, scan_digit (hw c (by simp)), le_numberLength_append hdigits hf rest⟩
    · obtain ⟨rfl, rfl⟩ : c = '-' ∧ more = whole ++ fraction := by simpa using heq
      have hcount := le_digitCount_append hw (fraction ++ rest)
      have hpos := List.length_pos_iff.2 hne
      have hzero : digitCount (whole ++ fraction ++ rest) ≠ 0 := by
        rw [List.append_assoc]
        omega
      exact ⟨.number, _, if_neg hzero, le_numberLength_append hw hf rest⟩
  | string =>
    obtain ⟨s, quote, hq, hs, heq⟩ := h
    obtain ⟨rfl, rfl⟩ := List.cons.inj heq
    exact ⟨_, _, scan_quoted hq hs rest, by simp⟩
  | leftParen =>
    obtain ⟨rfl, rfl⟩ := List.cons.inj h
    exact ⟨_, _, rfl, Nat.le_refl _⟩
  | rightParen =>
    obtain ⟨rfl, rfl⟩ := List.cons.inj h
    exact ⟨_, _, rfl, Nat.le_refl _⟩

/-- No lexeme goes on past `w` into what follows it. -/
def Longest (w rest : Text) : Prop :=
  ∀ kind more, more <+: rest → Lexeme kind (w ++ more) → more = []

theorem Longest.mono {w rest before : Text} (h : Longest w rest) (hb : before <+: rest) :
    Longest w before :=
  fun kind more hmore hlexeme => h kind more (hmore.trans hb) hlexeme

/-! ### Pieces -/

/-- A text falls into blanks and the longest lexemes. -/
inductive Pieces : Nat → Text → List Token → Prop
  | done {offset : Nat} : Pieces offset [] []
  | blank {offset : Nat} {c : Char} {rest : Text} {ts : List Token} :
      Text.isBlank c = true → Pieces (offset + c.utf8Size) rest ts → Pieces offset (c :: rest) ts
  | token {offset : Nat} {kind : Kind} {w rest : Text} {ts : List Token} :
      Lexeme kind w → Longest w rest → Pieces (offset + Text.byteLength w) rest ts →
      Pieces offset (w ++ rest) (⟨kind, w, offset⟩ :: ts)

theorem longest_of_scan {c : Char} {rest : Text} {kind : Kind} {more : Nat}
    (h : scan c rest = .token kind more) : Longest (c :: rest.take more) (rest.drop more) := by
  rintro kind' further ⟨tail, htail⟩ hlexeme
  rw [List.cons_append] at hlexeme
  obtain ⟨kind'', n, hscan, hle⟩ := exists_scan hlexeme tail
  have hrest : rest.take more ++ further ++ tail = rest := by
    rw [List.append_assoc, htail, List.take_append_drop]
  have hsame : Scan.token kind more = .token kind'' n := by
    rw [← h, ← hscan, hrest]
  obtain ⟨-, rfl⟩ := Scan.token.inj hsame
  have hlength := congrArg List.length htail
  simp only [List.length_append, List.length_take, List.length_drop] at hlength hle
  exact List.length_eq_zero_iff.1 (by omega)

theorem Lexeme.kind_eq {k l : Kind} {w : Text} (hk : Lexeme k w) (hl : Lexeme l w) : k = l := by
  cases w with
  | nil => exact absurd rfl hk.ne_nil
  | cons c more =>
    have hscank := (scan_of_lexeme hk (Kind.endsBefore_of_breaks breaks_nil k)).1
    have hscanl := (scan_of_lexeme hl (Kind.endsBefore_of_breaks breaks_nil l)).1
    rw [hscank] at hscanl
    exact (Scan.token.inj hscanl).1

theorem not_isBlank_of_lexeme {kind : Kind} {c : Char} {more : Text}
    (h : Lexeme kind (c :: more)) : Text.isBlank c = false :=
  (scan_of_lexeme h (Kind.endsBefore_of_breaks breaks_nil kind)).2

/-- A lexeme is scanned just to its end before what cannot extend it. -/
theorem scan_of_longest {kind : Kind} {c : Char} {more rest : Text}
    (h : Lexeme kind (c :: more)) (hl : Longest (c :: more) rest) :
    scan c (more ++ rest) = .token kind more.length := by
  cases rest with
  | nil => exact (scan_of_lexeme h (Kind.endsBefore_of_breaks breaks_nil kind)).1
  | cons d tail =>
    obtain ⟨kind', n, hscan, hle⟩ := exists_scan h (d :: tail)
    have htake : (more ++ d :: tail).take n = more ++ (d :: tail).take (n - more.length) := by
      rw [List.take_append, List.take_of_length_le hle]
    have hlexeme := scan_lexeme hscan
    rw [htake] at hlexeme
    have hnil := hl kind' _ (List.take_prefix _ (d :: tail)) hlexeme
    obtain rfl : n = more.length := by
      simp only [List.take_eq_nil_iff, List.cons_ne_nil, or_false] at hnil
      omega
    rw [hnil, List.append_nil] at hlexeme
    rw [hscan, hlexeme.kind_eq h]

theorem readsAs_of_longest {kind : Kind} {w rest : Text} (h : Lexeme kind w)
    (hl : Longest w rest) (offset : Nat) : ReadsAs offset w [⟨kind, w, offset⟩] rest := by
  cases w with
  | nil => exact absurd rfl h.ne_nil
  | cons c more => exact readsAs_of_scan (not_isBlank_of_lexeme h) (scan_of_longest h hl) offset

theorem pieces_of_tokensFrom {t : Text} {offset taken : Nat} {ts : List Token}
    (h : tokensFrom offset taken t = .ok ts) :
    Pieces (offset + Text.byteLength (t.take taken)) (t.drop taken) ts := by
  induction t generalizing offset taken ts with
  | nil =>
    cases h
    simpa using Pieces.done
  | cons c rest ih =>
    obtain ⟨more, rfl, htail⟩ | ⟨rfl, hblank, htail⟩ |
      ⟨rfl, -, kind, more, tokens, htoken, htail, rfl⟩ := tokensFrom_cons_ok h
    · simpa [Nat.add_assoc] using ih htail
    · exact .blank hblank (by simpa using ih htail)
    · have hpieces : Pieces offset ((c :: rest.take more) ++ rest.drop more)
          (⟨kind, c :: rest.take more, offset⟩ :: tokens) :=
        .token (scan_lexeme htoken) (longest_of_scan htoken)
          (by simpa [Nat.add_assoc] using ih htail)
      simpa using hpieces

theorem Pieces.tokensFrom {offset : Nat} {t : Text} {ts : List Token} (h : Pieces offset t ts) :
    tokensFrom offset 0 t = .ok ts := by
  induction h with
  | done => rfl
  | @blank offset c rest ts hblank _ ih =>
    have hread := readsAs_blank hblank offset rest
    unfold ReadsAs at hread
    rw [List.singleton_append] at hread
    simp only [Text.byteLength_cons, Text.byteLength_nil, Nat.add_zero, ih] at hread
    exact hread
  | @token offset kind w rest ts hlexeme hlongest _ ih =>
    have hread := readsAs_of_longest hlexeme hlongest offset
    unfold ReadsAs at hread
    rw [hread, ih]
    rfl

theorem tokenize_eq_ok_iff {rule : Text} {ts : List Token} :
    tokenize rule = .ok ts ↔ Pieces 0 rule ts :=
  ⟨fun h => by simpa using pieces_of_tokensFrom h, Pieces.tokensFrom⟩

/-! ### Where the scanner stops -/

/-- Nothing can be scanned at a character, and the error says so. -/
def Halts (c : Char) (rest : Text) (offset : Nat) (e : LexError) : Prop :=
  scan c rest = .unexpected ∧ e = .unexpectedCharacter c offset ∨
    scan c rest = .unterminated ∧ e = .unterminatedString offset

theorem Halts.offset_eq {c : Char} {rest : Text} {offset : Nat} {e : LexError}
    (h : Halts c rest offset e) : e.offset = offset := by
  rcases h with ⟨-, rfl⟩ | ⟨-, rfl⟩ <;> rfl

theorem tokensFrom_cons_error {c : Char} {rest : Text} {offset taken : Nat} {e : LexError}
    (h : tokensFrom offset taken (c :: rest) = .error e) :
    (∃ more, taken = more + 1 ∧ tokensFrom (offset + c.utf8Size) more rest = .error e) ∨
    (taken = 0 ∧ Text.isBlank c = true ∧ tokensFrom (offset + c.utf8Size) 0 rest = .error e) ∨
    (taken = 0 ∧ Text.isBlank c = false ∧ ∃ kind more, scan c rest = .token kind more ∧
      tokensFrom (offset + c.utf8Size) more rest = .error e) ∨
    (taken = 0 ∧ Text.isBlank c = false ∧ Halts c rest offset e) := by
  unfold tokensFrom at h
  dsimp only at h
  split at h
  · exact .inl ⟨_, rfl, h⟩
  · split at h
    · rename_i hblank
      exact .inr (.inl ⟨rfl, hblank, h⟩)
    · rename_i hblank
      have hblank : Text.isBlank c = false := by simpa using hblank
      split at h
      · rename_i kind more hscan
        split at h
        · cases h
        · rename_i he
          cases h
          exact .inr (.inr (.inl ⟨rfl, hblank, kind, more, hscan, he⟩))
      · rename_i hscan
        cases h
        exact .inr (.inr (.inr ⟨rfl, hblank, .inl ⟨hscan, rfl⟩⟩))
      · rename_i hscan
        cases h
        exact .inr (.inr (.inr ⟨rfl, hblank, .inr ⟨hscan, rfl⟩⟩))

/-- In front of the character at which the scanner stops there are pieces only. No token there owes its
end to that character. -/
theorem halts_of_tokensFrom {t : Text} {offset taken : Nat} {e : LexError}
    (h : tokensFrom offset taken t = .error e) :
    ∃ before c after ts, t.drop taken = before ++ c :: after ∧
      Pieces (offset + Text.byteLength (t.take taken)) before ts ∧ Text.isBlank c = false ∧
      Halts c after (offset + Text.byteLength (t.take taken) + Text.byteLength before) e := by
  induction t generalizing offset taken with
  | nil => cases h
  | cons c rest ih =>
    obtain ⟨more, rfl, htail⟩ | ⟨rfl, hblank, htail⟩ | ⟨rfl, -, kind, more, hscan, htail⟩ |
      ⟨rfl, hblank, hhalts⟩ := tokensFrom_cons_error h
    · simpa [Nat.add_assoc] using ih htail
    · obtain ⟨before, d, after, ts, hrest, hpieces, hd, hhalts⟩ := ih htail
      simp only [List.drop_zero, List.take_zero, Text.byteLength_nil, Nat.add_zero]
        at hrest hpieces hhalts
      refine ⟨c :: before, d, after, ts, by simp [hrest], ?_, hd, ?_⟩
      · simpa using Pieces.blank hblank hpieces
      · simpa [Nat.add_assoc] using hhalts
    · obtain ⟨before, d, after, ts, hrest, hpieces, hd, hhalts⟩ := ih htail
      have hlongest := (longest_of_scan hscan).mono ⟨d :: after, hrest.symm⟩
      have hfirst : Pieces offset ((c :: rest.take more) ++ before)
          (⟨kind, c :: rest.take more, offset⟩ :: ts) :=
        .token (scan_lexeme hscan) hlongest (by simpa [Nat.add_assoc] using hpieces)
      refine ⟨(c :: rest.take more) ++ before, d, after, _, ?_, by simpa using hfirst, hd, ?_⟩
      · rw [List.append_assoc, ← hrest]
        simp
      · simpa [Nat.add_assoc] using hhalts
    · exact ⟨[], c, rest, [], rfl, by simpa using Pieces.done, hblank, by simpa using hhalts⟩

theorem halts_of_tokenize {rule : Text} {e : LexError} (h : tokenize rule = .error e) :
    ∃ before c after ts, rule = before ++ c :: after ∧ tokenize before = .ok ts ∧
      Text.isBlank c = false ∧ Halts c after (Text.byteLength before) e := by
  obtain ⟨before, c, after, ts, hrule, hpieces, hc, hhalts⟩ := halts_of_tokensFrom h
  simp only [List.drop_zero, List.take_zero, Text.byteLength_nil, Nat.add_zero, Nat.zero_add]
    at hrule hpieces hhalts
  exact ⟨before, c, after, ts, hrule, tokenize_eq_ok_iff.2 hpieces, hc, hhalts⟩

end Token
end Rulebook
