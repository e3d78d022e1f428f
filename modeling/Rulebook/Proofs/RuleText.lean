import Rulebook.Proofs.Canonical
import Rulebook.Proofs.NumberText
set_option autoImplicit false

/-!
Reading undoes writing. The text of a canonical rule is one denial whose tree is the rule, nested one
level less than the tree is deep, so that the limit of depth is always the first to be met.
-/

namespace Rulebook

open Token (Breaks Lexeme ReadsAs breaks_blank breaks_close breaks_nil readsAs_word)

/-! ### Equality is reflexive on what is canonical -/

theorem Number.equal_self {n : Number} (h : n.isFinite = true) : n.equal n = true := by
  cases n with
  | nan => cases h
  | infinite negative => cases h
  | finite negative units hu => simp [Number.equal, Number.order?, Number.rank?]

theorem Value.Canonical.equal_self {v : Value} (h : v.Canonical) : v.equal v = true := by
  cases v with
  | boolean b => simp [Value.equal]
  | number n => exact Number.equal_self h
  | string s => simp [Value.equal]

theorem Rule.Canonical.equal_self {r : Rule} (h : r.Canonical) : r.equal r = true := by
  induction r with
  | condition c => simp [Rule.equal, Condition.equal, h.literal.equal_self]
  | join op l r ihl ihr => simp [Rule.equal, ihl h.1, ihr h.2]
  | not r ih => exact ih h
  | _ => exact h.elim

/-! ### Literals and comparisons -/

theorem Value.isQuoted_literal {s : Text} (h : '\'' ∉ s ∨ '"' ∉ s) :
    Token.IsQuoted (Value.string s).literal s := by
  by_cases hs : '\'' ∈ s
  · have hq : quoteFor s = '"' := by simp [quoteFor, hs]
    have hfree := h.resolve_left (not_not_intro hs)
    exact ⟨'"', .inr rfl, hfree, by simp [literal, hq]⟩
  · have hq : quoteFor s = '\'' := by simp [quoteFor, hs]
    exact ⟨'\'', .inl rfl, hs, by simp [literal, hq]⟩

theorem Comparator.lexeme_symbol (c : Comparator) : Lexeme (.comparator c) c.symbol :=
  c.ofSymbol?_symbol

/-- The text of a literal is a lexeme, and denotes the literal wherever it stands. -/
theorem Value.Canonical.lexeme {v : Value} (h : v.Canonical) : ∃ kind,
    Lexeme kind v.literal ∧ ∀ offset, Rule.Literal ⟨kind, v.literal, offset⟩ v := by
  cases v with
  | boolean b =>
    cases b with
    | true =>
      have hw : Token.IsWord ['t', 'r', 'u', 'e'] := Token.isWord_of_all (by decide) (by decide)
      exact ⟨.identifier, Token.lexeme_identifier hw rfl, fun _ => .yes rfl rfl⟩
    | false =>
      have hw : Token.IsWord ['f', 'a', 'l', 's', 'e'] :=
        Token.isWord_of_all (by decide) (by decide)
      exact ⟨.identifier, Token.lexeme_identifier hw rfl, fun _ => .no rfl rfl⟩
  | number n =>
    exact ⟨.number, Number.isDecimal_text h, fun _ => .number rfl (Number.ofText?_text h) h⟩
  | string s =>
    have hs := Value.isQuoted_literal h
    exact ⟨.string, ⟨s, hs⟩, fun _ => .string rfl hs⟩

theorem Condition.Canonical.readsAs {c : Condition} (h : c.Canonical) (offset : Nat) {rest : Text}
    (hr : Breaks rest) : ∃ ts, ReadsAs offset c.text ts rest ∧ Rule.Comparison ts c := by
  obtain ⟨kind, hl, hv⟩ := h.literal.lexeme
  have hname (t : Text) := readsAs_word h.name (breaks_blank t) offset
  have hsymbol (offset : Nat) (t : Text) :=
    readsAs_word c.comparator.lexeme_symbol (breaks_blank t) offset
  have hliteral (offset : Nat) := readsAs_word hl hr offset
  exact ⟨_, ((hname _).spaced (hsymbol _ _)).spaced (hliteral _), .mk rfl rfl (hv _)⟩

/-! ### Rules -/

theorem Connective.lexeme_word (op : Connective) : Lexeme (.connective op) op.word := by
  cases op <;> exact ⟨Token.isWord_of_all (by decide) (by decide), rfl⟩

namespace Rule

/-- A join of two denials is a denial within parentheses. -/
theorem Phrase.enclosed {op : Connective} {o t c : Token} {m n : Nat} {ts us : List Token}
    {l r : Rule} (ho : o.kind = .leftParen) (hl : Phrase .denial m ts l)
    (ht : t.kind = .connective op) (hr : Phrase .denial n us r) (hc : c.kind = .rightParen) :
    Phrase .denial (max m n + 1) (o :: (ts ++ t :: us ++ [c])) (.join op l r) := by
  refine .primary (.parentheses ho ?_ hc)
  cases op with
  | and => exact .operand (.join hl.chain_of_denial ht hr)
  | or => exact .join hl.chain_of_denial ht (.operand hr)

/-- The text of a rule is a denial, with one level of nesting for each inner node. -/
theorem Canonical.readsAs {r : Rule} (h : r.Canonical) (offset : Nat) {rest : Text}
    (hr : Breaks rest) :
    ∃ ts n, ReadsAs offset r.text ts rest ∧ Phrase .denial n ts r ∧ n + 1 = r.depth := by
  induction r generalizing offset rest with
  | condition c =>
    obtain ⟨ts, hts, hc⟩ := Condition.Canonical.readsAs h offset hr
    exact ⟨ts, 0, hts, .primary (.comparison hc), rfl⟩
  | join op l r ihl ihr =>
    have hopen (t : Text) : ReadsAs offset ['('] _ t :=
      Token.readsAs_lexeme Token.lexeme_open trivial offset
    have hclose (offset : Nat) := readsAs_word Token.lexeme_close hr offset
    have hword (offset : Nat) (t : Text) := readsAs_word op.lexeme_word (breaks_blank t) offset
    obtain ⟨ts, m, hl, hpl, hm⟩ := ihl h.1 (offset + Text.byteLength ['('])
      (breaks_blank (op.word ++ ' ' :: (r.text ++ ')' :: rest)))
    obtain ⟨us, n, hr, hpr, hn⟩ := ihr h.2
      (offset + Text.byteLength ('(' :: l.text ++ ' ' :: op.word ++ [' '])) (breaks_close rest)
    have hjoin := (((hopen _).append hl).spaced (hword _ _)).spaced hr
    refine ⟨_, max m n + 1, hjoin.append (hclose _), ?_, ?_⟩
    · simpa using Phrase.enclosed rfl hpl rfl hpr rfl
    · rw [depth, ← hm, ← hn]
      omega
  | not r ih =>
    have hnot (t : Text) := readsAs_word Token.lexeme_not (breaks_blank t) offset
    obtain ⟨ts, n, hts, hp, hn⟩ := ih h (offset + Text.byteLength ("NOT".toList ++ [' '])) hr
    exact ⟨_, n + 1, (hnot _).spaced hts, .not rfl hp, by rw [depth, hn]⟩
  | _ => exact h.elim

theorem Canonical.tokenize_text {r : Rule} (h : r.Canonical) :
    ∃ ts n, Token.tokenize r.text = .ok ts ∧ Phrase (.chain .or) n ts r ∧ n + 1 = r.depth := by
  obtain ⟨ts, n, hts, hp, hn⟩ := h.readsAs 0 breaks_nil
  exact ⟨ts, n, Token.tokenize_of_readsAs hts, hp.chain_of_denial, hn⟩

theorem ofText_text {r : Rule} (h : r.Canonical) (hd : r.depth ≤ maxDepth) :
    Rule.ofText r.text = .ok r := by
  obtain ⟨ts, n, hts, hp, hn⟩ := h.tokenize_text
  have hle : maxDepth ≤ maxNesting := by decide
  exact ofText_eq_ok_iff.2 ⟨ts, hts, ⟨n, by omega, hp⟩, hd⟩

theorem ofText_text_error {r : Rule} (h : r.Canonical) (hd : maxDepth < r.depth) :
    ∃ e, Rule.ofText r.text = .error e := by
  cases hr : Rule.ofText r.text with
  | error e => exact ⟨e, rfl⟩
  | ok s =>
    obtain ⟨ts, n, hts, hp, -⟩ := h.tokenize_text
    obtain ⟨us, hus, hs⟩ := ofText_eq_ok_iff.1 hr
    obtain rfl : ts = us := Except.ok.inj (hts.symm.trans hus)
    have hq := Token.stringsQuoted_of_tokenize hts
    obtain rfl : s = r := eq_of_phrase hq hp (parse_of_spells hq hs)
    exact absurd hs.2 (Nat.not_le.2 hd)

end Rule

theorem Condition.ofText_text {c : Condition} (h : c.Canonical) :
    Condition.ofText c.text = .ok c := by
  obtain ⟨ts, hts, hc⟩ := h.readsAs 0 breaks_nil
  exact Rule.conditionOfText_eq_ok_iff.2 ⟨ts, Token.tokenize_of_readsAs hts, hc⟩

theorem Condition.canonical_iff {c : Condition} :
    c.Canonical ↔ ∃ t, Condition.ofText t = .ok c :=
  ⟨fun h => ⟨c.text, ofText_text h⟩, fun ⟨_, h⟩ => Rule.conditionCanonical_of_ofText h⟩

/-- What is canonical reads back from its text unless it is too deep, and what is read or combined is
canonical and not too deep. -/
theorem Rule.reads_back :
    (∀ r : Rule, r.Canonical → r.depth ≤ maxDepth →
      ∃ s, Rule.ofText r.text = .ok s ∧ s.equal r = true ∧ s = r) ∧
    (∀ r : Rule, r.Canonical → maxDepth < r.depth → ∃ e, Rule.ofText r.text = .error e) ∧
    (∀ t r, Rule.ofText t = .ok r → r.Canonical ∧ r.depth ≤ maxDepth) ∧
    (∀ (policy : FlattenPolicy) (op : Connective) (rules : List Rule) (r : Rule),
      (∀ s ∈ rules, s.Canonical ∧ s.depth ≤ maxDepth) → policy.combine op rules = .ok r →
      r.Canonical ∧ r.depth ≤ maxDepth) ∧
    (∀ c : Condition, c.Canonical ↔ ∃ t, Condition.ofText t = .ok c) := by
  refine ⟨?_, fun r => ofText_text_error, fun t r => canonical_of_ofText, ?_,
    fun c => Condition.canonical_iff⟩
  · intro r h hd
    exact ⟨r, ofText_text h hd, h.equal_self, rfl⟩
  · intro policy op rules r hrules hr
    exact canonical_combine (fun s hs => (hrules s hs).1) hr

/-- A string with a single quote and a zero below zero under OR and NOT, and a tower of NOTs. -/
theorem Rule.reads_back_quote :
    let leaf : Condition := ⟨"é_1".toList, .notEqual, .string "it's".toList⟩
    let zero : Condition := ⟨['x'], .less, .number (.zero true)⟩
    let r : Rule := .not (.join .or (.condition leaf) (.condition zero))
    let deep : Rule := Nat.repeat .not 100 (.condition leaf)
    r.text = "NOT (é_1 != \"it's\" OR x < -0)".toList ∧ Rule.ofText r.text = .ok r ∧
      FlattenPolicy.balanced.combine .and [r, .condition leaf] =
        .ok (.join .and r (.condition leaf)) ∧
      Rule.Canonical (.join .and r (.condition leaf)) ∧ Rule.ofText deep.text ≠ .ok deep := by
  intro leaf zero r deep
  obtain ⟨hreads, hdeep, hparsed, hcombined, hcondition⟩ := reads_back
  have hleaf : leaf.Canonical := (hcondition leaf).2 ⟨"é_1 != \"it's\"".toList, rfl⟩
  have hzero : zero.Canonical := (hcondition zero).2 ⟨"x < -0".toList, rfl⟩
  obtain ⟨s, hs, -, rfl⟩ := hreads r ⟨hleaf, hzero⟩ (by decide)
  have hcombine : FlattenPolicy.balanced.combine .and [r, .condition leaf] =
      .ok (.join .and r (.condition leaf)) := by
    simp only [r, leaf, zero]
    cbv
  have hjoin := hcombined .balanced .and [r, .condition leaf] _
    (by simpa [hparsed _ _ hs] using ⟨hleaf, by decide⟩) hcombine
  obtain ⟨e, he⟩ := hdeep deep hleaf (by decide)
  refine ⟨rfl, hs, hcombine, hjoin.1, ?_⟩
  rw [he]
  simp

end Rulebook
