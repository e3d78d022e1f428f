import Rulebook.Proofs.Pieces
import Rulebook.Proofs.SyntaxErrors
set_option autoImplicit false

/-!
The blanks around the tokens of a text make no difference. A text with the same words in the same order has
the same tokens at other offsets, and no reader looks at an offset before it reports an error.
-/

namespace Rulebook

namespace Token

/-! ### Other blanks -/

def IsGap (t : Text) : Prop := ∀ c ∈ t, Text.isBlank c = true

/-- The texts of the tokens in order, with at least one blank between any two. -/
inductive Layout : List Token → Text → Prop
  | nil {gap : Text} : IsGap gap → Layout [] gap
  | cons {before gap rest : Text} {t : Token} {ts : List Token} :
      IsGap before → IsGap gap → (ts ≠ [] → gap ≠ []) → Layout ts rest →
      Layout (t :: ts) (before ++ t.text ++ (gap ++ rest))

/-- The same token wherever it stands. -/
def bare (t : Token) : Token := { t with offset := 0 }

@[simp] theorem bare_kind (t : Token) : t.bare.kind = t.kind := rfl

@[simp] theorem bare_text (t : Token) : t.bare.text = t.text := rfl

theorem IsGap.breaks {gap : Text} (h : IsGap gap) : Breaks gap := by
  cases gap with
  | nil => exact breaks_nil
  | cons c gap => exact breaks_of_isBlank (h c (List.mem_cons_self ..)) gap

theorem readsAs_gap {gap : Text} (h : IsGap gap) (offset : Nat) (rest : Text) :
    ReadsAs offset gap [] rest := by
  induction gap generalizing offset with
  | nil =>
    unfold ReadsAs
    cases htokens : tokensFrom offset 0 rest <;> simp [htokens, Except.map]
  | cons c gap ih =>
    have hblank := readsAs_blank (h c (List.mem_cons_self ..)) offset (gap ++ rest)
    exact hblank.append (ih (fun d hd => h d (List.mem_cons_of_mem _ hd)) _)

/-- What stands behind a token in a layout extends no token. -/
theorem Layout.breaks {ts : List Token} {gap rest : Text} (h : Layout ts rest) (hgap : IsGap gap)
    (hapart : ts ≠ [] → gap ≠ []) : Breaks (gap ++ rest) := by
  cases gap with
  | nil =>
    cases h with
    | nil hrest => exact hrest.breaks
    | cons => exact absurd rfl (hapart (List.cons_ne_nil _ _))
  | cons c gap => exact breaks_of_isBlank (hgap c (List.mem_cons_self ..)) (gap ++ rest)

theorem Layout.readsAs {ts : List Token} {text : Text} (h : Layout ts text)
    (hts : ∀ t ∈ ts, Lexeme t.kind t.text) (offset : Nat) :
    ∃ us, ReadsAs offset text us [] ∧ us.map bare = ts.map bare := by
  induction h generalizing offset with
  | nil hgap => exact ⟨[], readsAs_gap hgap offset [], rfl⟩
  | @cons before gap rest t ts hbefore hgap hapart hlayout ih =>
    have hfirst := readsAs_gap hbefore offset (t.text ++ (gap ++ rest))
    have hbreaks := hlayout.breaks hgap hapart
    have ht := readsAs_word (hts t (List.mem_cons_self ..)) hbreaks
      (offset + Text.byteLength before)
    have hword := hfirst.append ht
    rw [← List.append_nil (gap ++ rest)] at hword
    have hblank := readsAs_gap hgap (offset + Text.byteLength (before ++ t.text)) (rest ++ [])
    obtain ⟨us, hus, hbare⟩ := ih (fun u hu => hts u (List.mem_cons_of_mem _ hu))
      (offset + Text.byteLength (before ++ t.text) + Text.byteLength gap)
    refine ⟨_, hword.append (hblank.append hus), ?_⟩
    simp [hbare, bare]

theorem Layout.tokenize {rule text : Text} {ts : List Token} (h : Token.tokenize rule = .ok ts)
    (hl : Layout ts text) : ∃ us, Token.tokenize text = .ok us ∧ us.map bare = ts.map bare := by
  obtain ⟨us, hus, hbare⟩ := hl.readsAs (tokenize_lexeme h) 0
  exact ⟨us, tokenize_of_readsAs hus, hbare⟩

end Token

/-- The error is at the token with this index, or at the end of the tokens if it is their number. -/
def ParseError.IsAt (e : ParseError) (ts : List Token) (k : Nat) : Prop :=
  k ≤ ts.length ∧ e.found = ts[k]?.map Token.text ∧
    e.offset = (ts[k]?.map Token.offset).getD (Rule.finish ts)

namespace Rule

/-! ### Readers and offsets -/

/-- The same outcome on bare tokens. -/
def barely : Except Stuck Parsed → Except Stuck Parsed
  | .ok p => .ok { p with rest := p.rest.map Token.bare }
  | .error s => .error { s with rest := s.rest.map Token.bare }

def IgnoresOffsets (operand : List Token → Except Stuck Parsed) : Prop :=
  ∀ ts, operand (ts.map Token.bare) = barely (operand ts)

theorem literalOf_bare (t : Token) : literalOf t.bare = literalOf t := rfl

section

variable {op : Connective} {operand : List Token → Except Stuck Parsed}
  (h : IgnoresOffsets operand)
include h

theorem links_bare (fuel : Nat) (p : Parsed) :
    links op operand fuel { p with rest := p.rest.map Token.bare } =
      barely (links op operand fuel p) := by
  induction fuel generalizing p with
  | zero => rfl
  | succ fuel ih =>
    cases hrest : p.rest with
    | nil =>
      rw [links_of_ends (by simp [Ends]), links_of_ends (by simp [Ends, hrest]), barely, hrest]
    | cons t tail =>
      by_cases hk : t.kind = .connective op
      · have hbare : t.bare.kind = .connective op := hk
        rw [List.map_cons, links_step fuel rfl hbare, links_step fuel hrest hk, h tail]
        cases operand tail with
        | error s => rfl
        | ok right =>
          by_cases hd : max p.depth right.depth < maxDepth
          · simp only [barely, bind, Except.bind, grow_of_lt hd]
            exact ih ⟨.join op p.rule right.rule, _, right.rest⟩
          · simp only [barely, bind, Except.bind, grow_of_le (Nat.not_lt.1 hd), List.map_cons]
      · rw [links_of_ends (by simpa [Ends] using hk), links_of_ends (by simpa [Ends, hrest] using hk),
          barely, hrest]

theorem chain_ignoresOffsets : IgnoresOffsets (chain op operand) := by
  intro ts
  rw [chain, chain, h ts]
  cases operand ts with
  | error s => rfl
  | ok first =>
    simp only [barely, bind, Except.bind, List.length_map]
    exact links_bare h _ first

end

theorem disjunctionOf_ignoresOffsets {denial : List Token → Except Stuck Parsed}
    (h : IgnoresOffsets denial) : IgnoresOffsets (disjunctionOf denial) := by
  have hor : IgnoresOffsets (chain .or (chain .and denial)) :=
    chain_ignoresOffsets (chain_ignoresOffsets h)
  exact hor

theorem leaf_bare (ts : List Token) : leaf (ts.map Token.bare) = barely (leaf ts) := by
  cases ts with
  | nil => rfl
  | cons a rest =>
    by_cases ha : a.kind = .identifier
    · cases rest with
      | nil => simp [leaf, comparison, ha, barely, bind, Except.bind]
      | cons c rest =>
        cases hc : c.kind with
        | comparator k =>
          cases rest with
          | nil => simp [leaf, comparison, ha, hc, barely, bind, Except.bind]
          | cons l rest =>
            cases hl : literalOf l <;>
              simp [leaf, comparison, ha, hc, hl, literalOf_bare, barely, bind, Except.bind]
        | _ => simp [leaf, comparison, ha, hc, barely, bind, Except.bind]
    · simp [leaf, comparison, ha, barely, bind, Except.bind]

theorem close_bare (p : Parsed) :
    close { p with rest := p.rest.map Token.bare } = barely (close p) := by
  cases hrest : p.rest with
  | nil => simp [close, hrest, barely]
  | cons t behind =>
    by_cases hk : t.kind = .rightParen
    · have hbare : t.bare.kind = .rightParen := hk
      simp only [close, hrest, List.map_cons, if_pos hk, if_pos hbare, barely]
    · have hbare : t.bare.kind ≠ .rightParen := hk
      simp only [close, hrest, List.map_cons, if_neg hk, if_neg hbare, barely]

theorem other_bare {t : Token} (hnot : t.kind ≠ .not) (hparen : t.kind ≠ .leftParen) (budget : Nat)
    (tail : List Token) : denial budget ((t :: tail).map Token.bare) =
      barely (denial budget (t :: tail)) := by
  by_cases hk : t.kind = .identifier
  · have hbare : t.bare.kind = .identifier := hk
    rw [denial_identifier hk, List.map_cons, denial_identifier hbare]
    exact leaf_bare (t :: tail)
  · rw [denial_stray hk hnot hparen]
    exact denial_stray (t := t.bare) hk hnot hparen budget (tail.map Token.bare)

theorem not_bare {t : Token} {budget : Nat} (h : IgnoresOffsets (denial budget))
    (hk : t.kind = .not) (tail : List Token) :
    denial (budget + 1) ((t :: tail).map Token.bare) = barely (denial (budget + 1) (t :: tail)) := by
  have hbare : t.bare.kind = .not := hk
  rw [List.map_cons, denial_not hk, denial_not hbare, h tail]
  cases denial budget tail with
  | error s => rfl
  | ok inner =>
    by_cases hd : inner.depth < maxDepth
    · simp only [barely, Except.bind, grow_of_lt hd]
    · simp only [barely, Except.bind, grow_of_le (Nat.not_lt.1 hd), List.map_cons]

theorem parentheses_bare {t : Token} {budget : Nat} (h : IgnoresOffsets (denial budget))
    (hk : t.kind = .leftParen) (tail : List Token) :
    denial (budget + 1) ((t :: tail).map Token.bare) = barely (denial (budget + 1) (t :: tail)) := by
  have hbare : t.bare.kind = .leftParen := hk
  rw [List.map_cons, denial_leftParen hk, denial_leftParen hbare,
    disjunctionOf_ignoresOffsets h tail]
  cases disjunctionOf (denial budget) tail with
  | error s => rfl
  | ok inner => exact close_bare inner

theorem denial_ignoresOffsets (budget : Nat) : IgnoresOffsets (denial budget) := by
  intro ts
  induction budget, ts using denial_induction with
  | nil budget =>
    rw [denial_nil]
    exact denial_nil budget
  | exhausted t tail hk =>
    rw [denial_exhausted hk]
    exact denial_exhausted (t := t.bare) hk (tail.map Token.bare)
  | not budget t tail hk ih => exact not_bare ih hk tail
  | parentheses budget t tail hk ih => exact parentheses_bare ih hk tail
  | other budget t tail hnot hparen => exact other_bare hnot hparen budget tail

theorem complete_ignoresOffsets : IgnoresOffsets complete := by
  intro ts
  rw [complete, complete, disjunction, disjunctionOf_ignoresOffsets (denial_ignoresOffsets _) ts]
  cases disjunctionOf (denial maxNesting) ts with
  | error s => rfl
  | ok p =>
    cases hrest : p.rest <;> simp [barely, bind, Except.bind, atEnd, hrest]

/-! ### The same token -/

theorem isAt_report {s : Stuck} (us : List Token) :
    (s.report (us ++ s.rest)).IsAt (us ++ s.rest) us.length := by
  cases hrest : s.rest with
  | nil => simp [report_of_rest_nil hrest, ParseError.IsAt]
  | cons t tail => simp [report_of_rest_cons hrest, ParseError.IsAt]

theorem map_eq_of_bare {α : Type} {f : Token → α} (hf : ∀ t : Token, f t.bare = f t)
    {ts us : List Token} (h : us.map Token.bare = ts.map Token.bare) : us.map f = ts.map f := by
  have hmap : (us.map Token.bare).map f = (ts.map Token.bare).map f := by rw [h]
  simpa [Function.comp_def, hf] using hmap

/-- Stuck at bare tokens alike, two readers report errors at the same token. -/
theorem isAt_of_bare {ts us : List Token} {r s : Stuck}
    (h : us.map Token.bare = ts.map Token.bare) (hs : complete ts = .error s)
    (hr : complete us = .error r) (hrest : r.rest.map Token.bare = s.rest.map Token.bare) :
    ∃ k, (s.report ts).IsAt ts k ∧ (r.report us).IsAt us k := by
  obtain ⟨vs, hts, -⟩ := stops_complete ts
  obtain ⟨ws, hus, -⟩ := stops_complete us
  rw [hs] at hts
  rw [hr] at hus
  replace hts : ts = vs ++ s.rest := hts
  replace hus : us = ws ++ r.rest := hus
  have hlength : us.length = ts.length := by simpa using congrArg List.length h
  have hleft : r.rest.length = s.rest.length := by simpa using congrArg List.length hrest
  have hsame : ws.length = vs.length := by
    rw [hts, hus, List.length_append, List.length_append] at hlength
    omega
  refine ⟨vs.length, hts ▸ isAt_report vs, ?_⟩
  rw [← hsame]
  exact hus ▸ isAt_report ws

/-- The readers see the kinds and texts of the tokens alone. -/
theorem parse_of_bare {ts us : List Token} (h : us.map Token.bare = ts.map Token.bare) :
    (∃ r, parse ts = .ok r ∧ parse us = .ok r) ∨
    ∃ k e e', parse ts = .error e ∧ parse us = .error e' ∧ e.expected = e'.expected ∧
      e.IsAt ts k ∧ e'.IsAt us k := by
  have hnil : us = [] ↔ ts = [] := by rw [← List.map_eq_nil_iff, h, List.map_eq_nil_iff]
  by_cases hts : ts = []
  · obtain rfl := hnil.2 hts
    subst hts
    exact .inr ⟨0, _, _, rfl, rfl, rfl, by simp [ParseError.IsAt, finish],
      by simp [ParseError.IsAt, finish]⟩
  rw [parse_eq_complete hts, parse_eq_complete (mt hnil.1 hts)]
  have hbare : barely (complete us) = barely (complete ts) := by
    rw [← complete_ignoresOffsets, ← complete_ignoresOffsets, h]
  cases hs : complete ts with
  | ok p =>
    cases hr : complete us with
    | ok q =>
      rw [hs, hr] at hbare
      obtain ⟨hrule, -⟩ := Parsed.mk.inj (Except.ok.inj hbare)
      exact .inl ⟨p.rule, rfl, congrArg Except.ok hrule⟩
    | error r =>
      rw [hs, hr] at hbare
      cases hbare
  | error s =>
    cases hr : complete us with
    | ok q =>
      rw [hs, hr] at hbare
      cases hbare
    | error r =>
      rw [hs, hr] at hbare
      obtain ⟨hexpected, hrest⟩ := Stuck.mk.inj (Except.error.inj hbare)
      obtain ⟨k, hk, hk'⟩ := isAt_of_bare h hs hr hrest
      exact .inr ⟨k, _, _, rfl, rfl, by simp [hexpected], hk, hk'⟩

/-- The words of a text in order, with other blanks around them, are the same tokens at other offsets and
have the same rule, or the same error at the same token. -/
theorem ofText_of_layout {rule text : Text} {ts : List Token} (h : Token.tokenize rule = .ok ts)
    (hl : Token.Layout ts text) :
    ∃ us, Token.tokenize text = .ok us ∧ us.map Token.kind = ts.map Token.kind ∧
      us.map Token.text = ts.map Token.text ∧
      ((∃ r, Rule.ofText rule = .ok r ∧ Rule.ofText text = .ok r) ∨
        ∃ k e e', Rule.ofText rule = .error (.parse e) ∧ Rule.ofText text = .error (.parse e') ∧
          e.expected = e'.expected ∧ e.IsAt ts k ∧ e'.IsAt us k) := by
  obtain ⟨us, hus, hbare⟩ := hl.tokenize h
  refine ⟨us, hus, map_eq_of_bare Token.bare_kind hbare, map_eq_of_bare Token.bare_text hbare, ?_⟩
  obtain ⟨r, hr, hr'⟩ | ⟨k, e, e', he, he', hsame⟩ := parse_of_bare hbare
  · exact .inl ⟨r, by simp [Rule.ofText, h, hr], by simp [Rule.ofText, hus, hr']⟩
  · exact .inr ⟨k, e, e', by simp [Rule.ofText, h, he], by simp [Rule.ofText, hus, he'], hsame⟩

/-- A string next to a word, and the same words apart. -/
theorem ofText_of_layout_sample :
    let ts : List Token := [⟨.identifier, ['a'], 0⟩, ⟨.comparator .greaterEqual, ">=".toList, 1⟩,
      ⟨.string, "'é'".toList, 3⟩, ⟨.identifier, ['b'], 7⟩]
    let text : Text := " a\u2003>=\t'é'  b\n".toList
    Token.tokenize "a>='é'b".toList = .ok ts ∧ Token.Layout ts text ∧
      ∃ us, Token.tokenize text = .ok us ∧ us.map Token.text = ts.map Token.text ∧
        ∃ e, Rule.ofText text = .error (.parse e) ∧ e.expected = .connectiveOrEnd ∧
          e.IsAt us 3 := by
  intro ts text
  have h : Token.tokenize "a>='é'b".toList = .ok ts := rfl
  have herror : Rule.ofText "a>='é'b".toList =
      .error (.parse ⟨7, .connectiveOrEnd, some ['b']⟩) := rfl
  have hgap {t : Text} (ht : (t.all Text.isBlank) = true) : Token.IsGap t := List.all_eq_true.1 ht
  have hnone : Token.IsGap [] := hgap rfl
  have hl : Token.Layout ts text :=
    @Token.Layout.cons [' '] ['\u2003'] _ _ _ (hgap rfl) (hgap rfl) (by simp) <|
    @Token.Layout.cons [] ['\t'] _ _ _ hnone (hgap rfl) (by simp) <|
    @Token.Layout.cons [] [' ', ' '] _ _ _ hnone (hgap rfl) (by simp) <|
    @Token.Layout.cons [] ['\n'] _ _ _ hnone (hgap rfl) (by simp) (.nil hnone)
  obtain ⟨us, hus, -, htexts, ⟨r, hr, -⟩ | ⟨k, e, e', he, he', hexpected, hat, hat'⟩⟩ :=
    ofText_of_layout h hl
  · rw [herror] at hr
    cases hr
  · rw [herror] at he
    cases he
    -- the offset of the error tells the tokens apart
    have hk : k = 3 := by
      obtain ⟨hle, -, hoffset⟩ := hat
      match k, hle, hoffset with
      | 0, _, hoffset => cases hoffset
      | 1, _, hoffset => cases hoffset
      | 2, _, hoffset => cases hoffset
      | 3, _, _ => rfl
      | 4, _, hoffset => cases hoffset
    exact ⟨h, hl, us, hus, htexts, e', he', hexpected.symm, hk ▸ hat'⟩

end Rule
end Rulebook
