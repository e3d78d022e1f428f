import Rulebook.Proofs.Lookahead
set_option autoImplicit false

/-!
Where the tokens stop making sense. What a reader took before it got stuck can be gone on with to a phrase
of its category, unless a limit stopped it. And since a reader looks no further than the token at which it
is stuck, no phrase begins with that token too.
-/

namespace Rulebook.Rule

/-- A sentence of the grammar, however deep and however nested. -/
def Sentence (ts : List Token) : Prop := ∃ n r, Phrase (.chain .or) n ts r

/-- The tokens can be gone on with to a phrase of the category. -/
def Begins (k : Category) (us : List Token) : Prop := ∃ more n r, Phrase k n (us ++ more) r

theorem Literal.quoted {t : Token} {v : Value} (h : Literal t v) (hk : t.kind = .string) :
    ∃ s, Token.IsQuoted t.text s := by
  cases h with
  | number ht => cases ht.symm.trans hk
  | string _ hs => exact ⟨_, hs⟩
  | yes ht => cases ht.symm.trans hk
  | no ht => cases ht.symm.trans hk

theorem Phrase.stringsQuoted {k : Category} {n : Nat} {ts : List Token} {r : Rule}
    (h : Phrase k n ts r) : Token.StringsQuoted ts := by
  induction h with
  | comparison hc =>
    cases hc with
    | mk ha hc hl => simpa [Token.StringsQuoted, ha, hc] using hl.quoted
  | parentheses ho _ hc ih =>
    simpa [Token.StringsQuoted, ho, hc, or_imp, forall_and] using ih
  | primary _ ih => exact ih
  | not hk _ ih => simpa [Token.StringsQuoted, hk] using ih
  | operand _ ih => exact ih
  | join _ hk _ ihl ihr =>
    simpa [Token.StringsQuoted, hk, or_imp, forall_and] using And.intro ihl ihr

/-! ### Beginnings -/

theorem Phrase.begins {k : Category} {n : Nat} {us : List Token} {r : Rule} (h : Phrase k n us r) :
    Begins k us := ⟨[], n, r, by rwa [List.append_nil]⟩

theorem Comparison.begins {us more : List Token} {c : Condition} (h : Comparison (us ++ more) c) :
    Begins .denial us := ⟨more, 0, _, .primary (.comparison h)⟩

theorem literal_true : Literal ⟨.identifier, "true".toList, 0⟩ (.boolean true) := .yes rfl rfl

theorem begins_comparator {a c : Token} {comparator : Comparator} (ha : a.kind = .identifier)
    (hc : c.kind = .comparator comparator) : Begins .denial [a, c] :=
  Comparison.begins (.mk ha hc literal_true)

theorem begins_name {a : Token} (ha : a.kind = .identifier) : Begins .denial [a] :=
  Comparison.begins (.mk (c := ⟨.comparator .equal, ['='], 0⟩) ha rfl literal_true)

theorem begins_nil : Begins .denial [] :=
  Comparison.begins (.mk (a := ⟨.identifier, ['a'], 0⟩) (c := ⟨.comparator .equal, ['='], 0⟩)
    rfl rfl literal_true)

theorem Begins.operand {op : Connective} {us : List Token} (h : Begins (.operand op) us) :
    Begins (.chain op) us := by
  obtain ⟨more, n, r, hp⟩ := h
  exact ⟨more, n, r, .operand hp⟩

theorem Begins.chain_of_denial {op : Connective} {us : List Token} (h : Begins .denial us) :
    Begins (.chain op) us := by
  obtain ⟨more, n, r, hp⟩ := h
  exact ⟨more, n, r, hp.chain_of_denial⟩

theorem Begins.join {op : Connective} {t : Token} {n : Nat} {ts us : List Token} {l : Rule}
    (hl : Phrase (.chain op) n ts l) (hk : t.kind = .connective op)
    (h : Begins (.operand op) us) : Begins (.chain op) (ts ++ t :: us) := by
  obtain ⟨more, m, r, hp⟩ := h
  exact ⟨more, _, _, by simpa using hl.join hk hp⟩

theorem Begins.not {t : Token} {us : List Token} (hk : t.kind = .not) (h : Begins .denial us) :
    Begins .denial (t :: us) := by
  obtain ⟨more, n, r, hp⟩ := h
  exact ⟨more, n + 1, _, .not hk hp⟩

theorem Begins.parentheses {t : Token} {us : List Token} (hk : t.kind = .leftParen)
    (h : Begins (.chain .or) us) : Begins .denial (t :: us) := by
  obtain ⟨more, n, r, hp⟩ := h
  have hclosed := hp.parentheses (c := ⟨.rightParen, [')'], 0⟩) hk rfl
  exact ⟨more ++ [⟨.rightParen, [')'], 0⟩], n + 1, r, by simpa using hclosed.primary⟩

/-! ### Readers -/

/-- What a reader took before it got stuck at no limit begins a phrase of the category. -/
def KeepsTo (operand : List Token → Except Stuck Parsed) (k : Category) : Prop :=
  ∀ ts s, Token.StringsQuoted ts → operand ts = .error s → s.expected.isLimit = false →
    ∃ us, ts = us ++ s.rest ∧ Begins k us

theorem leaf_error {a : Token} (ha : a.kind = .identifier) {rest : List Token} {s : Stuck}
    (h : leaf (a :: rest) = .error s) : ∃ us, a :: rest = us ++ s.rest ∧ Begins .denial us := by
  cases rest with
  | nil =>
    simp only [leaf, comparison, ha, if_true] at h
    cases h
    exact ⟨[a], rfl, begins_name ha⟩
  | cons c rest =>
    cases hc : c.kind with
    | comparator k =>
      cases rest with
      | nil =>
        simp only [leaf, comparison, ha, hc, if_true] at h
        cases h
        exact ⟨[a, c], rfl, begins_comparator ha hc⟩
      | cons l rest =>
        cases hl : literalOf l with
        | ok value =>
          simp only [leaf, comparison, ha, hc, hl, if_true] at h
          cases h
        | error e =>
          simp only [leaf, comparison, ha, hc, hl, if_true] at h
          cases h
          exact ⟨[a, c], rfl, begins_comparator ha hc⟩
    | _ =>
      simp only [leaf, comparison, ha, hc, if_true] at h
      cases h
      exact ⟨[a], rfl, begins_name ha⟩

section

variable {op : Connective} {operand : List Token → Except Stuck Parsed} {budget : Nat}
  (hshort : Shrinks operand) (ho : ReadsOnly operand (.operand op) budget)
  (hkeeps : KeepsTo operand (.operand op))
include hshort ho hkeeps

theorem linksBefore_keepsTo (p : Parsed) (rest : List Token) {ts : List Token} {n : Nat}
    {s : Stuck} (hq : Token.StringsQuoted rest) (hp : Phrase (.chain op) n ts p.rule)
    (h : linksBefore op operand p rest = .error s) (hs : s.expected.isLimit = false) :
    ∃ us, rest = us ++ s.rest ∧ Begins (.chain op) (ts ++ us) := by
  induction hn : rest.length using Nat.strongRecOn generalizing p rest ts n with
  | ind k ih =>
    cases rest with
    | nil => cases h
    | cons t tail =>
      have hqt : Token.StringsQuoted tail := hq.of_sublist (by simp)
      by_cases hk : t.kind = .connective op
      · cases hr : operand tail with
        | error r =>
          rw [linksBefore_error hk hr] at h
          cases h
          obtain ⟨us, htail, hus⟩ := hkeeps tail s hqt hr hs
          exact ⟨t :: us, by rw [htail, List.cons_append], hus.join hp hk⟩
        | ok right =>
          by_cases hd : max p.depth right.depth < maxDepth
          · rw [linksBefore_cons hshort hk hr hd] at h
            obtain ⟨us, m, rfl, -, hus, -⟩ := ho tail right hqt hr
            have hlt : right.rest.length < k := by
              simp only [List.length_cons, List.length_append] at hn
              omega
            obtain ⟨vs, hrest, hvs⟩ := ih right.rest.length hlt _ right.rest
              (hqt.of_sublist (by simp)) (hp.join hk hus) h rfl
            exact ⟨t :: us ++ vs, by rw [hrest]; simp, by simpa using hvs⟩
          · -- this is the limit of depth
            rw [linksBefore_deep hk hr (Nat.not_lt.1 hd)] at h
            cases h
            cases hs
      · have hends : links op operand (t :: tail).length { p with rest := t :: tail } = .ok _ :=
          links_of_ends (by simpa [Ends] using hk)
        rw [linksBefore, hends] at h
        cases h

theorem chain_keepsTo : KeepsTo (chain op operand) (.chain op) := by
  intro ts s hq h hs
  cases hf : operand ts with
  | error r =>
    rw [chain, hf] at h
    cases h
    obtain ⟨us, hts, hus⟩ := hkeeps ts s hq hf hs
    exact ⟨us, hts, hus.operand⟩
  | ok first =>
    rw [chain, hf] at h
    obtain ⟨us, n, hts, -, hus, -⟩ := ho ts first hq hf
    obtain ⟨vs, hrest, hvs⟩ := linksBefore_keepsTo hshort ho hkeeps first first.rest
      (hq.of_sublist (by simp [hts])) hus.operand h hs
    exact ⟨us ++ vs, by rw [hts, hrest, List.append_assoc], hvs⟩

end

theorem close_error {p : Parsed} {s : Stuck} (h : close p = .error s) : s.rest = p.rest := by
  unfold close at h
  split at h
  · rename_i hnil
    cases h
    exact hnil.symm
  · rename_i t behind hrest
    split at h <;> cases h
    exact hrest.symm

theorem disjunctionOf_keepsTo {denial : List Token → Except Stuck Parsed} {budget : Nat}
    (hshort : Shrinks denial) (ho : ReadsOnly denial .denial budget)
    (hkeeps : KeepsTo denial .denial) : KeepsTo (disjunctionOf denial) (.chain .or) := by
  have hand : KeepsTo (chain .and denial) (.chain .and) := chain_keepsTo hshort ho hkeeps
  have hor : KeepsTo (chain .or (chain .and denial)) (.chain .or) :=
    chain_keepsTo (chain_shrinks hshort) (chain_sound ho) hand
  exact hor

section

variable {budget : Nat} {t : Token} {tail : List Token} {s : Stuck}

theorem other_keepsTo (hnot : t.kind ≠ .not) (hparen : t.kind ≠ .leftParen)
    (h : denial budget (t :: tail) = .error s) :
    ∃ us, t :: tail = us ++ s.rest ∧ Begins .denial us := by
  by_cases hk : t.kind = .identifier
  · rw [denial_identifier hk] at h
    exact leaf_error hk h
  · rw [denial_stray hk hnot hparen] at h
    cases h
    exact ⟨[], rfl, begins_nil⟩

variable (hkeeps : KeepsTo (denial budget) .denial) (hq : Token.StringsQuoted tail)
  (hs : s.expected.isLimit = false)
include hkeeps hq hs

theorem not_keepsTo (hk : t.kind = .not) (h : denial (budget + 1) (t :: tail) = .error s) :
    ∃ us, t :: tail = us ++ s.rest ∧ Begins .denial us := by
  cases hi : denial budget tail with
  | error r =>
    rw [denial_not hk, hi] at h
    cases h
    obtain ⟨us, htail, hus⟩ := hkeeps tail s hq hi hs
    exact ⟨t :: us, by rw [htail, List.cons_append], hus.not hk⟩
  | ok inner =>
    by_cases hd : inner.depth < maxDepth
    · rw [denial_not_ok hk hi hd] at h
      cases h
    · rw [denial_not_deep hk hi (Nat.not_lt.1 hd)] at h
      cases h
      cases hs

theorem parentheses_keepsTo (hk : t.kind = .leftParen)
    (h : denial (budget + 1) (t :: tail) = .error s) :
    ∃ us, t :: tail = us ++ s.rest ∧ Begins .denial us := by
  rw [denial_leftParen hk] at h
  cases hi : disjunctionOf (denial budget) tail with
  | error r =>
    rw [hi] at h
    cases h
    obtain ⟨us, htail, hus⟩ := disjunctionOf_keepsTo (denial_shrinks budget) (denial_sound budget)
      hkeeps tail s hq hi hs
    exact ⟨t :: us, by rw [htail, List.cons_append], hus.parentheses hk⟩
  | ok inner =>
    obtain ⟨us, n, htail, -, hus, -⟩ := disjunctionOf_sound (denial_sound budget) tail inner hq hi
    rw [hi] at h
    have hrest := close_error h
    exact ⟨t :: us, by rw [htail, List.cons_append, ← hrest], hus.begins.parentheses hk⟩

end

theorem denial_keepsTo (budget : Nat) : KeepsTo (denial budget) .denial := by
  intro ts
  induction budget, ts using denial_induction with
  | nil budget =>
    intro s _ h _
    rw [denial_nil] at h
    cases h
    exact ⟨[], rfl, begins_nil⟩
  | exhausted t tail hk =>
    intro s _ h hs
    rw [denial_exhausted hk] at h
    cases h
    cases hs
  | not budget t tail hk ih =>
    exact fun s hq h hs => not_keepsTo ih (hq.of_sublist (by simp)) hs hk h
  | parentheses budget t tail hk ih =>
    exact fun s hq h hs => parentheses_keepsTo ih (hq.of_sublist (by simp)) hs hk h
  | other budget t tail hnot hparen =>
    exact fun s _ h _ => other_keepsTo hnot hparen h

theorem disjunction_keepsTo (budget : Nat) : KeepsTo (disjunction budget) (.chain .or) :=
  disjunctionOf_keepsTo (denial_shrinks budget) (denial_sound budget) (denial_keepsTo budget)

/-! ### The whole list of tokens -/

/-- Nothing may be left behind a sentence. -/
def atEnd (p : Parsed) : Except Stuck Parsed :=
  if p.rest.isEmpty then .ok p else .error ⟨.connectiveOrEnd, p.rest⟩

def complete (ts : List Token) : Except Stuck Parsed := disjunction maxNesting ts >>= atEnd

theorem parse_eq_complete {ts : List Token} (hne : ts ≠ []) :
    parse ts = match complete ts with
      | .ok p => .ok p.rule
      | .error s => .error (s.report ts) := by
  rw [parse, if_neg (by simpa using hne), complete]
  cases disjunction maxNesting ts with
  | error s => rfl
  | ok p =>
    by_cases hrest : p.rest.isEmpty = true
    · simp only [bind, Except.bind, atEnd, if_pos hrest]
    · simp only [bind, Except.bind, atEnd, if_neg hrest]

theorem stops_complete (ts : List Token) : Stops complete ts := by
  have hstops := stops_disjunction maxNesting ts
  cases hp : disjunction maxNesting ts with
  | error s =>
    refine hstops.of_error hp fun us r hr => ?_
    rw [complete, hr]
    rfl
  | ok p =>
    refine hstops.of_ok hp (f := atEnd) (fun us rest hus => by rw [complete, hus]; rfl) ?_
    cases p.rest with
    | nil => exact stops_at_end (x := .ok p) rfl
    | cons t behind =>
      exact stops_at [] (x := .error ⟨.connectiveOrEnd, []⟩) (fun _ => rfl) behind

theorem complete_keepsTo : KeepsTo complete (.chain .or) := by
  intro ts s hq h hs
  cases hp : disjunction maxNesting ts with
  | error r =>
    rw [complete, hp] at h
    cases h
    exact disjunction_keepsTo maxNesting ts s hq hp hs
  | ok p =>
    obtain ⟨us, n, hts, -, hus, -⟩ := disjunctionOf_sound (denial_sound maxNesting) ts p hq hp
    rw [complete, hp] at h
    change atEnd p = _ at h
    unfold atEnd at h
    split at h <;> cases h
    exact ⟨us, hts, hus.begins⟩

/-- A sentence is parsed, unless it is beyond the limits. -/
theorem Sentence.limit_of_complete {ts : List Token} (h : Sentence ts) {s : Stuck}
    (hs : complete ts = .error s) : s.expected.isLimit = true := by
  obtain ⟨n, r, hp⟩ := h
  have hq := hp.stringsQuoted
  have hparse := parse_eq_complete hp.tokens_ne_nil
  rw [hs] at hparse
  by_cases hout : maxNesting < n ∨ maxDepth < r.depth
  · obtain ⟨e, he, hlimit⟩ := parse_limit_of_phrase hq hp hout
    rw [he] at hparse
    cases hparse
    rw [expected_report] at hlimit
    obtain hdepth | ⟨-, hnesting⟩ := hlimit
    · rw [hdepth]
      rfl
    · rw [hnesting]
      rfl
  · rw [parse_of_spells hq ⟨⟨n, by omega, hp⟩, by omega⟩] at hparse
    cases hparse

/-- No sentence begins with the tokens up to the one at which the reader is stuck. -/
theorem not_begins_of_complete {us tail : List Token} {t : Token} {s : Stuck}
    (hs : complete (us ++ t :: tail) = .error s) (hrest : s.rest = t :: tail)
    (hsettled : s.expected.isLimit = false) : ¬ Begins (.chain .or) (us ++ [t]) := by
  rintro ⟨more, n, r, hp⟩
  obtain ⟨vs, hts, hlocal⟩ := stops_complete (us ++ t :: tail)
  rw [hs] at hts hlocal
  obtain rfl : us = vs := List.append_cancel_right (hts.trans (by rw [left, hrest]))
  -- the reader does not see what stands behind `t`, so it is stuck in the sentence too
  have hmore := hlocal hsettled (t :: more) (by rw [left, hrest]; rfl)
  rw [← List.append_cons] at hp
  have hlimit := Sentence.limit_of_complete ⟨n, r, hp⟩ hmore
  exact absurd hsettled (by simpa using hlimit)

theorem Sentence.ne_nil {ts : List Token} (h : Sentence ts) : ts ≠ [] := by
  obtain ⟨_, _, hp⟩ := h
  exact hp.tokens_ne_nil

theorem exists_of_parse_error {ts : List Token} (hne : ts ≠ []) {e : ParseError}
    (h : parse ts = .error e) : ∃ s, complete ts = .error s ∧ e = s.report ts := by
  rw [parse_eq_complete hne] at h
  cases hs : complete ts with
  | ok p => simp [hs] at h
  | error s =>
    simp only [hs, Except.error.injEq] at h
    exact ⟨s, rfl, h.symm⟩

/-- The tokens begin a sentence as far as `k`, and no farther. -/
def FailsAt (ts : List Token) (k : Nat) : Prop :=
  Begins (.chain .or) (ts.take k) ∧ ¬ Begins (.chain .or) (ts.take (k + 1))

/-- The tokens only begin a sentence. -/
def FailsAtEnd (ts : List Token) : Prop :=
  (∃ more, more ≠ [] ∧ Sentence (ts ++ more)) ∧ ¬ Sentence ts

theorem Begins.failsAtEnd {ts : List Token} (h : Begins (.chain .or) ts) (hno : ¬ Sentence ts) :
    FailsAtEnd ts := by
  obtain ⟨more, hmore⟩ := h
  refine ⟨⟨more, fun hnil => ?_, hmore⟩, hno⟩
  rw [hnil, List.append_nil] at hmore
  exact hno hmore

section

variable {ts : List Token} {s : Stuck} (hq : Token.StringsQuoted ts)
  (hs : complete ts = .error s) (hsettled : s.expected.isLimit = false)
include hq hs hsettled

theorem failsAt_of_complete {t : Token} {tail : List Token} (hrest : s.rest = t :: tail) :
    ∃ k, ts[k]? = some t ∧ FailsAt ts k := by
  obtain ⟨us, hts, hbegins⟩ := complete_keepsTo ts s hq hs hsettled
  rw [hrest] at hts
  subst hts
  have hno := not_begins_of_complete hs hrest hsettled
  have htake : (us ++ t :: tail).take (us.length + 1) = us ++ [t] := by
    rw [List.append_cons]
    exact List.take_left' (by simp)
  exact ⟨us.length, by simp, by simpa using hbegins, by rwa [htake]⟩

theorem failsAtEnd_of_complete (hrest : s.rest = []) : FailsAtEnd ts := by
  obtain ⟨us, hts, hbegins⟩ := complete_keepsTo ts s hq hs hsettled
  rw [hrest, List.append_nil] at hts
  subst hts
  refine hbegins.failsAtEnd fun hsentence => ?_
  have hlimit := hsentence.limit_of_complete hs
  rw [hsettled] at hlimit
  cases hlimit

end

theorem report_of_rest_cons {s : Stuck} {t : Token} {tail : List Token} (h : s.rest = t :: tail)
    (ts : List Token) : s.report ts = ⟨t.offset, s.expected, some t.text⟩ := by
  simp only [Stuck.report, h]

theorem report_of_rest_nil {s : Stuck} (h : s.rest = []) (ts : List Token) :
    s.report ts = ⟨finish ts, s.expected, none⟩ := by
  simp only [Stuck.report, h]

/-- An error at no limit is at the first token with which no sentence goes on, or at the end of tokens that
only begin one. An error at a limit is at one of the tokens, or at their end. -/
theorem parse_error_at_first_impossible {ts : List Token} {e : ParseError}
    (hq : Token.StringsQuoted ts) (h : parse ts = .error e) :
    (e.expected.isLimit = false →
      (∀ text, e.found = some text → ∃ k t, ts[k]? = some t ∧ t.text = text ∧
        t.offset = e.offset ∧ FailsAt ts k) ∧
      (e.found = none → FailsAtEnd ts ∧ e.offset = finish ts)) ∧
    (e.expected.isLimit = true →
      (∃ t ∈ ts, e.found = some t.text ∧ e.offset = t.offset) ∨
        (e.found = none ∧ e.offset = finish ts)) := by
  by_cases hne : ts = []
  · subst hne
    cases h
    have hbegins : Begins (.chain .or) [] := begins_nil.chain_of_denial
    refine ⟨fun _ => ⟨nofun, fun _ => ⟨?_, rfl⟩⟩, nofun⟩
    exact hbegins.failsAtEnd fun hsentence => hsentence.ne_nil rfl
  obtain ⟨s, hs, rfl⟩ := exists_of_parse_error hne h
  rw [expected_report]
  cases hrest : s.rest with
  | nil =>
    rw [report_of_rest_nil hrest]
    exact ⟨fun hsettled => ⟨nofun, fun _ => ⟨failsAtEnd_of_complete hq hs hsettled hrest, rfl⟩⟩,
      fun _ => .inr ⟨rfl, rfl⟩⟩
  | cons t tail =>
    rw [report_of_rest_cons hrest]
    refine ⟨fun hsettled => ⟨fun text hfound => ?_, nofun⟩, fun _ => .inl ⟨t, ?_, rfl, rfl⟩⟩
    · obtain ⟨k, ht, hfails⟩ := failsAt_of_complete hq hs hsettled hrest
      exact ⟨k, t, ht, Option.some.inj hfound, rfl, hfails⟩
    · obtain ⟨us, hts, -⟩ := stops_complete ts
      rw [hs, left, hrest] at hts
      simp [hts]

set_option maxRecDepth 4000 in
/-- A token behind a whole comparison, a comparison without its literal, and one NOT too many. -/
theorem parse_error_at_first_impossible_sample :
    let a : Token := ⟨.identifier, ['a'], 0⟩
    let equal : Token := ⟨.comparator .equal, ['='], 1⟩
    let text : Token := ⟨.string, "'é'".toList, 2⟩
    let b : Token := ⟨.identifier, ['b'], 7⟩
    let denials : List Token := List.replicate 129 ⟨.not, "not".toList, 0⟩
    (Token.StringsQuoted [a, equal, text, b] ∧
      parse [a, equal, text, b] = .error ⟨7, .connectiveOrEnd, some ['b']⟩ ∧
      FailsAt [a, equal, text, b] 3) ∧
    (Token.StringsQuoted [a, equal] ∧ parse [a, equal] = .error ⟨2, .literal, none⟩ ∧
      FailsAtEnd [a, equal]) ∧
    (Token.StringsQuoted denials ∧ parse denials = .error ⟨3, .lessNesting, none⟩ ∧
      finish denials = 3) := by
  intro a equal text b denials
  have hq : Token.StringsQuoted [a, equal, text, b] :=
    Token.stringsQuoted_of_tokenize (t := "a='é' b".toList) rfl
  have hq' : Token.StringsQuoted [a, equal] := hq.of_sublist (by simp)
  have hq'' : Token.StringsQuoted denials := fun t ht hk => by
    rw [List.eq_of_mem_replicate ht] at hk
    cases hk
  have h : parse [a, equal, text, b] = .error ⟨7, .connectiveOrEnd, some ['b']⟩ := rfl
  have h' : parse [a, equal] = .error ⟨2, .literal, none⟩ := rfl
  have h'' : parse denials = .error ⟨3, .lessNesting, none⟩ := rfl
  obtain ⟨k, t, ht, -, hoffset, hfails⟩ :=
    ((parse_error_at_first_impossible hq h).1 rfl).1 ['b'] rfl
  have hend := ((parse_error_at_first_impossible hq' h').1 rfl).2 rfl
  have hlimit := (parse_error_at_first_impossible hq'' h'').2 rfl
  obtain ⟨_, _, hfound, -⟩ | ⟨-, hfinish⟩ := hlimit
  · cases hfound
  -- the offset tells the four tokens apart
  match k, ht with
  | 0, ht => cases ht; cases hoffset
  | 1, ht => cases ht; cases hoffset
  | 2, ht => cases ht; cases hoffset
  | 3, _ => exact ⟨⟨hq, h, hfails⟩, ⟨hq', h', hend.1⟩, hq'', h'', hfinish.symm⟩

end Rulebook.Rule
