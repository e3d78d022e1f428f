import Rulebook.Proofs.Grammar
set_option autoImplicit false

/-!
The readers of `Rule.parse` accept the phrases of the grammar and nothing else. Soundness goes by the
budget of nesting and, in a chain, by its links. Completeness goes by the phrase: before any further
tokens that do not bind tighter, the reader of its category takes the phrase off if it keeps within
both limits, and fails otherwise.
-/

namespace Rulebook.Rule

/-! ### Literals and comparisons -/

theorem literalOf_eq_ok_iff {t : Token} {v : Value}
    (hq : t.kind = .string → ∃ s, Token.IsQuoted t.text s) : literalOf t = .ok v ↔ Literal t v := by
  constructor
  · intro h
    unfold literalOf at h
    split at h
    · rename_i hk
      split at h
      · rename_i n hn
        by_cases hf : n.isFinite = true
        · simp only [hf, if_true, Except.ok.injEq] at h
          subst h
          exact .number hk hn hf
        · simp [hf] at h
      · simp at h
    · rename_i hk
      obtain ⟨s, hs⟩ := hq hk
      rw [Token.unquoted_of_isQuoted hk hs] at h
      cases h
      exact .string hk hs
    · rename_i hk
      split at h
      · rename_i hw
        cases h
        exact .yes hk hw
      · split at h
        · rename_i hw
          cases h
          exact .no hk hw
        · simp at h
    · simp at h
  · intro h
    cases h with
    | number hk hn hf => simp [literalOf, hk, hn, hf]
    | string hk hs => simp [literalOf, hk, Token.unquoted_of_isQuoted hk hs]
    | yes hk hw => simp only [literalOf, hk, hw, if_true]
    | no hk hw =>
      have hne : ¬ Text.sameWord t.text "true".toList = true := by
        simp only [Text.sameWord, beq_iff_eq] at hw ⊢
        rw [hw]
        decide
      simp only [literalOf, hk, hw, if_neg hne, if_true]

theorem comparison_append {ts : List Token} {c : Condition} (h : Comparison ts c)
    (hq : Token.StringsQuoted ts) (rest : List Token) :
    comparison (ts ++ rest) = .ok (c, rest) := by
  cases h with
  | mk ha hc hl =>
    rename_i a c l comparator value
    have hv := (literalOf_eq_ok_iff (hq l (by simp))).2 hl
    simp [comparison, ha, hc, hv]

theorem comparison_sound {ts rest : List Token} {c : Condition} (hq : Token.StringsQuoted ts)
    (h : comparison ts = .ok (c, rest)) : ∃ us, ts = us ++ rest ∧ Comparison us c := by
  unfold comparison at h
  split at h
  · simp at h
  · rename_i a tail
    split at h
    · rename_i ha
      split at h
      · simp at h
      · rename_i m tail'
        split at h
        · rename_i comparator hc
          split at h
          · simp at h
          · rename_i l tail''
            split at h
            · rename_i value hv
              cases h
              have hl := (literalOf_eq_ok_iff (hq l (by simp))).1 hv
              exact ⟨[a, m, l], rfl, .mk ha hc hl⟩
            · simp at h
        · simp at h
    · simp at h

/-! ### Soundness -/

/-- What a reader takes off a list of tokens is a phrase of the category, nested no deeper than the
budget, and its depth is told right. -/
def ReadsOnly (operand : List Token → Except Stuck Parsed) (k : Category) (budget : Nat) : Prop :=
  ∀ ts p, Token.StringsQuoted ts → operand ts = .ok p →
    ∃ us n, ts = us ++ p.rest ∧ n ≤ budget ∧ Phrase k n us p.rule ∧
      p.depth = p.rule.depth ∧ p.depth ≤ maxDepth

theorem grow_eq_ok_iff {operator : List Token} {depth result : Nat} :
    grow operator depth = .ok result ↔ depth < maxDepth ∧ result = depth + 1 := by
  unfold grow
  split
  · simp [*, eq_comm]
  · simp [*]

theorem ok_of_bind {ε α β : Type} {x : Except ε α} {f : α → Except ε β} {b : β}
    (h : x >>= f = .ok b) : ∃ a, x = .ok a ∧ f a = .ok b := by
  cases x with
  | error e => cases h
  | ok a => exact ⟨a, rfl, h⟩

theorem links_sound {op : Connective} {operand : List Token → Except Stuck Parsed} {budget : Nat}
    (ho : ReadsOnly operand (.operand op) budget) (fuel : Nat) (left : Parsed) {p : Parsed}
    {ts : List Token} {n : Nat} (hq : Token.StringsQuoted left.rest) (hn : n ≤ budget)
    (hp : Phrase (.chain op) n ts left.rule) (hd : left.depth = left.rule.depth)
    (hm : left.depth ≤ maxDepth) (h : links op operand fuel left = .ok p) :
    ∃ us m, left.rest = us ++ p.rest ∧ m ≤ budget ∧ Phrase (.chain op) m (ts ++ us) p.rule ∧
      p.depth = p.rule.depth ∧ p.depth ≤ maxDepth := by
  induction fuel generalizing left ts n with
  | zero =>
    cases h
    exact ⟨[], n, rfl, hn, by simpa using hp, hd, hm⟩
  | succ fuel ih =>
    unfold links at h
    split at h
    · cases h
      exact ⟨[], n, rfl, hn, by simpa using hp, hd, hm⟩
    · rename_i t tail ht
      split at h
      · rename_i hk
        obtain ⟨right, hr, hgrow⟩ := ok_of_bind h
        obtain ⟨depth, hg, hlinks⟩ := ok_of_bind hgrow
        rw [ht] at hq
        have hqt : Token.StringsQuoted tail := hq.of_sublist (by simp)
        obtain ⟨us, m, rfl, hmb, hphrase, hrd, -⟩ := ho tail right hqt hr
        obtain ⟨hlt, rfl⟩ := grow_eq_ok_iff.1 hg
        have hjoin := hp.join hk hphrase
        have hqr : Token.StringsQuoted right.rest := hqt.of_sublist (by simp)
        obtain ⟨vs, k, hrest, hk, hv, hvd, hvm⟩ :=
          ih ⟨.join op left.rule right.rule, _, right.rest⟩ hqr
            (Nat.max_le.2 ⟨hn, hmb⟩) hjoin (by simp [depth, hd, hrd]) hlt hlinks
        refine ⟨t :: us ++ vs, k, ?_, hk, by simpa using hv, hvd, hvm⟩
        simp only at hrest
        rw [ht, hrest]
        simp
      · cases h
        exact ⟨[], n, rfl, hn, by simpa using hp, hd, hm⟩

theorem chain_sound {op : Connective} {operand : List Token → Except Stuck Parsed} {budget : Nat}
    (ho : ReadsOnly operand (.operand op) budget) :
    ReadsOnly (chain op operand) (.chain op) budget := by
  intro ts p hq h
  obtain ⟨first, hf, hl⟩ := ok_of_bind h
  obtain ⟨us, n, rfl, hn, hp, hd, hm⟩ := ho ts first hq hf
  have hqr : Token.StringsQuoted first.rest := hq.of_sublist (by simp)
  obtain ⟨vs, m, hrest, hmb, hv, hvd, hvm⟩ := links_sound ho _ first hqr hn hp.operand hd hm hl
  exact ⟨us ++ vs, m, by rw [hrest]; simp, hmb, hv, hvd, hvm⟩

theorem disjunctionOf_sound {denial : List Token → Except Stuck Parsed} {budget : Nat}
    (hd : ReadsOnly denial .denial budget) :
    ReadsOnly (disjunctionOf denial) (.chain .or) budget := by
  have hand : ReadsOnly (chain .and denial) (.chain .and) budget := chain_sound hd
  have hor : ReadsOnly (chain .or (chain .and denial)) (.chain .or) budget := chain_sound hand
  exact hor

theorem denial_cases {budget : Nat} {ts : List Token} {p : Parsed}
    (h : denial budget ts = .ok p) :
    (∃ c rest, comparison ts = .ok (c, rest) ∧ p = ⟨.condition c, 1, rest⟩) ∨
    (∃ b t rest inner, budget = b + 1 ∧ ts = t :: rest ∧ t.kind = .not ∧
      denial b rest = .ok inner ∧ inner.depth < maxDepth ∧
      p = ⟨.not inner.rule, inner.depth + 1, inner.rest⟩) ∨
    (∃ b o rest inner c behind, budget = b + 1 ∧ ts = o :: rest ∧ o.kind = .leftParen ∧
      disjunctionOf (denial b) rest = .ok inner ∧ inner.rest = c :: behind ∧
      c.kind = .rightParen ∧ p = ⟨inner.rule, inner.depth, behind⟩) := by
  cases ts with
  | nil => cases budget <;> simp [denial] at h
  | cons t rest =>
    cases budget with
    | zero =>
      unfold denial at h
      split at h
      · simp at h
      · simp at h
      · obtain ⟨⟨c, behind⟩, hc, hp⟩ := ok_of_bind h
        cases hp
        exact .inl ⟨c, behind, hc, rfl⟩
      · simp at h
    | succ b =>
      unfold denial at h
      split at h
      · rename_i hk
        obtain ⟨inner, hi, hgrow⟩ := ok_of_bind h
        obtain ⟨depth, hg, hp⟩ := ok_of_bind hgrow
        obtain ⟨hlt, rfl⟩ := grow_eq_ok_iff.1 hg
        cases hp
        exact .inr (.inl ⟨b, t, rest, inner, rfl, rfl, hk, hi, hlt, rfl⟩)
      · rename_i hk
        obtain ⟨inner, hi, hclose⟩ := ok_of_bind h
        split at hclose
        · simp at hclose
        · rename_i c behind hrest
          split at hclose
          · rename_i hc
            cases hclose
            exact .inr (.inr ⟨b, t, rest, inner, c, behind, rfl, rfl, hk, hi, hrest, hc, rfl⟩)
          · simp at hclose
      · obtain ⟨⟨c, behind⟩, hc, hp⟩ := ok_of_bind h
        cases hp
        exact .inl ⟨c, behind, hc, rfl⟩
      · simp at h

theorem denial_sound (budget : Nat) : ReadsOnly (denial budget) .denial budget := by
  induction budget with
  | zero =>
    intro ts p hq h
    obtain ⟨c, rest, hc, rfl⟩ | ⟨b, _, _, _, hb, _⟩ | ⟨b, _, _, _, _, _, hb, _⟩ := denial_cases h
    · obtain ⟨us, rfl, hus⟩ := comparison_sound hq hc
      exact ⟨us, 0, rfl, Nat.le_refl 0, .primary (.comparison hus), rfl, by simp [maxDepth]⟩
    · omega
    · omega
  | succ budget ih =>
    intro ts p hq h
    obtain ⟨c, rest, hc, rfl⟩ | ⟨b, t, rest, inner, hb, rfl, hk, hi, hlt, rfl⟩ |
      ⟨b, o, rest, inner, c, behind, hb, rfl, ho, hi, hrest, hc, rfl⟩ := denial_cases h
    · obtain ⟨us, rfl, hus⟩ := comparison_sound hq hc
      exact ⟨us, 0, rfl, Nat.zero_le _, .primary (.comparison hus), rfl, by simp [maxDepth]⟩
    · obtain rfl : budget = b := by omega
      obtain ⟨us, n, rfl, hn, hp, hd, -⟩ := ih rest inner (hq.of_sublist (by simp)) hi
      exact ⟨t :: us, n + 1, rfl, by omega, .not hk hp, by simp [depth, hd], hlt⟩
    · obtain rfl : budget = b := by omega
      obtain ⟨us, n, rfl, hn, hp, hd, hm⟩ :=
        disjunctionOf_sound ih rest inner (hq.of_sublist (by simp)) hi
      exact ⟨o :: (us ++ [c]), n + 1, by simp [hrest], by omega,
        .primary (.parentheses ho hp hc), hd, hm⟩

/-! ### Completeness -/

/-- Every tree takes at least one token. -/
def Shrinks (operand : List Token → Except Stuck Parsed) : Prop :=
  ∀ ts p, operand ts = .ok p → p.rest.length < ts.length

theorem links_rest_le {op : Connective} {operand : List Token → Except Stuck Parsed}
    (ho : Shrinks operand) (fuel : Nat) {left p : Parsed}
    (h : links op operand fuel left = .ok p) : p.rest.length ≤ left.rest.length := by
  induction fuel generalizing left with
  | zero =>
    cases h
    exact Nat.le_refl _
  | succ fuel ih =>
    unfold links at h
    split at h
    · cases h
      exact Nat.le_refl _
    · rename_i t tail ht
      split at h
      · obtain ⟨right, hr, hgrow⟩ := ok_of_bind h
        obtain ⟨depth, -, hlinks⟩ := ok_of_bind hgrow
        have hright := ho tail right hr
        have hrest := ih hlinks
        simp only [ht, List.length_cons] at hrest ⊢
        omega
      · cases h
        exact Nat.le_refl _

theorem chain_shrinks {op : Connective} {operand : List Token → Except Stuck Parsed}
    (ho : Shrinks operand) : Shrinks (chain op operand) := by
  intro ts p h
  obtain ⟨first, hf, hl⟩ := ok_of_bind h
  have hfirst := ho ts first hf
  have hrest := links_rest_le ho _ hl
  omega

theorem disjunctionOf_shrinks {denial : List Token → Except Stuck Parsed} (hd : Shrinks denial) :
    Shrinks (disjunctionOf denial) := chain_shrinks (chain_shrinks hd)

theorem comparison_rest_lt {ts rest : List Token} {c : Condition}
    (h : comparison ts = .ok (c, rest)) : rest.length < ts.length := by
  unfold comparison at h
  split at h
  · simp at h
  · split at h
    · split at h
      · simp at h
      · split at h
        · split at h
          · simp at h
          · split at h
            · cases h
              simp only [List.length_cons]
              omega
            · simp at h
        · simp at h
    · simp at h

theorem denial_shrinks (budget : Nat) : Shrinks (denial budget) := by
  induction budget with
  | zero =>
    intro ts p h
    obtain ⟨c, rest, hc, rfl⟩ | ⟨b, _, _, _, hb, _⟩ | ⟨b, _, _, _, _, _, hb, _⟩ := denial_cases h
    · exact comparison_rest_lt hc
    · omega
    · omega
  | succ budget ih =>
    intro ts p h
    obtain ⟨c, rest, hc, rfl⟩ | ⟨b, t, rest, inner, hb, rfl, -, hi, -, rfl⟩ |
      ⟨b, o, rest, inner, c, behind, hb, rfl, -, hi, hrest, -, rfl⟩ := denial_cases h
    · exact comparison_rest_lt hc
    · obtain rfl : budget = b := by omega
      have hinner := ih rest inner hi
      simp only [List.length_cons]
      omega
    · obtain rfl : budget = b := by omega
      have hinner := disjunctionOf_shrinks ih rest inner hi
      simp only [hrest, List.length_cons] at hinner ⊢
      omega

/-- The reader of a category inside so many more parentheses and NOTs. -/
def reader (budget : Nat) : Category → List Token → Except Stuck Parsed
  | .chain .or => chain .or (chain .and (denial budget))
  | .chain .and => chain .and (denial budget)
  | .denial | .primary => denial budget

@[simp] theorem reader_chain (budget : Nat) (op : Connective) :
    reader budget (.chain op) = chain op (reader budget (.operand op)) := by
  cases op <;> rfl

theorem reader_shrinks (budget : Nat) (k : Category) : Shrinks (reader budget k) := by
  cases k with
  | chain op =>
    cases op with
    | and => exact chain_shrinks (denial_shrinks budget)
    | or => exact chain_shrinks (chain_shrinks (denial_shrinks budget))
  | denial => exact denial_shrinks budget
  | primary => exact denial_shrinks budget

/-- How the reader of a category goes on behind a phrase of it: a chain with its further operands. -/
def resume (budget : Nat) : Category → Parsed → Except Stuck Parsed
  | .chain op, p => links op (reader budget (.operand op)) p.rest.length p
  | _, p => .ok p

def Ends (op : Connective) (rest : List Token) : Prop :=
  ∀ t ∈ rest.head?, t.kind ≠ .connective op

/-- The tokens do not go on with a connective that binds tighter than those of the category. -/
def Category.EndsTighter : Category → List Token → Prop
  | .chain .or, rest => Ends .and rest
  | _, _ => True

theorem links_of_ends {op : Connective} {operand : List Token → Except Stuck Parsed} {fuel : Nat}
    {left : Parsed} (h : Ends op left.rest) : links op operand fuel left = .ok left := by
  cases fuel with
  | zero => rfl
  | succ fuel =>
    unfold links
    split
    · rfl
    · rename_i t tail ht
      rw [if_neg (h t (by simp [ht]))]

theorem links_step {op : Connective} {operand : List Token → Except Stuck Parsed} (fuel : Nat)
    {left : Parsed} {t : Token} {tail : List Token} (hr : left.rest = t :: tail)
    (hk : t.kind = .connective op) :
    links op operand (fuel + 1) left = (do
      let right ← operand tail
      let depth ← grow (t :: tail) (max left.depth right.depth)
      links op operand fuel ⟨.join op left.rule right.rule, depth, right.rest⟩) := by
  rw [links]
  simp only [hr, hk, if_true]

/-- More fuel than there are tokens left changes nothing. -/
theorem links_fuel {op : Connective} {operand : List Token → Except Stuck Parsed}
    (ho : Shrinks operand) (fuel : Nat) {left : Parsed} (h : left.rest.length ≤ fuel) :
    links op operand fuel left = links op operand left.rest.length left := by
  induction fuel using Nat.strongRecOn generalizing left with
  | ind fuel ih =>
    cases hr : left.rest with
    | nil => rw [links_of_ends (by simp [Ends, hr]), links_of_ends (by simp [Ends, hr])]
    | cons t tail =>
      by_cases hk : t.kind = .connective op
      · simp only [hr, List.length_cons] at h ⊢
        obtain ⟨fuel, rfl⟩ : ∃ k, fuel = k + 1 := ⟨fuel - 1, by omega⟩
        rw [links_step fuel hr hk, links_step tail.length hr hk]
        cases hright : operand tail with
        | error e => rfl
        | ok right =>
          have hlt := ho tail right hright
          cases hg : grow (t :: tail) (max left.depth right.depth) with
          | error e => simp [bind, Except.bind, hg]
          | ok depth =>
            -- both sides come down to the tokens behind the right operand
            simp only [bind, Except.bind, hg]
            rw [ih fuel (by omega) (by simp only; omega),
              ih tail.length (by omega) (by simp only; omega)]
      · rw [links_of_ends (by simpa [Ends, hr] using hk),
          links_of_ends (by simpa [Ends, hr] using hk)]

theorem links_join {op : Connective} {operand : List Token → Except Stuck Parsed}
    (ho : Shrinks operand) {l r : Rule} {dl dr : Nat} {t : Token} {us rest : List Token}
    (hk : t.kind = .connective op) (hr : operand (us ++ rest) = .ok ⟨r, dr, rest⟩) :
    links op operand (t :: (us ++ rest)).length ⟨l, dl, t :: (us ++ rest)⟩ =
      (grow (t :: (us ++ rest)) (max dl dr)).bind fun depth =>
        links op operand rest.length ⟨.join op l r, depth, rest⟩ := by
  rw [List.length_cons, links_step _ rfl hk, hr]
  cases hg : grow (t :: (us ++ rest)) (max dl dr) with
  | error e => simp [bind, Except.bind, hg]
  | ok depth =>
    simp only [bind, Except.bind, hg]
    exact links_fuel ho _ (by simp)

theorem denial_comparison {ts : List Token} {c : Condition} (h : Comparison ts c)
    (hq : Token.StringsQuoted ts) (budget : Nat) (rest : List Token) :
    denial budget (ts ++ rest) = .ok ⟨.condition c, 1, rest⟩ := by
  have hc := comparison_append h hq rest
  cases h with
  | mk ha hk hl =>
    cases budget <;> simp only [List.cons_append, denial, ha] <;>
      simp only [List.cons_append] at hc <;> rw [hc] <;> rfl

theorem denial_not {t : Token} (hk : t.kind = .not) (budget : Nat) (tail : List Token) :
    denial (budget + 1) (t :: tail) = (denial budget tail).bind fun inner =>
      (grow (t :: tail) inner.depth).bind fun depth =>
        .ok ⟨.not inner.rule, depth, inner.rest⟩ := by
  simp only [denial, hk]
  rfl

theorem denial_parentheses {o c : Token} (ho : o.kind = .leftParen) (hc : c.kind = .rightParen)
    {budget : Nat} {us rest : List Token} {p : Parsed} (hp : p.rest = c :: rest)
    (h : reader budget (.chain .or) us = .ok p) :
    denial (budget + 1) (o :: us) = .ok ⟨p.rule, p.depth, rest⟩ := by
  simp only [reader] at h
  simp only [denial, ho, disjunctionOf, h]
  simp only [bind, Except.bind, hp, hc, if_true]

theorem denial_exhausted {t : Token} (hk : t.kind = .not ∨ t.kind = .leftParen)
    (tail : List Token) : denial 0 (t :: tail) = .error ⟨.lessNesting, tail⟩ := by
  rcases hk with hk | hk <;> simp only [denial, hk]

theorem resume_operand {op : Connective} {rest : List Token}
    (h : (Category.chain op).EndsTighter rest) (budget : Nat) (r : Rule) (d : Nat) :
    resume budget (.operand op) ⟨r, d, rest⟩ = .ok ⟨r, d, rest⟩ := by
  cases op with
  | and => rfl
  | or => exact links_of_ends h

theorem operand_endsTighter (op : Connective) (rest : List Token) :
    (Category.operand op).EndsTighter rest := by
  cases op <;> trivial

theorem chain_endsTighter_cons {op : Connective} {t : Token} (hk : t.kind = .connective op)
    (tail : List Token) : (Category.chain op).EndsTighter (t :: tail) := by
  cases op with
  | and => trivial
  | or =>
    intro u hu
    obtain rfl : t = u := by simpa using hu
    simp [hk]

theorem grow_of_lt {operator : List Token} {depth : Nat} (h : depth < maxDepth) :
    grow operator depth = .ok (depth + 1) := if_pos h

/-- A phrase within the limits is taken off whole, and its reader goes on behind it. -/
theorem reader_phrase {k : Category} {n : Nat} {ts : List Token} {r : Rule} (h : Phrase k n ts r)
    (hq : Token.StringsQuoted ts) (budget : Nat) (hn : n ≤ budget) (hd : r.depth ≤ maxDepth)
    (rest : List Token) (he : k.EndsTighter rest) :
    reader budget k (ts ++ rest) = resume budget k ⟨r, r.depth, rest⟩ := by
  induction h generalizing budget rest with
  | comparison hc => exact denial_comparison hc hq budget rest
  | @parentheses o c n ts r ho hp hc ih =>
    obtain ⟨budget, rfl⟩ : ∃ b, budget = b + 1 := ⟨budget - 1, by omega⟩
    have hends : ∀ op, Ends op (c :: rest) := by
      intro op t ht
      obtain rfl : c = t := by simpa using ht
      simp [hc]
    have hinner := ih (hq.of_sublist (by simp)) budget (Nat.le_of_succ_le_succ hn) hd _ (hends .and)
    rw [resume, links_of_ends (hends .or)] at hinner
    simpa [resume, reader] using denial_parentheses ho hc rfl hinner
  | primary _ ih => exact ih hq budget hn hd rest he
  | @not t n ts r hk hp ih =>
    obtain ⟨budget, rfl⟩ : ∃ b, budget = b + 1 := ⟨budget - 1, by omega⟩
    simp only [depth] at hd
    have hinner := ih (hq.of_sublist (by simp)) budget (Nat.le_of_succ_le_succ hn) (by omega) rest he
    simp only [reader, resume] at hinner
    simp only [reader, List.cons_append]
    rw [denial_not hk, hinner]
    simp only [Except.bind, grow_of_lt hd]
    rfl
  | @operand op n ts r hp ih =>
    have hfirst := ih hq budget hn hd rest (operand_endsTighter op rest)
    rw [resume_operand he] at hfirst
    rw [reader_chain, chain, hfirst]
    rfl
  | @join op t m n ts us l r hl hk hr ihl ihr =>
    simp only [depth] at hd
    have hleft := ihl (hq.of_sublist (by simp)) budget (by omega) (by omega) _
      (chain_endsTighter_cons hk (us ++ rest))
    have hright := ihr (hq.of_sublist (by simp)) budget (by omega) (by omega) rest
      (operand_endsTighter op rest)
    rw [resume_operand he] at hright
    have happ : ts ++ t :: us ++ rest = ts ++ t :: (us ++ rest) := by simp
    rw [happ, hleft, resume]
    rw [links_join (reader_shrinks budget _) hk hright, grow_of_lt (by omega)]
    rfl

theorem grow_of_le {operator : List Token} {depth : Nat} (h : maxDepth ≤ depth) :
    grow operator depth = .error ⟨.lessDepth, operator⟩ := if_neg (Nat.not_lt.2 h)

/-- A phrase beyond one of the limits is not taken off. Within the nesting it is the depth that stops the
reader. -/
theorem reader_phrase_error {k : Category} {n : Nat} {ts : List Token} {r : Rule}
    (h : Phrase k n ts r) (hq : Token.StringsQuoted ts) (budget : Nat)
    (hout : budget < n ∨ maxDepth < r.depth) (rest : List Token) (he : k.EndsTighter rest) :
    ∃ e, reader budget k (ts ++ rest) = .error e ∧
      (e.expected = .lessDepth ∨ budget < n ∧ e.expected = .lessNesting) := by
  induction h generalizing budget rest with
  | comparison hc => simp [depth, maxDepth] at hout
  | @parentheses o c n ts r ho hp hc ih =>
    cases budget with
    | zero => exact ⟨_, denial_exhausted (.inr ho) _, .inr ⟨Nat.succ_pos n, rfl⟩⟩
    | succ budget =>
      have hends : Ends .and (c :: rest) := by
        intro t ht
        obtain rfl : c = t := by simpa using ht
        simp [hc]
      obtain ⟨e, hinner, hlimit⟩ := ih (hq.of_sublist (by simp)) budget (by omega) _ hends
      refine ⟨e, ?_, hlimit.imp_right (And.imp_left Nat.succ_lt_succ)⟩
      simp only [reader] at hinner
      simp only [reader, List.cons_append, List.append_assoc, List.nil_append, denial, ho,
        disjunctionOf, hinner]
      rfl
  | primary _ ih => exact ih hq budget hout rest he
  | @not t n ts r hk hp ih =>
    cases budget with
    | zero => exact ⟨_, denial_exhausted (.inl hk) _, .inr ⟨Nat.succ_pos n, rfl⟩⟩
    | succ budget =>
      simp only [depth] at hout
      simp only [reader, List.cons_append]
      rw [denial_not hk]
      by_cases hin : budget < n ∨ maxDepth < r.depth
      · obtain ⟨e, hinner, hlimit⟩ := ih (hq.of_sublist (by simp)) budget hin rest he
        simp only [reader] at hinner
        exact ⟨e, by rw [hinner]; rfl, hlimit.imp_right (And.imp_left Nat.succ_lt_succ)⟩
      · have hinner := reader_phrase hp (hq.of_sublist (by simp)) budget (by omega) (by omega)
          rest he
        simp only [reader, resume] at hinner
        have hgrow : grow (t :: (ts ++ rest)) r.depth = _ := grow_of_le (by omega)
        rw [hinner]
        simp only [Except.bind, hgrow]
        exact ⟨_, rfl, .inl rfl⟩
  | @operand op n ts r hp ih =>
    obtain ⟨e, hfirst, hlimit⟩ := ih hq budget hout rest (operand_endsTighter op rest)
    exact ⟨e, by rw [reader_chain, chain, hfirst]; rfl, hlimit⟩
  | @join op t m n ts us l r hl hk hr ihl ihr =>
    simp only [depth] at hout
    have happ : ts ++ t :: us ++ rest = ts ++ t :: (us ++ rest) := by simp
    have hends := chain_endsTighter_cons hk (us ++ rest)
    rw [happ]
    by_cases hlout : budget < m ∨ maxDepth < l.depth
    · obtain ⟨e, hleft, hlimit⟩ := ihl (hq.of_sublist (by simp)) budget hlout _ hends
      exact ⟨e, hleft,
        hlimit.imp_right (And.imp_left fun hm => Nat.lt_of_lt_of_le hm (Nat.le_max_left m n))⟩
    · rw [reader_phrase hl (hq.of_sublist (by simp)) budget (by omega) (by omega) _ hends, resume]
      by_cases hrout : budget < n ∨ maxDepth < r.depth
      · obtain ⟨e, hright, hlimit⟩ :=
          ihr (hq.of_sublist (by simp)) budget hrout rest (operand_endsTighter op rest)
        rw [List.length_cons, links_step _ rfl hk, hright]
        exact ⟨e, rfl,
          hlimit.imp_right (And.imp_left fun hn => Nat.lt_of_lt_of_le hn (Nat.le_max_right m n))⟩
      · have hright := reader_phrase hr (hq.of_sublist (by simp)) budget (by omega) (by omega)
          rest (operand_endsTighter op rest)
        rw [resume_operand he] at hright
        rw [links_join (reader_shrinks budget _) hk hright, grow_of_le (by omega)]
        exact ⟨_, rfl, .inl rfl⟩

/-! ### Whole lists of tokens -/

theorem disjunction_eq (budget : Nat) : disjunction budget = reader budget (.chain .or) := rfl

theorem ends_nil (op : Connective) : Ends op [] := by simp [Ends]

@[simp] theorem expected_report (tokens : List Token) (s : Stuck) :
    (s.report tokens).expected = s.expected := by
  unfold Stuck.report
  split <;> rfl

theorem parse_of_spells {ts : List Token} {r : Rule} (hq : Token.StringsQuoted ts)
    (h : Spells ts r) : parse ts = .ok r := by
  obtain ⟨⟨n, hn, hp⟩, hd⟩ := h
  have hread := reader_phrase hp hq maxNesting hn hd [] (ends_nil .and)
  rw [List.append_nil, resume, links_of_ends (ends_nil .or)] at hread
  simp only [parse, disjunction_eq, hread]
  simp [hp.tokens_ne_nil]

theorem spells_of_parse {ts : List Token} {r : Rule} (hq : Token.StringsQuoted ts)
    (h : parse ts = .ok r) : Spells ts r := by
  unfold parse at h
  split at h
  · simp at h
  · split at h
    · simp at h
    · rename_i p hp
      split at h
      · rename_i hrest
        cases h
        obtain ⟨us, n, hts, hn, hphrase, hdepth, hle⟩ :=
          disjunctionOf_sound (denial_sound maxNesting) ts p hq hp
        rw [List.isEmpty_iff.1 hrest, List.append_nil] at hts
        subst hts
        exact ⟨⟨n, hn, hphrase⟩, hdepth ▸ hle⟩
      · simp at h

theorem parse_eq_ok_iff {ts : List Token} {r : Rule} (hq : Token.StringsQuoted ts) :
    parse ts = .ok r ↔ Spells ts r :=
  ⟨spells_of_parse hq, parse_of_spells hq⟩

theorem parse_limit_of_phrase {ts : List Token} {r : Rule} {n : Nat} (hq : Token.StringsQuoted ts)
    (h : Phrase (.chain .or) n ts r) (hout : maxNesting < n ∨ maxDepth < r.depth) :
    ∃ e, parse ts = .error e ∧
      (e.expected = .lessDepth ∨ maxNesting < n ∧ e.expected = .lessNesting) := by
  obtain ⟨s, hs, hlimit⟩ := reader_phrase_error h hq maxNesting hout [] (ends_nil .and)
  rw [List.append_nil] at hs
  refine ⟨s.report ts, ?_, by rwa [expected_report]⟩
  simp only [parse, disjunction_eq, hs]
  simp [h.tokens_ne_nil]

theorem parse_error_of_phrase {ts : List Token} {r : Rule} {n : Nat} (hq : Token.StringsQuoted ts)
    (h : Phrase (.chain .or) n ts r) (hout : maxNesting < n ∨ maxDepth < r.depth) :
    ∃ e, parse ts = .error e ∧ (n ≤ maxNesting → e.expected = .lessDepth) := by
  obtain ⟨e, he, hlimit⟩ := parse_limit_of_phrase hq h hout
  exact ⟨e, he, fun hn => hlimit.resolve_right fun hnesting => Nat.not_lt.2 hn hnesting.1⟩

theorem parseComparison_eq_ok_iff {ts : List Token} {c : Condition}
    (hq : Token.StringsQuoted ts) : parseComparison ts = .ok c ↔ Comparison ts c := by
  constructor
  · intro h
    unfold parseComparison at h
    split at h
    · simp at h
    · rename_i hc
      split at h
      · rename_i hrest
        cases h
        obtain ⟨us, rfl, hus⟩ := comparison_sound hq hc
        rw [List.isEmpty_iff.1 hrest, List.append_nil]
        exact hus
      · simp at h
  · intro h
    have hc := comparison_append h hq []
    rw [List.append_nil] at hc
    simp [parseComparison, hc]

theorem Comparison.spells {ts : List Token} {c : Condition} (h : Comparison ts c) :
    Spells ts (.condition c) :=
  ⟨⟨0, Nat.zero_le _, Phrase.chain_of_denial (.primary (.comparison h))⟩, by
    simp [depth, maxDepth]⟩

/-- Whatever is parsed has the tree of any derivation, be it within the limits or not. -/
theorem eq_of_phrase {ts : List Token} {r s : Rule} {n : Nat} (hq : Token.StringsQuoted ts)
    (h : Phrase (.chain .or) n ts r) (hs : parse ts = .ok s) : s = r := by
  by_cases hout : maxNesting < n ∨ maxDepth < r.depth
  · obtain ⟨e, he, -⟩ := parse_error_of_phrase hq h hout
    rw [he] at hs
    cases hs
  · have hr := parse_of_spells hq ⟨⟨n, by omega, h⟩, by omega⟩
    rw [hr] at hs
    cases hs
    rfl

theorem conditionOfText_eq_ok_iff {t : Text} {c : Condition} :
    Condition.ofText t = .ok c ↔ ∃ ts, Token.tokenize t = .ok ts ∧ Comparison ts c := by
  unfold Condition.ofText
  cases ht : Token.tokenize t with
  | error e => simp
  | ok ts =>
    have hiff := parseComparison_eq_ok_iff (c := c) (Token.stringsQuoted_of_tokenize ht)
    cases hp : parseComparison ts with
    | error e =>
      have hno : ¬ Comparison ts c := fun h => by simpa [hp] using hiff.2 h
      simp [hp, hno]
    | ok d =>
      rw [hp] at hiff
      simpa [hp] using hiff

theorem ofText_eq_ok_iff {t : Text} {r : Rule} :
    Rule.ofText t = .ok r ↔ ∃ ts, Token.tokenize t = .ok ts ∧ Spells ts r := by
  unfold Rule.ofText
  cases ht : Token.tokenize t with
  | error e => simp
  | ok ts =>
    have hiff := parse_eq_ok_iff (r := r) (Token.stringsQuoted_of_tokenize ht)
    cases hp : parse ts with
    | error e =>
      have hno : ¬ Spells ts r := fun h => by simpa [hp] using hiff.2 h
      simp [hp, hno]
    | ok s =>
      rw [hp] at hiff
      simpa [hp] using hiff

/-- The readers accept the sentences of the grammar within the limits, each with its one tree, and a text
that is a single comparison reads as that comparison. OR joins conjunctions, and AND joins denials. -/
theorem parse_eq_ok_iff_spells :
    (∀ ts, Token.StringsQuoted ts → ∀ r, parse ts = .ok r ↔ Spells ts r) ∧
    (∀ ts, Token.StringsQuoted ts → ∀ r s, Spells ts r → Spells ts s → r = s) ∧
    (∀ (o a n : Token) (k l m : Nat) (xs ys zs : List Token) (x y z r : Rule),
      o.kind = .connective .or → a.kind = .connective .and → n.kind = .not →
      Phrase .denial k xs x → Phrase .denial l ys y → Phrase .denial m zs z →
      Token.StringsQuoted (n :: (xs ++ a :: ys ++ o :: zs)) →
      (parse (xs ++ a :: ys ++ o :: zs) = .ok r → r = .join .or (.join .and x y) z) ∧
      (parse (zs ++ o :: (xs ++ a :: ys)) = .ok r → r = .join .or z (.join .and x y)) ∧
      (parse (n :: (xs ++ a :: ys)) = .ok r → r = .join .and (.not x) y)) ∧
    (∀ t c, Condition.ofText t = .ok c ↔ ∃ ts, Token.tokenize t = .ok ts ∧ Comparison ts c) ∧
    (∀ t c, Condition.ofText t = .ok c → Rule.ofText t = .ok (.condition c)) := by
  refine ⟨fun ts hq r => parse_eq_ok_iff hq, ?_, ?_, fun t c => conditionOfText_eq_ok_iff, ?_⟩
  · intro ts hq r s hr hs
    have hparse := parse_of_spells hq hr
    rw [parse_of_spells hq hs] at hparse
    exact (Except.ok.inj hparse).symm
  · intro o a n k l m xs ys zs x y z r ho ha hn hx hy hz hq
    have hand : Phrase (.chain .and) (max k l) (xs ++ a :: ys) (.join .and x y) :=
      .join (.operand hx) ha hy
    refine ⟨?_, ?_, ?_⟩
    · exact eq_of_phrase (hq.of_sublist (by simp)) (.join (.operand hand) ho (.operand hz))
    · refine eq_of_phrase ?_ (.join (Phrase.chain_of_denial hz) ho hand)
      intro t ht
      simp only [List.mem_append, List.mem_cons] at ht
      obtain ht | ht | ht | ht | ht := ht <;> exact hq t (by simp [ht])
    · have hnot : Phrase (.chain .and) (max (k + 1) l) (n :: xs ++ a :: ys)
          (.join .and (.not x) y) := .join (.operand (.not hn hx)) ha hy
      exact eq_of_phrase (hq.of_sublist (by simp)) (.operand hnot)
  · intro t c hc
    obtain ⟨ts, ht, hts⟩ := conditionOfText_eq_ok_iff.1 hc
    exact ofText_eq_ok_iff.2 ⟨ts, ht, hts.spells⟩

/-- Three comparisons under NOT, AND and OR, and the text of one of them. -/
theorem parse_eq_ok_iff_spells_sample :
    let leaf (name : Char) (offset : Nat) : List Token := [⟨.identifier, [name], offset⟩,
      ⟨.comparator .equal, ['='], offset + 1⟩, ⟨.string, ['\'', name, '\''], offset + 2⟩]
    let tree (name : Char) : Rule := .condition ⟨[name], .equal, .string [name]⟩
    let deny : Token := ⟨.not, "not".toList, 0⟩
    let also : Token := ⟨.connective .and, "and".toList, 10⟩
    let otherwise : Token := ⟨.connective .or, "or".toList, 20⟩
    Token.StringsQuoted (deny :: (leaf 'a' 4 ++ also :: leaf 'b' 14 ++ otherwise :: leaf 'c' 23)) ∧
      Spells (leaf 'a' 4) (tree 'a') ∧
      parse (leaf 'a' 4 ++ also :: leaf 'b' 14 ++ otherwise :: leaf 'c' 23) =
        .ok (.join .or (.join .and (tree 'a') (tree 'b')) (tree 'c')) ∧
      Comparison (leaf 'a' 0) ⟨['a'], .equal, .string ['a']⟩ ∧
      Rule.ofText "a='a'".toList = .ok (tree 'a') := by
  intro leaf tree deny also otherwise
  obtain ⟨hiff, -, hbinds, hcondition, hrule⟩ := parse_eq_ok_iff_spells
  have hq : Token.StringsQuoted
      (deny :: (leaf 'a' 4 ++ also :: leaf 'b' 14 ++ otherwise :: leaf 'c' 23)) :=
    Token.stringsQuoted_of_tokenize (t := "not a='a' and b='b' or c='c'".toList) rfl
  have hphrase (name : Char) (offset : Nat) (h : name ≠ '\'') :
      Phrase .denial 0 (leaf name offset) (tree name) :=
    .primary (.comparison (.mk rfl rfl (.string rfl ⟨'\'', .inl rfl, by simpa using h.symm, rfl⟩)))
  have ha : Token.StringsQuoted (leaf 'a' 4) := hq.of_sublist (by simp)
  have hspells := (hiff (leaf 'a' 4) ha (tree 'a')).1 rfl
  have hpa := hphrase 'a' 4 (by decide)
  have hpb := hphrase 'b' 14 (by decide)
  have hpc := hphrase 'c' 23 (by decide)
  have htext : Condition.ofText "a='a'".toList = .ok ⟨['a'], .equal, .string ['a']⟩ := rfl
  obtain ⟨ts, hts, hcomparison⟩ := (hcondition _ _).1 htext
  obtain rfl : leaf 'a' 0 = ts := Except.ok.inj hts
  obtain ⟨r, hr⟩ : ∃ r, parse (leaf 'a' 4 ++ also :: leaf 'b' 14 ++ otherwise :: leaf 'c' 23) =
      .ok r := ⟨_, rfl⟩
  have htree := (hbinds otherwise also deny 0 0 0 _ _ _ _ _ _ r rfl rfl rfl hpa hpb hpc hq).1 hr
  exact ⟨hq, hspells, htree ▸ hr, hcomparison, hrule _ _ htext⟩

end Rulebook.Rule
