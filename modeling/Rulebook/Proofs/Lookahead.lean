import Rulebook.Proofs.Parsing
set_option autoImplicit false

/-!
How far the readers look. A reader stops somewhere in its tokens, with a tree or stuck. The tokens that it
took and the first one that it left decide the outcome, whatever stands behind, unless it stopped at one
of the limits.
-/

namespace Rulebook

/-- The two limits, against which tokens can run that the grammar allows. -/
def Expected.isLimit : Expected → Bool
  | .lessNesting | .lessDepth => true
  | _ => false

namespace Rule

/-- The tokens that a reader left. -/
def left : Except Stuck Parsed → List Token
  | .ok p => p.rest
  | .error s => s.rest

/-- The same outcome before other tokens. -/
def before (rest : List Token) : Except Stuck Parsed → Except Stuck Parsed
  | .ok p => .ok { p with rest := rest }
  | .error s => .error { s with rest := rest }

def Settled : Except Stuck Parsed → Prop
  | .ok _ => True
  | .error s => s.expected.isLimit = false

@[simp] theorem left_before (rest : List Token) (x : Except Stuck Parsed) :
    left (before rest x) = rest := by
  cases x <;> rfl

@[simp] theorem before_before (rest more : List Token) (x : Except Stuck Parsed) :
    before more (before rest x) = before more x := by
  cases x <;> rfl

/-- A reader takes some of the tokens off, and does the same before any others that begin alike. The limit
of depth is told at an operator but depends on the operand behind it, so at a limit only the place is asked.
-/
def Stops (operand : List Token → Except Stuck Parsed) (ts : List Token) : Prop :=
  ∃ us, ts = us ++ left (operand ts) ∧
    (Settled (operand ts) → ∀ more, more.head? = (left (operand ts)).head? →
      operand (us ++ more) = before more (operand ts))

section

variable {operand whole : List Token → Except Stuck Parsed} {x : Except Stuck Parsed}

theorem stops_of_head {us rest : List Token}
    (h : ∀ more, more.head? = rest.head? → operand (us ++ more) = before more x) :
    Stops operand (us ++ rest) := by
  have hrest := h rest rfl
  refine ⟨us, by rw [hrest, left_before], fun _ more hmore => ?_⟩
  rw [hrest, left_before] at hmore
  rw [hrest, before_before, h more hmore]

theorem stops_anywhere (us : List Token) (h : ∀ more, operand (us ++ more) = before more x)
    (rest : List Token) : Stops operand (us ++ rest) := stops_of_head fun more _ => h more

theorem stops_at (us : List Token) {t : Token}
    (h : ∀ tail, operand (us ++ t :: tail) = before (t :: tail) x) (rest : List Token) :
    Stops operand (us ++ t :: rest) := by
  refine stops_of_head (x := x) fun more hmore => ?_
  obtain ⟨tail, rfl⟩ := List.head?_eq_some_iff.1 hmore
  exact h tail

theorem stops_at_end {us : List Token} (h : operand us = before [] x) : Stops operand us := by
  have hnil : Stops operand (us ++ []) := by
    refine stops_of_head (x := x) fun more hmore => ?_
    obtain rfl := List.head?_eq_none_iff.1 hmore
    rw [List.append_nil]
    exact h
  rwa [List.append_nil] at hnil

theorem stops_of_limit {ts : List Token} {s : Stuck} (h : operand ts = .error s)
    (hlimit : s.expected.isLimit = true) (hsuffix : s.rest <:+ ts) : Stops operand ts := by
  obtain ⟨us, rfl⟩ := hsuffix
  refine ⟨us, by rw [h]; rfl, fun hsettled => ?_⟩
  rw [h] at hsettled
  exact absurd hlimit (Bool.eq_false_iff.1 hsettled)

theorem Stops.cons {t : Token} {ts : List Token}
    (h : Stops (fun us => operand (t :: us)) ts) : Stops operand (t :: ts) := by
  obtain ⟨us, hts, hlocal⟩ := h
  exact ⟨t :: us, by rw [List.cons_append, ← hts], hlocal⟩

/-- A reader that is stuck where its first part is. -/
theorem Stops.of_error {ts : List Token} {s : Stuck} (h : Stops operand ts)
    (hs : operand ts = .error s)
    (herror : ∀ us r, operand us = .error r → whole us = .error r) : Stops whole ts := by
  obtain ⟨us, hts, hlocal⟩ := h
  have hwhole := herror ts s hs
  rw [hs] at hts hlocal
  refine ⟨us, by rw [hwhole]; exact hts, ?_⟩
  rw [hwhole]
  exact fun hsettled more hmore => herror _ _ (hlocal hsettled more hmore)

/-- A reader that goes on behind its first part. -/
theorem Stops.of_ok {f : Parsed → Except Stuck Parsed} {ts : List Token} {p : Parsed}
    (h : Stops operand ts) (hp : operand ts = .ok p)
    (hok : ∀ us rest, operand us = .ok { p with rest := rest } →
      whole us = f { p with rest := rest })
    (hnext : Stops (fun rest => f { p with rest := rest }) p.rest) : Stops whole ts := by
  obtain ⟨us, hts, hlocal⟩ := h
  obtain ⟨vs, hrest, hlocal'⟩ := hnext
  have hwhole : whole ts = f p := hok ts p.rest hp
  rw [hp] at hts hlocal
  replace hts : ts = us ++ p.rest := hts
  replace hrest : p.rest = vs ++ left (f p) := hrest
  refine ⟨us ++ vs, by rw [hwhole, List.append_assoc, ← hrest, hts], ?_⟩
  rw [hwhole]
  intro hsettled more hmore
  -- the first part sees the beginning of what the second takes
  have hhead : (vs ++ more).head? = p.rest.head? := by
    rw [hrest, List.head?_append, List.head?_append, hmore]
  rw [List.append_assoc, hok _ _ (hlocal trivial _ hhead)]
  exact hlocal' hsettled more hmore

end

/-- A comparison as the tree that it is. -/
def leaf (ts : List Token) : Except Stuck Parsed := do
  let (c, rest) ← comparison ts
  .ok ⟨.condition c, 1, rest⟩

theorem stops_leaf {a : Token} (ha : a.kind = .identifier) (rest : List Token) :
    Stops (fun ts => leaf (a :: ts)) rest := by
  cases rest with
  | nil =>
    refine stops_at_end (x := .error ⟨.comparator, []⟩) ?_
    simp only [leaf, comparison, ha, if_true]
    rfl
  | cons c rest =>
    cases hc : c.kind with
    | comparator k =>
      cases rest with
      | nil =>
        refine stops_at_end (x := .error ⟨.literal, []⟩) ?_
        simp only [leaf, comparison, ha, hc, if_true]
        rfl
      | cons l rest =>
        cases hl : literalOf l with
        | ok value =>
          refine stops_anywhere [c, l] (x := .ok ⟨.condition ⟨a.text, k, value⟩, 1, []⟩)
            (fun more => ?_) rest
          simp only [leaf, comparison, List.cons_append, List.nil_append, ha, hc, hl, if_true]
          rfl
        | error e =>
          refine stops_at [c] (x := .error ⟨e, []⟩) (fun tail => ?_) rest
          simp only [leaf, comparison, List.cons_append, List.nil_append, ha, hc, hl, if_true]
          rfl
    | _ =>
      refine stops_at [] (x := .error ⟨.comparator, []⟩) (fun tail => ?_) rest
      simp only [leaf, comparison, List.nil_append, ha, hc, if_true]
      rfl

/-! ### Chains -/

section

variable {op : Connective} {operand : List Token → Except Stuck Parsed}

/-- The links of a chain before other tokens. -/
def linksBefore (op : Connective) (operand : List Token → Except Stuck Parsed) (p : Parsed)
    (rest : List Token) : Except Stuck Parsed :=
  links op operand rest.length { p with rest := rest }

theorem linksBefore_cons {p right : Parsed} {t : Token} {tail : List Token}
    (ho : Shrinks operand) (hk : t.kind = .connective op) (hr : operand tail = .ok right)
    (hd : max p.depth right.depth < maxDepth) :
    linksBefore op operand p (t :: tail) =
      linksBefore op operand
        ⟨.join op p.rule right.rule, max p.depth right.depth + 1, right.rest⟩ right.rest := by
  have hshort := ho tail right hr
  rw [linksBefore, List.length_cons, links_step tail.length rfl hk, hr]
  simp only [bind, Except.bind, grow_of_lt hd]
  exact links_fuel ho _ (Nat.le_of_lt hshort)

theorem linksBefore_error {p : Parsed} {t : Token} {tail : List Token} {s : Stuck}
    (hk : t.kind = .connective op) (hs : operand tail = .error s) :
    linksBefore op operand p (t :: tail) = .error s := by
  rw [linksBefore, List.length_cons, links_step tail.length rfl hk, hs]
  rfl

theorem linksBefore_deep {p right : Parsed} {t : Token} {tail : List Token}
    (hk : t.kind = .connective op) (hr : operand tail = .ok right)
    (hd : maxDepth ≤ max p.depth right.depth) :
    linksBefore op operand p (t :: tail) = .error ⟨.lessDepth, t :: tail⟩ := by
  rw [linksBefore, List.length_cons, links_step tail.length rfl hk, hr]
  simp only [bind, Except.bind, grow_of_le hd]

theorem stops_linksBefore (ho : Shrinks operand) (hs : ∀ ts, Stops operand ts) (p : Parsed)
    (rest : List Token) : Stops (linksBefore op operand p) rest := by
  induction hn : rest.length using Nat.strongRecOn generalizing p rest with
  | ind n ih =>
    cases rest with
    | nil => exact stops_at_end (x := .ok p) rfl
    | cons t tail =>
      by_cases hk : t.kind = .connective op
      · cases hr : operand tail with
        | error s => exact .cons ((hs tail).of_error hr fun us r => linksBefore_error hk)
        | ok right =>
          by_cases hd : max p.depth right.depth < maxDepth
          · refine .cons ((hs tail).of_ok hr (f := fun q => linksBefore op operand
              ⟨.join op p.rule q.rule, max p.depth q.depth + 1, q.rest⟩ q.rest)
              (fun us rest hus => linksBefore_cons ho hk hus hd) ?_)
            have hshort := ho tail right hr
            rw [List.length_cons] at hn
            exact ih right.rest.length (by omega) _ right.rest rfl
          · have hdeep := linksBefore_deep hk hr (Nat.not_lt.1 hd)
            exact stops_of_limit hdeep rfl (List.suffix_refl _)
      · refine stops_at [] (x := .ok p) (fun tail => ?_) tail
        exact links_of_ends (by simpa [Ends] using hk)

theorem stops_chain (ho : Shrinks operand) (hs : ∀ ts, Stops operand ts) (ts : List Token) :
    Stops (chain op operand) ts := by
  cases hf : operand ts with
  | error s =>
    refine (hs ts).of_error hf fun us r hr => ?_
    rw [chain, hr]
    rfl
  | ok first =>
    refine (hs ts).of_ok hf (f := fun p => linksBefore op operand p p.rest) ?_
      (stops_linksBefore ho hs first first.rest)
    intro us rest hus
    rw [chain, hus]
    rfl

end

theorem stops_disjunctionOf {denial : List Token → Except Stuck Parsed} (hd : Shrinks denial)
    (hs : ∀ ts, Stops denial ts) (ts : List Token) : Stops (disjunctionOf denial) ts :=
  stops_chain (chain_shrinks hd) (stops_chain hd hs) ts

/-! ### Denials -/

/-- Induction on the budget along the tokens with which a denial can begin. -/
theorem denial_induction {P : Nat → List Token → Prop} (nil : ∀ budget, P budget [])
    (exhausted : ∀ t tail, t.kind = .not ∨ t.kind = .leftParen → P 0 (t :: tail))
    (not : ∀ budget t tail, t.kind = .not → (∀ ts, P budget ts) → P (budget + 1) (t :: tail))
    (parentheses : ∀ budget t tail, t.kind = .leftParen → (∀ ts, P budget ts) →
      P (budget + 1) (t :: tail))
    (other : ∀ budget t tail, t.kind ≠ .not → t.kind ≠ .leftParen → P budget (t :: tail))
    (budget : Nat) (ts : List Token) : P budget ts := by
  induction budget generalizing ts with
  | zero =>
    cases ts with
    | nil => exact nil 0
    | cons t tail =>
      by_cases hk : t.kind = .not ∨ t.kind = .leftParen
      · exact exhausted t tail hk
      · exact other 0 t tail (fun h => hk (.inl h)) (fun h => hk (.inr h))
  | succ budget ih =>
    cases ts with
    | nil => exact nil (budget + 1)
    | cons t tail =>
      by_cases hnot : t.kind = .not
      · exact not budget t tail hnot ih
      by_cases hparen : t.kind = .leftParen
      · exact parentheses budget t tail hparen ih
      · exact other (budget + 1) t tail hnot hparen

theorem denial_nil (budget : Nat) : denial budget [] = .error ⟨.operand, []⟩ := by
  cases budget <;> rfl

theorem denial_identifier {t : Token} (hk : t.kind = .identifier) (budget : Nat)
    (rest : List Token) : denial budget (t :: rest) = leaf (t :: rest) := by
  cases budget <;> simp only [denial, hk] <;> rfl

/-- What closes the parentheses around a tree. -/
def close (inner : Parsed) : Except Stuck Parsed :=
  match inner.rest with
  | [] => .error ⟨.rightParen, []⟩
  | t :: behind =>
    if t.kind = .rightParen then .ok { inner with rest := behind }
    else .error ⟨.rightParen, t :: behind⟩

theorem denial_leftParen {t : Token} (hk : t.kind = .leftParen) (budget : Nat)
    (rest : List Token) :
    denial (budget + 1) (t :: rest) = disjunctionOf (denial budget) rest >>= close := by
  simp only [denial, hk]
  rfl

theorem stops_close (p : Parsed) (rest : List Token) :
    Stops (fun rest => close { p with rest := rest }) rest := by
  cases rest with
  | nil => exact stops_at_end (x := .error ⟨.rightParen, []⟩) rfl
  | cons t behind =>
    by_cases hk : t.kind = .rightParen
    · refine stops_anywhere [t] (x := .ok p) (fun more => ?_) behind
      simp only [close, List.cons_append, List.nil_append, if_pos hk]
      rfl
    · refine stops_at [] (x := .error ⟨.rightParen, []⟩) (fun tail => ?_) behind
      simp only [close, List.nil_append, if_neg hk]
      rfl

/-- No denial begins with a token of any other kind. -/
theorem denial_stray {t : Token} (hname : t.kind ≠ .identifier) (hnot : t.kind ≠ .not)
    (hparen : t.kind ≠ .leftParen) (budget : Nat) (rest : List Token) :
    denial budget (t :: rest) = .error ⟨.operand, t :: rest⟩ := by
  cases budget <;> unfold denial <;> split <;> first | contradiction | rfl

theorem denial_not_ok {t : Token} {inner : Parsed} {budget : Nat} {tail : List Token}
    (hk : t.kind = .not) (hi : denial budget tail = .ok inner) (hd : inner.depth < maxDepth) :
    denial (budget + 1) (t :: tail) = .ok ⟨.not inner.rule, inner.depth + 1, inner.rest⟩ := by
  rw [denial_not hk, hi]
  simp only [Except.bind, grow_of_lt hd]

theorem denial_not_deep {t : Token} {inner : Parsed} {budget : Nat} {tail : List Token}
    (hk : t.kind = .not) (hi : denial budget tail = .ok inner) (hd : maxDepth ≤ inner.depth) :
    denial (budget + 1) (t :: tail) = .error ⟨.lessDepth, t :: tail⟩ := by
  rw [denial_not hk, hi]
  simp only [Except.bind, grow_of_le hd]

section

variable {budget : Nat} {t : Token} (hs : ∀ ts, Stops (denial budget) ts)
include hs

theorem stops_not (hk : t.kind = .not) (tail : List Token) :
    Stops (denial (budget + 1)) (t :: tail) := by
  cases hi : denial budget tail with
  | error s =>
    refine .cons ((hs tail).of_error hi fun us r hr => ?_)
    rw [denial_not hk, hr]
    rfl
  | ok inner =>
    by_cases hd : inner.depth < maxDepth
    · exact .cons ((hs tail).of_ok hi (f := fun p => .ok ⟨.not p.rule, p.depth + 1, p.rest⟩)
        (fun us rest hus => denial_not_ok hk hus hd)
        (stops_anywhere [] (x := .ok ⟨.not inner.rule, inner.depth + 1, []⟩) (fun _ => rfl) _))
    · exact stops_of_limit (denial_not_deep hk hi (Nat.not_lt.1 hd)) rfl (List.suffix_refl _)

theorem stops_parentheses (hk : t.kind = .leftParen) (tail : List Token) :
    Stops (denial (budget + 1)) (t :: tail) := by
  have hor := stops_disjunctionOf (denial_shrinks budget) hs tail
  cases hi : disjunctionOf (denial budget) tail with
  | error s =>
    refine .cons (hor.of_error hi fun us r hr => ?_)
    rw [denial_leftParen hk, hr]
    rfl
  | ok inner =>
    refine .cons (hor.of_ok hi (f := close) (fun us rest hus => ?_)
      (stops_close inner inner.rest))
    rw [denial_leftParen hk, hus]
    rfl

end

theorem stops_of_other {t : Token} (hnot : t.kind ≠ .not) (hparen : t.kind ≠ .leftParen)
    (budget : Nat) (tail : List Token) : Stops (denial budget) (t :: tail) := by
  by_cases hk : t.kind = .identifier
  · refine .cons ?_
    simp only [denial_identifier hk]
    exact stops_leaf hk tail
  · exact stops_at [] (x := .error ⟨.operand, []⟩) (denial_stray hk hnot hparen budget) tail

theorem stops_denial (budget : Nat) (ts : List Token) : Stops (denial budget) ts := by
  induction budget, ts using denial_induction with
  | nil budget => exact stops_at_end (x := .error ⟨.operand, []⟩) (denial_nil budget)
  | exhausted t tail hk =>
    exact stops_of_limit (denial_exhausted hk tail) rfl (List.suffix_cons t tail)
  | not budget t tail hk ih => exact stops_not ih hk tail
  | parentheses budget t tail hk ih => exact stops_parentheses ih hk tail
  | other budget t tail hnot hparen => exact stops_of_other hnot hparen budget tail

theorem stops_disjunction (budget : Nat) (ts : List Token) : Stops (disjunction budget) ts :=
  stops_disjunctionOf (denial_shrinks budget) (stops_denial budget) ts

end Rule
end Rulebook
