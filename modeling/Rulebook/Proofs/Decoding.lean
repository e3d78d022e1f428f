import Rulebook.Proofs.WireFormat
set_option autoImplicit false

/-!
What decoding accepts, and what becomes of it. A wire tree is decoded exactly if it has no more levels than
a rule may have and each of its nodes is sound by itself. The rule that it is decoded to is encoded to the
same tree again, but for the spelling of comparisons and of the operators that are known.
-/

namespace Rulebook

/-! ### Words in any case -/

namespace Text

/-- The letters of the known operators. -/
def operatorLetters : Text := ['A', 'N', 'D', 'O', 'R', 'T']

theorem toUpper_eq_iff {c u : Char} (hu : u ∈ operatorLetters) :
    c.toUpper = u ↔ c.toLower = u.toLower := by
  by_cases hc : c.toNat < 128
  · have hsmall : operatorLetters.all fun u => decide (c.toUpper = u ↔ c.toLower = u.toLower) :=
      Token.ascii_of_forall (P := fun c => operatorLetters.all fun u =>
        decide (c.toUpper = u ↔ c.toLower = u.toLower)) (by decide) hc
    exact of_decide_eq_true (List.all_eq_true.1 hsmall u hu)
  · have hsmall : operatorLetters.all fun u => decide (u.toNat < 128 ∧ u.toLower.toNat < 128) := by
      decide
    obtain ⟨hlt, hlow⟩ := of_decide_eq_true (List.all_eq_true.1 hsmall u hu)
    rw [toUpper_of_le (Nat.not_lt.1 hc), toLower_of_le (Nat.not_lt.1 hc)]
    exact iff_of_false (fun he => hc (he ▸ hlt)) (fun he => hc (he ▸ hlow))

theorem upper_eq_iff {t w : Text} (hw : w.all operatorLetters.contains = true) :
    t.upper = w ↔ sameWord t w = true := by
  rw [sameWord, beq_iff_eq, upper, lower, lower]
  induction w generalizing t with
  | nil => simp
  | cons u w ih =>
    rw [List.all_cons, Bool.and_eq_true, List.contains_iff_mem] at hw
    cases t with
    | nil => simp
    | cons c t => simp only [List.map_cons, List.cons.injEq, toUpper_eq_iff hw.1, ih hw.2]

end Text

namespace Wire

open Rule (maxDepth)

/-! ### Nodes and their spelling -/

def left? : Wire → Option Wire
  | bare _ | onRight _ _ => none
  | onLeft _ l | both _ l _ => some l

def right? : Wire → Option Wire
  | bare _ | onLeft _ _ => none
  | onRight _ r | both _ _ r => some r

/-- All nodes, each with what is below it. -/
def subtrees : Wire → List Wire
  | bare s => [bare s]
  | onLeft s l => onLeft s l :: l.subtrees
  | onRight s r => onRight s r :: r.subtrees
  | both s l r => both s l r :: (l.subtrees ++ r.subtrees)

/-- The tokens of the text are a name, a comparator and a literal, which make this comparison. -/
def Compares (value : Text) (c : Condition) : Prop :=
  ∃ tokens, Token.tokenize value = .ok tokens ∧ Rule.Comparison tokens c

/-- The text of an operator without the blanks around it, in upper case. -/
def wordOf (value : Text) : Text := value.trim.upper

def denialWord : Text := "NOT".toList

/-- What a node must be by itself. Operators with another word may have any children. -/
structure Sound (w : Wire) : Prop where
  operand : w.label.type = .operand →
    w.left? = none ∧ w.right? = none ∧ ∃ c, Compares w.label.value c
  join : w.label.type = .operator → ∀ op : Connective, wordOf w.label.value = op.word →
    w.left?.isSome ∧ w.right?.isSome
  denial : w.label.type = .operator → wordOf w.label.value = denialWord →
    w.left?.isSome ∧ w.right? = none

/-- The word stands for a connective or for the denial. -/
def Known (word : Text) : Prop := (∃ op : Connective, word = op.word) ∨ word = denialWord

/-- A label and the same in canonical spelling: a comparison as it is printed, a known operator as its word,
and any other one as it is. -/
inductive Label.Respells : Label → Label → Prop
  | operand {value : Text} {c : Condition} : Compares value c →
      Respells ⟨.operand, value⟩ ⟨.operand, c.text⟩
  | known {value : Text} : Known (wordOf value) →
      Respells ⟨.operator, value⟩ ⟨.operator, wordOf value⟩
  | foreign {value : Text} : ¬Known (wordOf value) →
      Respells ⟨.operator, value⟩ ⟨.operator, value⟩

/-- The same tree, with each label in canonical spelling. -/
inductive Respells : Wire → Wire → Prop
  | bare {s s' : Label} : s.Respells s' → Respells (bare s) (bare s')
  | onLeft {s s' : Label} {l l' : Wire} : s.Respells s' → Respells l l' →
      Respells (onLeft s l) (onLeft s' l')
  | onRight {s s' : Label} {r r' : Wire} : s.Respells s' → Respells r r' →
      Respells (onRight s r) (onRight s' r')
  | both {s s' : Label} {l l' r r' : Wire} : s.Respells s' → Respells l l' → Respells r r' →
      Respells (both s l r) (both s' l' r')

/-! ### Nodes and their children -/

variable {s s' : Label} {value : Text} {left right left' right' : Option Wire} {level : Nat}

@[simp] theorem left?_node (s : Label) (left right : Option Wire) :
    (node s left right).left? = left := by
  cases left <;> cases right <;> rfl

@[simp] theorem right?_node (s : Label) (left right : Option Wire) :
    (node s left right).right? = right := by
  cases left <;> cases right <;> rfl

theorem node_induction {P : Wire → Prop}
    (h : ∀ s left right, (∀ w ∈ left, P w) → (∀ w ∈ right, P w) → P (node s left right)) (w : Wire) :
    P w := by
  induction w with
  | bare s => exact h s none none (by simp) (by simp)
  | onLeft s l ih => exact h s (some l) none (by simpa using ih) (by simp)
  | onRight s r ih => exact h s none (some r) (by simp) (by simpa using ih)
  | both s l r ihl ihr => exact h s (some l) (some r) (by simpa using ihl) (by simpa using ihr)

theorem add_levels_node (s : Label) (left right : Option Wire) (level room : Nat) :
    level + (node s left right).levels ≤ room + 1 ↔
      level ≤ room ∧ (∀ w ∈ left, level + 1 + w.levels ≤ room + 1) ∧
        ∀ w ∈ right, level + 1 + w.levels ≤ room + 1 := by
  cases left <;> cases right <;> simp only [node, levels, Option.mem_def, reduceCtorEq,
    Option.some.injEq, false_imp_iff, implies_true, forall_eq', and_true, true_and]
  all_goals omega

theorem forall_subtrees_node {P : Wire → Prop} :
    (∀ n ∈ (node s left right).subtrees, P n) ↔
      P (node s left right) ∧ (∀ w ∈ left, ∀ n ∈ w.subtrees, P n) ∧
        ∀ w ∈ right, ∀ n ∈ w.subtrees, P n := by
  cases left <;> cases right <;> simp [node, subtrees, or_imp, forall_and]

theorem Respells.node (hs : s.Respells s') (hl : Option.Rel Respells left left')
    (hr : Option.Rel Respells right right') : Respells (node s left right) (Wire.node s' left' right') := by
  cases hl with
  | none =>
    cases hr with
    | none => exact .bare hs
    | some hr => exact .onRight hs hr
  | some hl =>
    cases hr with
    | none => exact .onLeft hs hl
    | some hr => exact .both hs hl hr

theorem mapM_eq_ok_iff {f : Wire → Except Error Rule} {child : Option Wire} {decoded : Option Rule} :
    child.mapM f = .ok decoded ↔ Option.Rel (fun w r => f w = .ok r) child decoded := by
  cases child with
  | none =>
    constructor
    · intro h
      cases h
      exact .none
    · intro h
      cases h
      rfl
  | some w =>
    constructor
    · intro h
      cases hw : f w with
      | error e => simp [hw] at h
      | ok r =>
        simp [hw] at h
        subst h
        exact .some hw
    · intro h
      cases h with
      | some hw => simp [hw]

/-! ### What operators stand for -/

theorem word_inj {op op' : Connective} : op.word = op'.word ↔ op = op' := by
  cases op <;> cases op' <;> decide

theorem word_ne_denialWord (op : Connective) : op.word ≠ denialWord := by
  cases op <;> decide

theorem wordOf_eq_iff {w : Text} (hw : w.all Text.operatorLetters.contains = true) :
    Text.sameWord value.trim w = true ↔ wordOf value = w := (Text.upper_eq_iff hw).symm

/-- An operator is known by its word. -/
theorem meaning_cases (value : Text) :
    (∃ op : Connective, wordOf value = op.word ∧ meaning value = .connective op) ∨
      (wordOf value = denialWord ∧ meaning value = .denial) ∨
      (¬Known (wordOf value) ∧ meaning value = .foreign) := by
  have hand : Text.sameWord value.trim "AND".toList = true ↔ wordOf value = Connective.and.word :=
    wordOf_eq_iff (by decide)
  have hor : Text.sameWord value.trim "OR".toList = true ↔ wordOf value = Connective.or.word :=
    wordOf_eq_iff (by decide)
  have hnot : Text.sameWord value.trim "NOT".toList = true ↔ wordOf value = denialWord :=
    wordOf_eq_iff (by decide)
  simp only [meaning, hand, hor, hnot]
  split
  · rename_i h
    exact .inl ⟨.and, h, rfl⟩
  · split
    · rename_i h
      exact .inl ⟨.or, h, rfl⟩
    · split
      · rename_i h
        exact .inr (.inl ⟨h, rfl⟩)
      · refine .inr (.inr ⟨?_, rfl⟩)
        rintro (⟨_ | _, h⟩ | h) <;> contradiction

/-- Children fit an operator if a connective has both and a denial the left one alone. -/
theorem exists_assemble_iff {l r : Option Rule} :
    (∃ t, assemble value l r = .ok t) ↔
      (∀ op : Connective, wordOf value = op.word → l.isSome ∧ r.isSome) ∧
        (wordOf value = denialWord → l.isSome ∧ r = none) := by
  obtain ⟨op, hword, hmeaning⟩ | ⟨hword, hmeaning⟩ | ⟨hword, hmeaning⟩ := meaning_cases value
  · cases l <;> cases r <;> simp [assemble, hmeaning, hword, word_inj, word_ne_denialWord]
  · cases l <;> cases r <;> simp [assemble, hmeaning, hword, (word_ne_denialWord _).symm]
  · rw [Known, not_or, not_exists] at hword
    simp [assemble, hmeaning, hword]

/-- An operator over its children is encoded under its canonical spelling. -/
theorem respells_assemble {l r : Option Rule} {t : Rule} (h : assemble value l r = .ok t) :
    ∃ s, Label.Respells ⟨.operator, value⟩ s ∧ ofRule t = node s (l.map ofRule) (r.map ofRule) := by
  obtain ⟨op, hword, hmeaning⟩ | ⟨hword, hmeaning⟩ | ⟨hword, hmeaning⟩ := meaning_cases value
  · cases l <;> cases r <;> simp only [assemble, hmeaning, reduceCtorEq, Except.ok.injEq] at h
    subst h
    exact ⟨_, .known (.inl ⟨op, hword⟩), by rw [hword]; rfl⟩
  · cases l <;> cases r <;> simp only [assemble, hmeaning, reduceCtorEq, Except.ok.injEq] at h
    subst h
    exact ⟨_, .known (.inr hword), by rw [hword]; rfl⟩
  · simp only [assemble, hmeaning, Except.ok.injEq] at h
    subst h
    exact ⟨_, .foreign hword, by cases l <;> cases r <;> rfl⟩

/-! ### One node -/

theorem readOperand_eq_ok_iff {t : Rule} :
    readOperand value = .ok t ↔ ∃ c, Compares value c ∧ t = .condition c := by
  have hreads (c : Condition) : Condition.ofText value = .ok c ↔ Compares value c :=
    Rule.conditionOfText_eq_ok_iff
  simp only [← hreads, readOperand]
  cases Condition.ofText value with
  | error e => simp
  | ok c => simp [eq_comm]

theorem decode_operand_eq_ok_iff {t : Rule} :
    (node ⟨.operand, value⟩ left right).decode level = .ok t ↔
      level ≤ maxDepth ∧ left = none ∧ right = none ∧ ∃ c, Compares value c ∧ t = .condition c := by
  rw [← readOperand_eq_ok_iff]
  by_cases hlevel : level ≤ maxDepth
  · have hcheck := checkLevel_of_le hlevel
    cases left <;> cases right <;> simp [node, decode, hcheck, hlevel, checkOperator]
    · exact Iff.rfl
    all_goals
      intro h
      cases h
  · simp [hlevel, decode_of_lt (Nat.lt_of_not_le hlevel)]

theorem decode_operator_eq_ok_iff {t : Rule} :
    (node ⟨.operator, value⟩ left right).decode level = .ok t ↔
      level ≤ maxDepth ∧ ∃ l r, left.mapM (decode (level + 1)) = .ok l ∧
        right.mapM (decode (level + 1)) = .ok r ∧ assemble value l r = .ok t := by
  by_cases hlevel : level ≤ maxDepth
  · rw [decode_node hlevel]
    constructor
    · intro h
      obtain ⟨l, hl, h⟩ := Rule.ok_of_bind h
      obtain ⟨r, hr, h⟩ := Rule.ok_of_bind h
      exact ⟨hlevel, l, r, hl, hr, h⟩
    · rintro ⟨-, l, r, hl, hr, h⟩
      rw [hl, hr]
      exact h
  · simp [hlevel, decode_of_lt (Nat.lt_of_not_le hlevel)]

theorem sound_operand_iff :
    (node ⟨.operand, value⟩ left right).Sound ↔
      left = none ∧ right = none ∧ ∃ c, Compares value c := by
  constructor
  · intro h
    simpa using h.operand
  · intro h
    refine ⟨fun _ => by simpa using h, fun ht => ?_, fun ht => ?_⟩ <;> simp at ht

theorem sound_operator_iff :
    (node ⟨.operator, value⟩ left right).Sound ↔
      (∀ op : Connective, wordOf value = op.word → left.isSome ∧ right.isSome) ∧
        (wordOf value = denialWord → left.isSome ∧ right = none) := by
  constructor
  · intro h
    exact ⟨by simpa using h.join, by simpa using h.denial⟩
  · rintro ⟨hjoin, hdenial⟩
    exact ⟨fun ht => by simp at ht, fun _ => by simpa using hjoin, fun _ => by simpa using hdenial⟩

theorem exists_mapM_iff {f : Wire → Except Error Rule} {child : Option Wire} :
    (∃ decoded, child.mapM f = .ok decoded) ↔ ∀ w ∈ child, ∃ r, f w = .ok r := by
  simp only [mapM_eq_ok_iff]
  constructor
  · rintro ⟨_, h⟩ w hw
    cases h with
    | none => cases hw
    | some h =>
      cases hw
      exact ⟨_, h⟩
  · intro h
    cases child with
    | none => exact ⟨none, .none⟩
    | some w =>
      obtain ⟨r, hr⟩ := h w rfl
      exact ⟨some r, .some hr⟩

theorem isSome_of_mapM {f : Wire → Except Error Rule} {child : Option Wire} {decoded : Option Rule}
    (h : child.mapM f = .ok decoded) : decoded.isSome = child.isSome := by
  cases mapM_eq_ok_iff.1 h <;> rfl

theorem respells_of_mapM {f : Wire → Except Error Rule} {child : Option Wire} {decoded : Option Rule}
    (h : child.mapM f = .ok decoded) (hf : ∀ w ∈ child, ∀ t, f w = .ok t → w.Respells (ofRule t)) :
    Option.Rel Respells child (decoded.map ofRule) := by
  cases mapM_eq_ok_iff.1 h with
  | none => exact .none
  | some hw => exact .some (hf _ rfl _ hw)

/-! ### Whole trees -/

/-- A tree is decoded on a level if what it reaches down to is within the limit and its nodes are sound. -/
theorem exists_decode_iff {w : Wire} :
    (∃ r, w.decode level = .ok r) ↔
      level + w.levels ≤ maxDepth + 1 ∧ ∀ n ∈ w.subtrees, n.Sound := by
  induction w using node_induction generalizing level with
  | h s left right ihl ihr =>
    obtain ⟨type, value⟩ := s
    rw [add_levels_node, forall_subtrees_node]
    cases type with
    | operand =>
      simp only [sound_operand_iff, decode_operand_eq_ok_iff]
      constructor
      · rintro ⟨t, hlevel, rfl, rfl, c, hc, -⟩
        exact ⟨⟨hlevel, by simp, by simp⟩, ⟨rfl, rfl, c, hc⟩, by simp, by simp⟩
      · rintro ⟨⟨hlevel, -⟩, ⟨rfl, rfl, c, hc⟩, -⟩
        exact ⟨_, hlevel, rfl, rfl, c, hc, rfl⟩
    | operator =>
      simp only [sound_operator_iff, decode_operator_eq_ok_iff]
      constructor
      · rintro ⟨t, hlevel, l, r, hl, hr, ht⟩
        have hfits := exists_assemble_iff.1 ⟨t, ht⟩
        rw [← Option.not_isSome_iff_eq_none, isSome_of_mapM hl, isSome_of_mapM hr,
          Option.not_isSome_iff_eq_none] at hfits
        have hleft (w : Wire) (hw : w ∈ left) := (ihl w hw).1 (exists_mapM_iff.1 ⟨l, hl⟩ w hw)
        have hright (w : Wire) (hw : w ∈ right) := (ihr w hw).1 (exists_mapM_iff.1 ⟨r, hr⟩ w hw)
        exact ⟨⟨hlevel, fun w hw => (hleft w hw).1, fun w hw => (hright w hw).1⟩, hfits,
          fun w hw => (hleft w hw).2, fun w hw => (hright w hw).2⟩
      · rintro ⟨⟨hlevel, hdeepl, hdeepr⟩, hfits, hsoundl, hsoundr⟩
        obtain ⟨l, hl⟩ :=
          exists_mapM_iff.2 fun w hw => (ihl w hw).2 ⟨hdeepl w hw, hsoundl w hw⟩
        obtain ⟨r, hr⟩ :=
          exists_mapM_iff.2 fun w hw => (ihr w hw).2 ⟨hdeepr w hw, hsoundr w hw⟩
        rw [← Option.not_isSome_iff_eq_none, ← isSome_of_mapM hl, ← isSome_of_mapM hr,
          Option.not_isSome_iff_eq_none] at hfits
        obtain ⟨t, ht⟩ := exists_assemble_iff.2 hfits
        exact ⟨t, hlevel, l, r, hl, hr, ht⟩

/-- What a tree is decoded to is encoded to the same tree in canonical spelling. -/
theorem respells_ofRule {w : Wire} {t : Rule} (h : w.decode level = .ok t) :
    w.Respells (ofRule t) := by
  induction w using node_induction generalizing level t with
  | h s left right ihl ihr =>
    obtain ⟨type, value⟩ := s
    cases type with
    | operand =>
      obtain ⟨-, rfl, rfl, c, hc, rfl⟩ := decode_operand_eq_ok_iff.1 h
      exact .bare (.operand hc)
    | operator =>
      obtain ⟨-, l, r, hl, hr, ht⟩ := decode_operator_eq_ok_iff.1 h
      obtain ⟨s, hs, hencoded⟩ := respells_assemble ht
      rw [hencoded]
      exact Respells.node hs (respells_of_mapM hl fun w hw t => ihl w hw)
        (respells_of_mapM hr fun w hw t => ihr w hw)

theorem Label.Respells.unique {s'' : Label} (h : s.Respells s') (h' : s.Respells s'') : s' = s'' := by
  cases h with
  | operand hc =>
    cases h' with
    | operand hc' =>
      have hsame := (Rule.conditionOfText_eq_ok_iff.2 hc).symm.trans (Rule.conditionOfText_eq_ok_iff.2 hc')
      rw [Except.ok.inj hsame]
  | known hk =>
    cases h' with
    | known => rfl
    | foreign hf => exact absurd hk hf
  | foreign hf =>
    cases h' with
    | known hk => exact absurd hk hf
    | foreign => rfl

theorem Respells.unique {w w' w'' : Wire} (h : w.Respells w') (h' : w.Respells w'') : w' = w'' := by
  induction h generalizing w'' with
  | bare hs =>
    cases h' with
    | bare hs' => rw [hs.unique hs']
  | onLeft hs _ ih =>
    cases h' with
    | onLeft hs' h' => rw [hs.unique hs', ih h']
  | onRight hs _ ih =>
    cases h' with
    | onRight hs' h' => rw [hs.unique hs', ih h']
  | both hs _ _ ihl ihr =>
    cases h' with
    | both hs' hl hr => rw [hs.unique hs', ihl hl, ihr hr]

/-- A wire tree is decoded exactly if it has at most 100 levels and each of its nodes is sound: an operand has
no children and its tokens are those of one comparison, a connective has both children, a denial the left
one alone, and other operators what they will. The rule is then encoded to the one tree that has the same
nodes in canonical spelling. -/
theorem decoded_iff_sound (w : Wire) :
    ((∃ r, w.toRule = .ok r) ↔ w.levels ≤ 100 ∧ ∀ n ∈ w.subtrees, n.Sound) ∧
      ∀ r, w.toRule = .ok r → ∀ w', w.Respells w' ↔ w' = ofRule r := by
  constructor
  · rw [toRule, exists_decode_iff, Nat.add_comm, Nat.succ_le_succ_iff]
    rfl
  · intro r hr w'
    have hcanonical := respells_ofRule hr
    refine ⟨fun h => h.unique hcanonical, ?_⟩
    rintro rfl
    exact hcanonical

/-- A tree in lower case with a foreign operator that has its child on the right; and a connective without
children. -/
theorem decoded_iff_sound_spelling :
    let tree (join denial first second : Text) : Wire :=
      both ⟨.operator, join⟩ (bare ⟨.operand, first⟩)
        (onLeft ⟨.operator, denial⟩ (onRight ⟨.operator, " xor ".toList⟩ (bare ⟨.operand, second⟩)))
    let w := tree " and\n".toList "Not".toList "x='y'".toList "a!=\"it's\"".toList
    let w' := tree "AND".toList "NOT".toList "x == 'y'".toList "a != \"it's\"".toList
    let r : Rule := .join .and (.condition ⟨['x'], .equal, .string ['y']⟩)
      (.not (.foreignRight " xor ".toList (.condition ⟨['a'], .notEqual, .string "it's".toList⟩)))
    w.toRule = .ok r ∧ w.levels ≤ 100 ∧ (∀ n ∈ w.subtrees, n.Sound) ∧ w.Respells w' ∧
      ¬∃ r, (bare ⟨.operator, "or".toList⟩).toRule = .ok r := by
  intro tree w w' r
  have hr : w.toRule = .ok r := rfl
  have hencoded : w' = ofRule r := rfl
  obtain ⟨haccepted, hspelled⟩ := decoded_iff_sound w
  obtain ⟨hlevels, hsound⟩ := haccepted.1 ⟨r, hr⟩
  refine ⟨hr, hlevels, hsound, (hspelled r hr w').2 hencoded, ?_⟩
  rw [(decoded_iff_sound _).1]
  rintro ⟨-, hsound⟩
  cases ((hsound _ (List.mem_singleton.2 rfl)).join rfl .or rfl).1

end Wire
end Rulebook
