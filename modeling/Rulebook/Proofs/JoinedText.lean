import Mathlib.Data.List.Induction
import Rulebook.Proofs.CombinedDepth
import Rulebook.Proofs.RuleText
set_option autoImplicit false

/-!
Texts joined and trees joined. The operands of uniform inputs, written in a row with the connective between
them and no parentheses around the whole, read as the rule that the homogeneous policy combines.
-/

namespace Rulebook

open Token (Breaks ReadsAs breaks_blank breaks_nil readsAs_word)
open Rule (Phrase)

namespace Connective

/-- Rules in a row, the word of the connective between them. -/
def rowText (op : Connective) (rules : List Rule) : Text :=
  List.intercalate (' ' :: op.word ++ [' ']) (rules.map Rule.text)

@[simp] theorem rowText_singleton (op : Connective) (r : Rule) : op.rowText [r] = r.text := by
  simp [rowText]

/-- One rule more at the end of a row. -/
theorem rowText_concat (op : Connective) {rules : List Rule} (h : rules ≠ []) (r : Rule) :
    op.rowText (rules ++ [r]) = op.rowText rules ++ ' ' :: op.word ++ ' ' :: r.text := by
  induction rules with
  | nil => exact absurd rfl h
  | cons a rules ih =>
    cases rules with
    | nil => simp [rowText, List.intercalate]
    | cons b rules =>
      have hrest := ih (by simp)
      simp only [rowText, List.map_append, List.map_cons, List.cons_append,
        List.intercalate_cons_cons] at hrest ⊢
      rw [hrest]
      simp

/-- A row of canonical rules reads as a chain that joins them to the left, and is nested no deeper than
the deepest of them. -/
theorem readsAs_rowText (op : Connective) {first : Rule} {rest : List Rule}
    (h : ∀ r ∈ first :: rest, r.Canonical) {k : Nat} (hk : ∀ r ∈ first :: rest, r.depth ≤ k)
    {behind : Text} (hb : Breaks behind) :
    ∃ ts n, ReadsAs 0 (op.rowText (first :: rest)) ts behind ∧
      Phrase (.chain op) n ts (rest.foldl (Rule.join op) first) ∧ n ≤ k := by
  induction rest using List.reverseRecOn generalizing behind with
  | nil =>
    obtain ⟨ts, n, hts, hp, hn⟩ := (h first (by simp)).readsAs 0 hb
    have hfirst := hk first (by simp)
    exact ⟨ts, n, by rwa [rowText_singleton], hp.chain_of_denial, by omega⟩
  | append_singleton rest r ih =>
    have hsub : ∀ a ∈ first :: rest, a ∈ first :: (rest ++ [r]) := by
      intro a ha
      simp only [List.mem_cons, List.mem_append] at ha ⊢
      exact ha.imp_right .inl
    have hmem : r ∈ first :: (rest ++ [r]) := by simp
    obtain ⟨ts, m, hts, hp, hm⟩ := ih (fun a ha => h a (hsub a ha)) (fun a ha => hk a (hsub a ha))
      (breaks_blank (op.word ++ ' ' :: (r.text ++ behind)))
    have hword (offset : Nat) := readsAs_word op.lexeme_word (breaks_blank (r.text ++ behind)) offset
    obtain ⟨us, n, hus, hr, hn⟩ := (h r hmem).readsAs
      (Text.byteLength (op.rowText (first :: rest) ++ ' ' :: op.word ++ [' '])) hb
    have hrow := (hts.spaced (hword _)).spaced (by simpa using hus)
    rw [← rowText_concat op (List.cons_ne_nil first rest)] at hrow
    have hmax : max m n ≤ k := by
      have hdepth := hk r hmem
      omega
    refine ⟨_, max m n, hrow, ?_, hmax⟩
    rw [List.foldl_append, List.foldl_cons, List.foldl_nil, List.append_assoc]
    exact hp.join rfl hr.operand_of_denial

end Connective

namespace FlattenPolicy

variable {op : Connective} {rules : List Rule}

/-- Uniform inputs that the homogeneous policy combines: their leaves joined to the left. -/
theorem homogeneous_prescribed {first : Rule} {rest : List Rule} (h : Uniform op (first :: rest)) :
    ∃ head tail, (first :: rest).flatMap op.leaves = head :: tail ∧
      homogeneous.prescribed op first rest = tail.foldl (Rule.join op) head := by
  refine ⟨_, _, (toList_operands_foldl op first rest).symm, ?_⟩
  simp only [prescribed, h, if_true, rewrite]
  rfl

/-- The leaves of rules that can be written, in a row: the text reads as their join to the left, or is
refused for the depth of that. -/
theorem ofText_rowText (op : Connective) {first : Rule} {rest : List Rule}
    (h : ∀ r ∈ first :: rest, r.Canonical ∧ r.depth ≤ Rule.maxDepth) :
    let t := rest.foldl (Rule.join op) first
    (t.depth ≤ Rule.maxDepth → Rule.ofText (op.rowText (first :: rest)) = .ok t) ∧
    (Rule.maxDepth < t.depth → ∃ e, Rule.ofText (op.rowText (first :: rest)) = .error (.parse e) ∧
      e.expected = .lessDepth) := by
  intro t
  have hle : Rule.maxDepth ≤ Rule.maxNesting := by decide
  obtain ⟨ts, n, hts, hp, hn⟩ := op.readsAs_rowText (fun r hr => (h r hr).1) (fun r hr => (h r hr).2)
    breaks_nil
  have htokens := Token.tokenize_of_readsAs hts
  have hchain : Phrase (.chain .or) n ts t := by
    cases op with
    | and => exact .operand hp
    | or => exact hp
  constructor
  · intro hd
    exact Rule.ofText_eq_ok_iff.2 ⟨ts, htokens, ⟨n, by omega, hchain⟩, hd⟩
  · intro hd
    obtain ⟨e, he, hexpected⟩ :=
      Rule.parse_error_of_phrase (Token.stringsQuoted_of_tokenize htokens) hchain (.inr hd)
    refine ⟨e, ?_, hexpected (by omega)⟩
    simp only [Rule.ofText, htokens, he]

/-- Uniform inputs that can be written combine, under the homogeneous policy, to what the row of their
leaves reads as. Where the one is too deep, the other is refused for its depth. -/
theorem homogeneous_combine_eq_ofText (op : Connective) (rules : List Rule) (h : Uniform op rules)
    (hr : ∀ r ∈ rules, r.Canonical ∧ r.depth ≤ Rule.maxDepth) :
    let text := op.rowText (rules.flatMap op.leaves)
    (∀ t, homogeneous.combine op rules = .ok t ↔ Rule.ofText text = .ok t) ∧
    ((∃ t, homogeneous.combine op rules = .ok t ∧ Rule.ofText text = .ok t) ∨
      ∃ depth e, homogeneous.combine op rules = .error (.tooDeep depth) ∧
        Rule.ofText text = .error (.parse e) ∧ e.expected = .lessDepth) := by
  intro text
  obtain ⟨first, rest, rfl⟩ := List.exists_cons_of_length_pos (Nat.lt_of_lt_of_le Nat.two_pos h.1)
  obtain ⟨head, tail, hleaves, ht⟩ := homogeneous_prescribed h
  have hwritable : ∀ r ∈ head :: tail, r.Canonical ∧ r.depth ≤ Rule.maxDepth := by
    rw [← hleaves]
    intro r hmem
    obtain ⟨s, hs, hmem⟩ := List.mem_flatMap.1 hmem
    refine Connective.leaves_keep (P := fun r => r.Canonical ∧ r.depth ≤ Rule.maxDepth) ?_
      (hr s hs) r hmem
    rintro a b ⟨hcanonical, hdepth⟩
    rw [Rule.depth] at hdepth
    exact ⟨⟨hcanonical.1, by omega⟩, hcanonical.2, by omega⟩
  obtain ⟨hread, hrefused⟩ := ofText_rowText op hwritable
  rw [← hleaves, ← ht] at hread hrefused
  by_cases hd : (homogeneous.prescribed op first rest).depth ≤ Rule.maxDepth
  · have hcombine : homogeneous.combine op (first :: rest) =
        .ok (homogeneous.prescribed op first rest) := by
      rw [combine_cons, if_pos hd]
    have hok := hread hd
    refine ⟨fun t => ?_, .inl ⟨_, hcombine, hok⟩⟩
    rw [hcombine, hok, Except.ok.injEq, Except.ok.injEq]
  · have hcombine : homogeneous.combine op (first :: rest) =
        .error (.tooDeep (homogeneous.prescribed op first rest).depth) := by
      rw [combine_cons, if_neg hd]
    obtain ⟨e, he, hexpected⟩ := hrefused (Nat.lt_of_not_le hd)
    refine ⟨fun t => ?_, .inr ⟨_, e, hcombine, he, hexpected⟩⟩
    rw [hcombine, he]
    simp

/-- Nested joins beside a denial and a join of the other connective, and one comparison too many. -/
theorem homogeneous_combine_eq_ofText_nested :
    let leaf (name : Char) : Rule := .condition ⟨[name], .equal, .string ['x']⟩
    let pair : Rule := .join .or (leaf 'c') (leaf 'd')
    let rules := [.join .and (leaf 'a') (.join .and (.not (leaf 'b')) pair), leaf 'e']
    let deep := List.replicate 101 (leaf 'a')
    Uniform .and rules ∧
      Rule.ofText "a == 'x' AND NOT b == 'x' AND (c == 'x' OR d == 'x') AND e == 'x'".toList =
        .ok (.join .and (.join .and (.join .and (leaf 'a') (.not (leaf 'b'))) pair) (leaf 'e')) ∧
      ∃ e, Rule.ofText (Connective.or.rowText (deep.flatMap Connective.or.leaves)) =
        .error (.parse e) ∧ e.expected = .lessDepth := by
  intro leaf pair rules deep
  have hleaf (name : Char) (h : Token.IsWord [name]) (hw : Token.wordKind [name] = .identifier) :
      (leaf name).Canonical ∧ (leaf name).depth ≤ Rule.maxDepth := by
    refine ⟨⟨Token.lexeme_identifier h hw, .inl (by simp)⟩, ?_⟩
    simp [leaf, Rule.depth, Rule.maxDepth]
  have ha := hleaf 'a' (Token.isWord_of_all (by decide) (by decide)) rfl
  have hb := hleaf 'b' (Token.isWord_of_all (by decide) (by decide)) rfl
  have hc := hleaf 'c' (Token.isWord_of_all (by decide) (by decide)) rfl
  have hd := hleaf 'd' (Token.isWord_of_all (by decide) (by decide)) rfl
  have he := hleaf 'e' (Token.isWord_of_all (by decide) (by decide)) rfl
  have huniform : Uniform .and rules := by decide
  have hdeep : Uniform .or deep :=
    ⟨by simp [deep], fun r hr => .inl ⟨_, List.eq_of_mem_replicate hr⟩⟩
  have htoo : homogeneous.combine .or deep = .error (.tooDeep 101) := by
    simp only [deep, leaf]
    cbv
  have hcombine : homogeneous.combine .and rules =
      .ok (.join .and (.join .and (.join .and (leaf 'a') (.not (leaf 'b'))) pair) (leaf 'e')) := by
    simp only [rules, pair, leaf]
    cbv
  obtain ⟨hiff, -⟩ := homogeneous_combine_eq_ofText .and rules huniform
    (List.forall_mem_cons.2 ⟨⟨⟨ha.1, hb.1, hc.1, hd.1⟩, by decide⟩, List.forall_mem_singleton.2 he⟩)
  obtain ⟨-, ⟨t, ht, -⟩ | ⟨depth, e, -, hread⟩⟩ := homogeneous_combine_eq_ofText .or deep hdeep
    (fun r hr => List.eq_of_mem_replicate hr ▸ ha)
  · rw [htoo] at ht
    cases ht
  · have htext : Connective.and.rowText (rules.flatMap Connective.and.leaves) =
        "a == 'x' AND NOT b == 'x' AND (c == 'x' OR d == 'x') AND e == 'x'".toList := rfl
    exact ⟨huniform, htext ▸ (hiff _).1 hcombine, e, hread⟩

end FlattenPolicy
end Rulebook
