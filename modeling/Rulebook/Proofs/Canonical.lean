import Rulebook.Proofs.Operands
import Rulebook.Proofs.Parsing
set_option autoImplicit false

/-!
Canonical rules are those that some text spells, depth apart: they have no foreign operator, and each of
their comparisons can be read from a text. Reading yields only canonical rules, and combining keeps them
so.
-/

namespace Rulebook

/-- A literal that can be written: a number is finite, and a string leaves one of the quotes free. -/
def Value.Canonical : Value → Prop
  | .boolean _ => True
  | .number n => n.isFinite = true
  | .string s => '\'' ∉ s ∨ '"' ∉ s

structure Condition.Canonical (c : Condition) : Prop where
  name : Token.Lexeme .identifier c.name
  literal : c.literal.Canonical

namespace Rule

def Canonical : Rule → Prop
  | condition c => c.Canonical
  | join _ l r => l.Canonical ∧ r.Canonical
  | not r => r.Canonical
  | foreign _ | foreignLeft _ _ | foreignRight _ _ | foreignBoth _ _ _ => False

theorem Literal.canonical {t : Token} {v : Value} (h : Literal t v) : v.Canonical := by
  cases h with
  | number hk hn hf => exact hf
  | string hk hs =>
    obtain ⟨quote, rfl | rfl, hs, -⟩ := hs
    · exact .inl hs
    · exact .inr hs
  | yes => trivial
  | no => trivial

theorem Comparison.canonical {ts : List Token} {c : Condition} (h : Comparison ts c)
    (hl : ∀ t ∈ ts, Token.Lexeme t.kind t.text) : c.Canonical := by
  cases h with
  | @mk a m l _ _ ha hm hv =>
    have hname := hl a (by simp)
    rw [ha] at hname
    exact ⟨hname, hv.canonical⟩

theorem Phrase.canonical {k : Category} {n : Nat} {ts : List Token} {r : Rule}
    (h : Phrase k n ts r) (hl : ∀ t ∈ ts, Token.Lexeme t.kind t.text) : r.Canonical := by
  induction h with
  | comparison hc => exact hc.canonical hl
  | parentheses _ _ _ ih => exact ih fun t ht => hl t (by simp [ht])
  | primary _ ih => exact ih hl
  | not _ _ ih => exact ih fun t ht => hl t (by simp [ht])
  | operand _ ih => exact ih hl
  | join _ _ _ ihl ihr =>
    exact ⟨ihl fun t ht => hl t (by simp [ht]), ihr fun t ht => hl t (by simp [ht])⟩

theorem canonical_of_ofText {t : Text} {r : Rule} (h : Rule.ofText t = .ok r) :
    r.Canonical ∧ r.depth ≤ maxDepth := by
  obtain ⟨ts, ht, ⟨⟨n, -, hp⟩, hd⟩⟩ := ofText_eq_ok_iff.1 h
  exact ⟨hp.canonical (Token.tokenize_lexeme ht), hd⟩

theorem conditionCanonical_of_ofText {t : Text} {c : Condition} (h : Condition.ofText t = .ok c) :
    c.Canonical := by
  obtain ⟨ts, ht, hc⟩ := conditionOfText_eq_ok_iff.1 h
  exact hc.canonical (Token.tokenize_lexeme ht)

theorem canonical_combine {policy : FlattenPolicy} {op : Connective} {rules : List Rule} {r : Rule}
    (hc : ∀ s ∈ rules, s.Canonical) (h : policy.combine op rules = .ok r) :
    r.Canonical ∧ r.depth ≤ maxDepth := by
  obtain ⟨inputs, rfl, rfl, hd⟩ := FlattenPolicy.combine_eq_ok h
  exact ⟨FlattenPolicy.join_keeps (fun _ _ _ => Iff.rfl) policy op inputs hc, hd⟩

end Rule
end Rulebook
