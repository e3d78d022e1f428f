import Rulebook.Proofs.Lexeme
import Rulebook.Rule.Parser
set_option autoImplicit false

/-!
The grammar of rules as a relation, apart from any reader. Every phrase spans a nonempty list of tokens
and has one tree. A chain joins to the left what binds tighter than its connective, so a disjunction is
`chain or`, a conjunction `chain and`, and the operands of a conjunction are denials.
-/

namespace Rulebook

def Token.StringsQuoted (tokens : List Token) : Prop :=
  ∀ t ∈ tokens, t.kind = .string → ∃ s, IsQuoted t.text s

namespace Rule

/-- What a token stands for as a literal: a finite number, a quoted text, or one of the two words. -/
inductive Literal (t : Token) : Value → Prop
  | number {n : Number} : t.kind = .number → Number.ofText? t.text = some n → n.isFinite = true →
      Literal t (.number n)
  | string {s : Text} : t.kind = .string → Token.IsQuoted t.text s → Literal t (.string s)
  | yes : t.kind = .identifier → Text.sameWord t.text "true".toList = true →
      Literal t (.boolean true)
  | no : t.kind = .identifier → Text.sameWord t.text "false".toList = true →
      Literal t (.boolean false)

inductive Comparison : List Token → Condition → Prop
  | mk {a c l : Token} {comparator : Comparator} {value : Value} :
      a.kind = .identifier → c.kind = .comparator comparator → Literal l value →
      Comparison [a, c, l] ⟨a.text, comparator, value⟩

inductive Category where
  | chain (op : Connective)
  | denial
  | primary
  deriving DecidableEq, Repr

def Category.operand : Connective → Category
  | .or => .chain .and
  | .and => .denial

/-- A phrase of a category, with its nesting: the most parentheses and NOTs that together enclose one of
its tokens. -/
inductive Phrase : Category → Nat → List Token → Rule → Prop
  | comparison {ts : List Token} {c : Condition} :
      Comparison ts c → Phrase .primary 0 ts (.condition c)
  | parentheses {o c : Token} {n : Nat} {ts : List Token} {r : Rule} :
      o.kind = .leftParen → Phrase (.chain .or) n ts r → c.kind = .rightParen →
      Phrase .primary (n + 1) (o :: (ts ++ [c])) r
  | primary {n : Nat} {ts : List Token} {r : Rule} :
      Phrase .primary n ts r → Phrase .denial n ts r
  | not {t : Token} {n : Nat} {ts : List Token} {r : Rule} :
      t.kind = .not → Phrase .denial n ts r → Phrase .denial (n + 1) (t :: ts) (.not r)
  | operand {op : Connective} {n : Nat} {ts : List Token} {r : Rule} :
      Phrase (.operand op) n ts r → Phrase (.chain op) n ts r
  | join {op : Connective} {t : Token} {m n : Nat} {ts us : List Token} {l r : Rule} :
      Phrase (.chain op) m ts l → t.kind = .connective op → Phrase (.operand op) n us r →
      Phrase (.chain op) (max m n) (ts ++ t :: us) (.join op l r)

/-- The tokens form one disjunction with this tree, within the limits of nesting and depth. -/
def Spells (tokens : List Token) (r : Rule) : Prop :=
  (∃ nesting ≤ maxNesting, Phrase (.chain .or) nesting tokens r) ∧ r.depth ≤ maxDepth

theorem Phrase.tokens_ne_nil {k : Category} {n : Nat} {ts : List Token} {r : Rule}
    (h : Phrase k n ts r) : ts ≠ [] := by
  induction h with
  | comparison hc => cases hc; simp
  | parentheses => simp
  | primary _ ih => exact ih
  | not => simp
  | operand _ ih => exact ih
  | join => simp

theorem Phrase.operand_of_denial {op : Connective} {n : Nat} {ts : List Token} {r : Rule}
    (h : Phrase .denial n ts r) : Phrase (.operand op) n ts r := by
  cases op with
  | and => exact h
  | or => exact .operand h

theorem Phrase.chain_of_denial {op : Connective} {n : Nat} {ts : List Token} {r : Rule}
    (h : Phrase .denial n ts r) : Phrase (.chain op) n ts r := .operand h.operand_of_denial

end Rule

namespace Token

theorem unquoted_of_isQuoted {t : Token} {s : Text} (hk : t.kind = .string)
    (h : IsQuoted t.text s) : t.unquoted = s := by
  obtain ⟨quote, _, _, ht⟩ := h
  have hpos := quote.utf8Size_pos
  have hquotes : 2 ≤ Text.byteLength t.text := by
    rw [ht]
    simp
    omega
  rw [unquoted, if_pos ⟨hk, hquotes⟩, ht]
  simp

theorem StringsQuoted.of_sublist {ts us : List Token} (h : StringsQuoted ts) (hs : us.Sublist ts) :
    StringsQuoted us :=
  fun t ht => h t (hs.subset ht)

theorem stringsQuoted_of_tokenize {t : Text} {ts : List Token} (h : tokenize t = .ok ts) :
    StringsQuoted ts := by
  intro token hmem hk
  have hlexeme := tokenize_lexeme h token hmem
  rw [hk] at hlexeme
  exact hlexeme

end Token
end Rulebook
