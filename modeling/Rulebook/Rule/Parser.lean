import Rulebook.Rule.Basic
import Rulebook.Token.Lexer
set_option autoImplicit false

/-!
From tokens to a rule. AND binds tighter than OR and both join to the left; NOT binds tighter than AND.

    disjunction := conjunction (OR conjunction)*
    conjunction := denial (AND denial)*
    denial      := NOT denial | '(' disjunction ')' | comparison
    comparison  := identifier comparator literal
    literal     := number | string | true | false

Two limits hold. At most `maxNesting` parentheses and NOTs enclose a token: the reader of a denial
carries what is left of that budget, and recursion is on it. And no tree is deeper than `maxDepth`: each
reader returns the depth of its tree.
-/

namespace Rulebook

inductive Expected where
  | expression
  | connectiveOrEnd
  | endOfComparison
  | rightParen
  | operand
  | attributeName
  | comparator
  | literal
  | finiteNumber
  | number
  | lessNesting
  | lessDepth
  deriving DecidableEq, Repr

/-- Where the tokens stop making sense: at a token, or at their end. -/
structure ParseError where
  offset : Nat
  expected : Expected
  found : Option Text
  deriving DecidableEq, Repr

namespace Rule

/-- At most so many parentheses and NOTs may enclose a token. -/
def maxNesting : Nat := 128

/-- A reader that cannot go on says what it expected and which tokens it left. -/
structure Stuck where
  expected : Expected
  rest : List Token

structure Parsed where
  rule : Rule
  depth : Nat
  rest : List Token

def literalOf (t : Token) : Except Expected Value :=
  match t.kind with
  | .number =>
    match Number.ofText? t.text with
    | some n => if n.isFinite then .ok (.number n) else .error .finiteNumber
    | none => .error .number
  | .string => .ok (.string t.unquoted)
  | .identifier =>
    if Text.sameWord t.text "true".toList then .ok (.boolean true)
    else if Text.sameWord t.text "false".toList then .ok (.boolean false)
    else .error .literal
  | _ => .error .literal

def comparison : List Token → Except Stuck (Condition × List Token)
  | [] => .error ⟨.attributeName, []⟩
  | a :: rest =>
    if a.kind = .identifier then
      match rest with
      | [] => .error ⟨.comparator, []⟩
      | c :: rest' =>
        match c.kind with
        | .comparator comparator =>
          match rest' with
          | [] => .error ⟨.literal, []⟩
          | l :: rest'' =>
            match literalOf l with
            | .ok value => .ok (⟨a.text, comparator, value⟩, rest'')
            | .error e => .error ⟨e, l :: rest''⟩
        | _ => .error ⟨.comparator, c :: rest'⟩
    else .error ⟨.attributeName, a :: rest⟩

/-- One level over a tree of the given depth, or stuck at the operator that asks for it. -/
def grow (operator : List Token) (depth : Nat) : Except Stuck Nat :=
  if depth < maxDepth then .ok (depth + 1) else .error ⟨.lessDepth, operator⟩

/-- The further operands of a chain, each behind its connective. There are at most `fuel` of them. -/
def links (op : Connective) (operand : List Token → Except Stuck Parsed) :
    Nat → Parsed → Except Stuck Parsed
  | 0, left => .ok left
  | fuel + 1, left =>
    match left.rest with
    | [] => .ok left
    | t :: rest =>
      if t.kind = .connective op then do
        let right ← operand rest
        let depth ← grow (t :: rest) (max left.depth right.depth)
        links op operand fuel ⟨.join op left.rule right.rule, depth, right.rest⟩
      else .ok left

def chain (op : Connective) (operand : List Token → Except Stuck Parsed) (tokens : List Token) :
    Except Stuck Parsed := do
  let first ← operand tokens
  links op operand first.rest.length first

def disjunctionOf (denial : List Token → Except Stuck Parsed) : List Token → Except Stuck Parsed :=
  chain .or (chain .and denial)

/-- A denial inside at most `budget` more parentheses and NOTs. -/
def denial : Nat → List Token → Except Stuck Parsed
  | _, [] => .error ⟨.operand, []⟩
  | 0, t :: rest =>
    match t.kind with
    | .not | .leftParen => .error ⟨.lessNesting, rest⟩
    | .identifier => do
      let (c, rest) ← comparison (t :: rest)
      .ok ⟨.condition c, 1, rest⟩
    | _ => .error ⟨.operand, t :: rest⟩
  | budget + 1, t :: rest =>
    match t.kind with
    | .not => do
      let inner ← denial budget rest
      let depth ← grow (t :: rest) inner.depth
      .ok ⟨.not inner.rule, depth, inner.rest⟩
    | .leftParen => do
      let inner ← disjunctionOf (denial budget) rest
      match inner.rest with
      | [] => .error ⟨.rightParen, []⟩
      | u :: behind =>
        if u.kind = .rightParen then .ok { inner with rest := behind }
        else .error ⟨.rightParen, u :: behind⟩
    | .identifier => do
      let (c, rest) ← comparison (t :: rest)
      .ok ⟨.condition c, 1, rest⟩
    | _ => .error ⟨.operand, t :: rest⟩

def disjunction (budget : Nat) : List Token → Except Stuck Parsed :=
  disjunctionOf (denial budget)

def finish (tokens : List Token) : Nat := (tokens.getLast?.map Token.finish).getD 0

/-- A place in a list of tokens as its reader reports it. -/
def Stuck.report (tokens : List Token) (s : Stuck) : ParseError :=
  match s.rest with
  | [] => ⟨finish tokens, s.expected, none⟩
  | t :: _ => ⟨t.offset, s.expected, some t.text⟩

def parse (tokens : List Token) : Except ParseError Rule :=
  if tokens.isEmpty then .error ⟨0, .expression, none⟩
  else
    match disjunction maxNesting tokens with
    | .error s => .error (s.report tokens)
    | .ok p =>
      if p.rest.isEmpty then .ok p.rule
      else .error (Stuck.report tokens ⟨.connectiveOrEnd, p.rest⟩)

def parseComparison (tokens : List Token) : Except ParseError Condition :=
  match comparison tokens with
  | .error s => .error (s.report tokens)
  | .ok (c, rest) =>
    if rest.isEmpty then .ok c else .error (Stuck.report tokens ⟨.endOfComparison, rest⟩)

end Rule

inductive SyntaxError where
  | lex (e : LexError)
  | parse (e : ParseError)
  deriving DecidableEq, Repr

def Rule.ofText (t : Text) : Except SyntaxError Rule :=
  match Token.tokenize t with
  | .error e => .error (.lex e)
  | .ok tokens =>
    match Rule.parse tokens with
    | .error e => .error (.parse e)
    | .ok r => .ok r

def Condition.ofText (t : Text) : Except SyntaxError Condition :=
  match Token.tokenize t with
  | .error e => .error (.lex e)
  | .ok tokens =>
    match Rule.parseComparison tokens with
    | .error e => .error (.parse e)
    | .ok c => .ok c

end Rulebook
