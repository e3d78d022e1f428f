import Rulebook.Text.Blank
import Rulebook.Text.Letter
import Rulebook.Text.Numeral
import Rulebook.Token.Basic
set_option autoImplicit false

/-!
From the text of a rule to its tokens. One character decides which class of token starts with it; the
token then takes as many of the following characters as its class allows. Blanks separate tokens and
are dropped.
-/

namespace Rulebook

/-- Why a text has no tokens, with the byte offset of the first offending character. -/
inductive LexError where
  | unexpectedCharacter (character : Char) (offset : Nat)
  | unterminatedString (offset : Nat)
  deriving DecidableEq, Repr

def LexError.offset : LexError → Nat
  | .unexpectedCharacter _ offset => offset
  | .unterminatedString offset => offset

namespace Token

/-- An identifier starts with a letter or an underscore, and goes on with these and numerals. -/
def isWordStart (c : Char) : Bool := Text.isLetter c || c = '_'

def isWordChar (c : Char) : Bool := Text.isLetter c || Text.isNumeral c || c = '_'

/-- The kind of a whole word: the keywords in any case, and all else an identifier. -/
def wordKind (word : Text) : Kind :=
  if Text.sameWord word "AND".toList then .connective .and
  else if Text.sameWord word "OR".toList then .connective .or
  else if Text.sameWord word "NOT".toList then .not
  else .identifier

def digitCount (t : Text) : Nat := (t.takeWhile Char.isDigit).length

/-- How far a number goes on: digits, then a point if a digit follows it, with its digits. -/
def numberLength (t : Text) : Nat :=
  let whole := digitCount t
  match t.drop whole with
  | '.' :: rest => if digitCount rest = 0 then whole else whole + 1 + digitCount rest
  | _ => whole

/-- What can start with a character, and how many of the characters behind it belong to it. -/
inductive Scan where
  | token (kind : Kind) (more : Nat)
  | unexpected
  | unterminated

def scan (c : Char) (rest : Text) : Scan :=
  if c = '(' then .token .leftParen 0
  else if c = ')' then .token .rightParen 0
  else if c = '>' then
    if rest.head? = some '=' then .token (.comparator .greaterEqual) 1
    else .token (.comparator .greater) 0
  else if c = '<' then
    if rest.head? = some '=' then .token (.comparator .lessEqual) 1
    else .token (.comparator .less) 0
  else if c = '=' then
    if rest.head? = some '=' then .token (.comparator .equal) 1 else .token (.comparator .equal) 0
  else if c = '!' then
    if rest.head? = some '=' then .token (.comparator .notEqual) 1 else .unexpected
  else if c = '\'' || c = '"' then
    match rest.findIdx? (· == c) with
    | some close => .token .string (close + 1)
    | none => .unterminated
  else if c = '-' then
    if digitCount rest = 0 then .unexpected else .token .number (numberLength rest)
  else if c.isDigit then .token .number (numberLength rest)
  else if isWordStart c then
    let more := (rest.takeWhile isWordChar).length
    .token (wordKind (c :: rest.take more)) more
  else .unexpected

/-- The tokens of a text that begins at a byte offset; its first `taken` characters belong to the token
before it. -/
def tokensFrom (offset : Nat) (taken : Nat) : Text → Except LexError (List Token)
  | [] => .ok []
  | c :: rest =>
    let next := offset + c.utf8Size
    match taken with
    | more + 1 => tokensFrom next more rest
    | 0 =>
      if Text.isBlank c then tokensFrom next 0 rest
      else
        match scan c rest with
        | .token kind more =>
          match tokensFrom next more rest with
          | .ok tokens => .ok (⟨kind, c :: rest.take more, offset⟩ :: tokens)
          | .error e => .error e
        | .unexpected => .error (.unexpectedCharacter c offset)
        | .unterminated => .error (.unterminatedString offset)

def tokenize (rule : Text) : Except LexError (List Token) := tokensFrom 0 0 rule

end Token
end Rulebook
