import Rulebook.Text.Printable
set_option autoImplicit false

/-!
A text between double quotes, as messages show it: the quote, the backslash and the characters that
cannot be shown are escaped.
-/

namespace Rulebook.Text

def codeEscape (c : Char) : Text := "\\u\x7b".toList ++ Nat.toDigits 16 c.toNat ++ ['\x7d']

def shown (c : Char) : Text :=
  if c = '"' || c = '\\' then ['\\', c]
  else if c.toNat = 0 then ['\\', '0']
  else if c = '\t' then ['\\', 't']
  else if c = '\n' then ['\\', 'n']
  else if c = '\r' then ['\\', 'r']
  else if isPrintable c then [c]
  else codeEscape c

def inQuotes (t : Text) : Text := '"' :: t.flatMap shown ++ ['"']

end Rulebook.Text
