import Rulebook.Json.Basic
set_option autoImplicit false

/-!
Compact JSON text. In a string the quote, the backslash and the characters below the space are escaped,
and every other character stands for itself.
-/

namespace Rulebook.Json

def hexDigit (n : Nat) : Char := Nat.digitChar n

def escape (c : Char) : Text :=
  if c = '"' then ['\\', '"']
  else if c = '\\' then ['\\', '\\']
  else if c.toNat = 8 then ['\\', 'b']
  else if c.toNat = 9 then ['\\', 't']
  else if c.toNat = 10 then ['\\', 'n']
  else if c.toNat = 12 then ['\\', 'f']
  else if c.toNat = 13 then ['\\', 'r']
  else if c.toNat < 32 then
    ['\\', 'u', '0', '0', hexDigit (c.toNat / 16), hexDigit (c.toNat % 16)]
  else [c]

def quoted (t : Text) : Text := '"' :: t.flatMap escape ++ ['"']

/-- A string without a text is written as an unpaired half. -/
def stringText : Option Text → Text
  | some t => quoted t
  | none => "\"\\ud800\"".toList

mutual

def text : Json → Text
  | .null => "null".toList
  | .bool b => if b then "true".toList else "false".toList
  | .number n => n.text
  | .string t => stringText t
  | .array items => '[' :: itemsText items ++ [']']
  | .object members => '\x7b' :: membersText members ++ ['\x7d']

def itemsText : List Json → Text
  | [] => []
  | [j] => text j
  | j :: k :: rest => text j ++ ',' :: itemsText (k :: rest)

def membersText : List (Option Text × Json) → Text
  | [] => []
  | [(key, j)] => stringText key ++ ':' :: text j
  | (key, j) :: m :: rest => stringText key ++ ':' :: text j ++ ',' :: membersText (m :: rest)

end

end Rulebook.Json
