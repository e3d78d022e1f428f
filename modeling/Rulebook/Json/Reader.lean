import Rulebook.Json.Basic
set_option autoImplicit false

/-!
Strict JSON text: one value, with blanks around it. A number has no leading zeros and digits on both
sides of its point; a string has no raw characters below the space; nothing follows a last comma.
Nesting is not limited here.
-/

namespace Rulebook.Json

def isBlank (c : Char) : Bool := c = ' ' || c = '\t' || c = '\n' || c = '\r'

def skip (t : Text) : Text := t.dropWhile isBlank

/-- What a string holds between its quotes: characters, and halves of surrogate pairs or whole
characters written in hexadecimal. -/
inductive Piece where
  | char (c : Char)
  | unit (n : Nat)

def hexValue? (c : Char) : Option Nat :=
  if c.isDigit then some (c.toNat - '0'.toNat)
  else if 'a' ≤ c && c ≤ 'f' then some (c.toNat - 'a'.toNat + 10)
  else if 'A' ≤ c && c ≤ 'F' then some (c.toNat - 'A'.toNat + 10)
  else none

def hexUnit? (a b c d : Char) : Option Nat := do
  let a ← hexValue? a
  let b ← hexValue? b
  let c ← hexValue? c
  let d ← hexValue? d
  some (((a * 16 + b) * 16 + c) * 16 + d)

/-- The character behind a backslash, the hexadecimal form apart. -/
def unescape? (c : Char) : Option Char :=
  if c = '"' || c = '\\' || c = '/' then some c
  else if c = 'b' then some (Char.ofNat 8)
  else if c = 'f' then some (Char.ofNat 12)
  else if c = 'n' then some '\n'
  else if c = 'r' then some '\r'
  else if c = 't' then some '\t'
  else none

/-- The pieces up to the closing quote, and what follows it. -/
def pieces : Text → Option (List Piece × Text)
  | [] => none
  | c :: r =>
    if c = '"' then some ([], r)
    else if c = '\\' then
      match r with
      | [] => none
      | e :: r =>
        if e = 'u' then
          match r with
          | h :: i :: j :: k :: r => do
            let n ← hexUnit? h i j k
            let (ps, rest) ← pieces r
            some (.unit n :: ps, rest)
          | _ => none
        else do
          let x ← unescape? e
          let (ps, rest) ← pieces r
          some (.char x :: ps, rest)
    else if c.toNat < 32 then none
    else do
      let (ps, rest) ← pieces r
      some (.char c :: ps, rest)

def isHighHalf (n : Nat) : Bool := 0xD800 ≤ n && n < 0xDC00

def isLowHalf (n : Nat) : Bool := 0xDC00 ≤ n && n < 0xE000

/-- The text of pieces, if every half of a pair stands before or behind its other half. -/
def joinPieces : List Piece → Option Text
  | [] => some []
  | .char c :: ps => (joinPieces ps).map (c :: ·)
  | .unit n :: ps =>
    if isHighHalf n then
      match ps with
      | .unit m :: ps =>
        if isLowHalf m then
          (joinPieces ps).map (Char.ofNat (0x10000 + (n - 0xD800) * 0x400 + (m - 0xDC00)) :: ·)
        else none
      | _ => none
    else if isLowHalf n then none
    else (joinPieces ps).map (Char.ofNat n :: ·)

def readString (t : Text) : Option (Option Text × Text) :=
  (pieces t).map fun (ps, rest) => (joinPieces ps, rest)

def readDigits (t : Text) : Option (Text × Text) :=
  let digits := t.takeWhile Char.isDigit
  if digits.isEmpty then none else some (digits, t.dropWhile Char.isDigit)

def readWhole (t : Text) : Option (Text × Text) :=
  match t with
  | '0' :: r => if (r.head?.map Char.isDigit).getD false then none else some (['0'], r)
  | r => readDigits r

def readFraction (t : Text) : Option (Text × Text) :=
  match t with
  | '.' :: r => readDigits r
  | r => some ([], r)

def readExponent (t : Text) : Option (Option (Bool × Text) × Text) :=
  match t with
  | [] => some (none, [])
  | c :: r =>
    if c = 'e' || c = 'E' then
      let (negative, r) := match r with
        | '-' :: r => (true, r)
        | '+' :: r => (false, r)
        | r => (false, r)
      (readDigits r).map fun (digits, rest) => (some (negative, digits), rest)
    else some (none, c :: r)

def readNumeral (t : Text) : Option (Numeral × Text) := do
  let (negative, t) := match t with
    | '-' :: r => (true, r)
    | r => (false, r)
  let (whole, t) ← readWhole t
  let (fraction, t) ← readFraction t
  let (exponent, t) ← readExponent t
  some (⟨negative, whole, fraction, exponent⟩, t)

def readWord (word : Text) (t : Text) : Option Text :=
  if word.isPrefixOf t then some (t.drop word.length) else none

mutual

/-- A value at the head of a text. Every step takes a character, so that `fuel` past the length of the
text is enough. -/
def readValue : Nat → Text → Option (Json × Text)
  | 0, _ => none
  | fuel + 1, t =>
    match t with
    | [] => none
    | c :: r =>
      if c = '"' then (readString r).map fun (s, rest) => (.string s, rest)
      else if c = '[' then
        match skip r with
        | ']' :: rest => some (.array [], rest)
        | r => (readItems fuel r).map fun (items, rest) => (.array items, rest)
      else if c = '\x7b' then
        match skip r with
        | '\x7d' :: rest => some (.object [], rest)
        | r => (readMembers fuel r).map fun (members, rest) => (.object members, rest)
      else if c = 'n' then (readWord "null".toList t).map fun rest => (.null, rest)
      else if c = 't' then (readWord "true".toList t).map fun rest => (.bool true, rest)
      else if c = 'f' then (readWord "false".toList t).map fun rest => (.bool false, rest)
      else (readNumeral t).map fun (n, rest) => (.number n, rest)

def readItems : Nat → Text → Option (List Json × Text)
  | 0, _ => none
  | fuel + 1, t => do
    let (item, t) ← readValue fuel t
    match skip t with
    | ',' :: r =>
      let (items, rest) ← readItems fuel (skip r)
      some (item :: items, rest)
    | ']' :: rest => some ([item], rest)
    | _ => none

def readMembers : Nat → Text → Option (List (Option Text × Json) × Text)
  | 0, _ => none
  | fuel + 1, t =>
    match t with
    | '"' :: r => do
      let (key, t) ← readString r
      match skip t with
      | ':' :: r =>
        let (value, t) ← readValue fuel (skip r)
        match skip t with
        | ',' :: r =>
          let (members, rest) ← readMembers fuel (skip r)
          some ((key, value) :: members, rest)
        | '\x7d' :: rest => some ([(key, value)], rest)
        | _ => none
      | _ => none
    | _ => none

end

def read? (t : Text) : Option Json :=
  match readValue (t.length + 1) (skip t) with
  | some (j, rest) => if (skip rest).isEmpty then some j else none
  | none => none

end Rulebook.Json
