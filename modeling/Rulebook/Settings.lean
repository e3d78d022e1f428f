import Rulebook.Error
import Rulebook.Json.Basic
set_option autoImplicit false

/-!
Settings of a rule service. A combined rule is named by a fixed affix and random letters behind it;
settings are valid when all such names are.
-/

namespace Rulebook

structure Settings where
  policy : FlattenPolicy
  caching : Bool
  /-- What the names of combined rules begin with. -/
  affix : Text
  letterCount : Nat
  logFilter : Option Text
  deriving DecidableEq, Repr

namespace Settings

def standard : Settings := ⟨.homogeneous, true, "combined".toList, 4, none⟩

/-- Lengths are added up in words of so many bits. -/
def wordBits : Nat := 64

/-- The length of a combined name in bytes, if one word holds it. Sums are checked for overflow here, as in
a program built with such checks; built without them, it would take the sum modulo `2 ^ wordBits` and go
on with that. -/
def nameLength? (s : Settings) : Option Nat :=
  let length := s.affix.byteLength + s.letterCount
  if length < 2 ^ wordBits then some length else none

/-- Whether all combined names are valid, tried on one of them. Where the length of the names is past the
greatest word there is no answer: the check for overflow stops the program. -/
def check (s : Settings) : Option (Except SettingsFault Unit) :=
  if s.letterCount = 0 then some (.error .noLetters)
  else
    s.nameLength?.map fun length =>
      if Name.maxLength < length then .error (.tooLong length)
      else
        match Name.check (s.affix ++ List.replicate s.letterCount 'x') with
        | .ok () => .ok ()
        | .error f => .error (.affix f)

def fieldNames : List Text :=
  ["flatten_policy".toList, "parse_cache".toList, "combined_name_prefix".toList,
    "combined_name_length".toList, "log_filter".toList]

def count? : Json → Option Nat
  | .number n => n.toCount?
  | _ => none

/-- Unchecked settings. What is absent is as in the standard ones. -/
def ofJson? (j : Json) : Option Settings :=
  match j.fields? fieldNames 0 with
  | some [policy, caching, affix, letterCount, logFilter] => do
    let policy ← Json.fieldOr standard.policy (fun j => j.caseName?.bind FlattenPolicy.ofName?) policy
    let caching ← Json.fieldOr standard.caching Json.bool? caching
    let affix ← Json.fieldOr standard.affix Json.text? affix
    let letterCount ← Json.fieldOr standard.letterCount count? letterCount
    let logFilter ← Json.fieldOr standard.logFilter Json.textOrNull? logFilter
    some ⟨policy, caching, affix, letterCount, logFilter⟩
  | _ => none

end Settings
end Rulebook
