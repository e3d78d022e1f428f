import Rulebook.Json.Numeral
set_option autoImplicit false

/-!
JSON values as a text holds them: numbers keep their spelling, members their order and repetitions. A
string whose escapes leave half of a surrogate pair alone has no text, so that only a reader who needs
the text is stopped by it.
-/

namespace Rulebook

inductive Json where
  | null
  | bool (b : Bool)
  | number (n : Json.Numeral)
  | string (t : Option Text)
  | array (items : List Json)
  | object (members : List (Option Text × Json))

namespace Json

/-- Where nesting is limited, it is to so many arrays and objects. -/
def maxNesting : Nat := 127

def ofText (t : Text) : Json := .string (some t)

def ofNat (n : Nat) : Json := .number (Numeral.ofNat n)

/-- An object from its members, keys given as literals. -/
def record (members : List (String × Json)) : Json :=
  .object (members.map fun m => (some m.1.toList, m.2))

def text? : Json → Option Text
  | .string t => t
  | _ => none

def bool? : Json → Option Bool
  | .bool b => some b
  | _ => none

/-- The member of the name that comes last. -/
def get? (j : Json) (name : Text) : Option Json :=
  match j with
  | .object members => members.reverse.lookup (some name)
  | _ => none

/-- The fields of a record, by name from an object or by place from an array. An object has no named
field twice, and no key without a text; other members do not count. An array has at least `least` items
and no more than there are names. -/
def fields? (names : List Text) (least : Nat) : Json → Option (List (Option Json))
  | .array items =>
    if least ≤ items.length && items.length ≤ names.length then
      some ((List.range names.length).map fun i => items[i]?)
    else none
  | .object members =>
    if members.all (fun m => m.1.isSome) &&
        names.all (fun n => (members.filter fun m => m.1 == some n).length ≤ 1) then
      some (names.map fun n => members.lookup (some n))
    else none
  | _ => none

def fieldOr {α : Type} (standard : α) (read : Json → Option α) : Option Json → Option α
  | none => some standard
  | some j => read j

def textOrNull? : Json → Option (Option Text)
  | .null => some none
  | j => j.text?.map some

/-- The name of a case without content: as a string, or as the only key of an object, with null. -/
def caseName? : Json → Option Text
  | .string t => t
  | .object [(t, .null)] => t
  | _ => none

/-- All strings have a text, all numbers a value, and nothing is nested deeper than `room`. -/
def sound : Nat → Json → Bool
  | _, .null | _, .bool _ => true
  | _, .number n => n.toNumber?.isSome
  | _, .string t => t.isSome
  | 0, .array _ | 0, .object _ => false
  | room + 1, .array items => items.all (sound room)
  | room + 1, .object members => members.all fun m => m.1.isSome && sound room m.2

end Json
end Rulebook
