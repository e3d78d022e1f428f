import Rulebook.Error
import Rulebook.Text.Blank
import Std.Data.HashMap
import Std.Data.TreeMap
set_option autoImplicit false

/-!
Stored rules. A rule is stored under a name, which no other stored rule has, and gets the next id.
An identifier made of digits is an id, any other one a name.
-/

namespace Rulebook

/-- A stored rule, with the text it was read from if there is one. -/
structure Record where
  id : Nat
  name : Text
  text : Option Text
  rule : Rule
  deriving DecidableEq

/-- The records by id, the ids by name, and the greatest id given out. -/
structure Store where
  records : Std.TreeMap Nat Record
  ids : Std.HashMap Text Nat
  lastId : Nat

namespace Store

def empty : Store := ⟨∅, ∅, 0⟩

def size (s : Store) : Nat := s.records.size

def isEmpty (s : Store) : Bool := s.size == 0

def toList (s : Store) : List Record := s.records.values

def names (s : Store) : List Text := s.toList.map Record.name

def byId? (s : Store) (id : Nat) : Option Record := s.records[id]?

def byName? (s : Store) (name : Text) : Option Record := s.ids[name]?.bind s.byId?

/-- Ids are looked up in words of so many bits. -/
def idBits : Nat := 64

/-- The record that an identifier means, blanks around it apart. -/
def find? (s : Store) (identifier : Text) : Option Record :=
  let body := identifier.trim
  if body.isDigits then
    if body.digitsToNat < 2 ^ idBits then s.byId? body.digitsToNat else none
  else s.byName? body

def insert (s : Store) (name : Text) (text : Option Text) (rule : Rule) :
    Except Error (Record × Store) :=
  match Name.check name with
  | .error f => .error (.invalidRequest (.name f))
  | .ok () =>
    if s.ids.contains name then .error (.duplicateName name)
    else
      let record : Record := ⟨s.lastId + 1, name, text, rule⟩
      .ok (record, ⟨s.records.insert record.id record, s.ids.insert name record.id, record.id⟩)

def remove (s : Store) (id : Nat) : Option (Record × Store) :=
  (s.byId? id).map fun record => (record, ⟨s.records.erase id, s.ids.erase record.name, s.lastId⟩)

end Store
end Rulebook
