import Rulebook.Service.Session
set_option autoImplicit false

/-!
Calls to a service made at the same time. Each access of a call is one step, taken under a lock, and a
schedule says which call takes the next one.
-/

namespace Rulebook.Service

/-- An access with its answer. -/
structure Event where
  access : Access
  answer : access.Answer

/-- A call under way, with what it has done and how it goes on. -/
structure Activity where
  settings : Settings
  call : Call
  log : List Event
  rest : Dialogue (Except Error Reply)

def Activity.start (s : Settings) (c : Call) : Activity := ⟨s, c, [], ExceptT.run (c.operation s)⟩

def Activity.reply? (a : Activity) : Option (Except Error Reply) :=
  match a.rest with
  | .done reply => some reply
  | .ask .. => none

/-- What the calls share, the calls made so far and their accesses in the order they came in. -/
structure System where
  shared : Shared
  calls : List Activity
  history : List Event

inductive Move where
  | call (s : Settings) (c : Call)
  /-- The next access of the call at this place, if it is not done. -/
  | access (place : Nat)

namespace System

def start : System := ⟨Shared.empty, [], []⟩

def move (σ : System) : Move → System
  | .call s c => { σ with calls := σ.calls ++ [Activity.start s c] }
  | .access place =>
    match σ.calls[place]? with
    | some ⟨s, c, log, .ask access next⟩ =>
      let (answer, shared) := access.perform σ.shared
      let event : Event := ⟨access, answer⟩
      ⟨shared, σ.calls.set place ⟨s, c, log ++ [event], next answer⟩, σ.history ++ [event]⟩
    | _ => σ

def run (schedule : List Move) : System := schedule.foldl move start

end System
end Rulebook.Service
