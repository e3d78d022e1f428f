import Rulebook.Service.Operations
set_option autoImplicit false

/-!
Calls to a service, and sessions in which they are made one after the other, with the settings swapped
between them.
-/

namespace Rulebook.Service

/-- A call brings the draws that it may need. -/
inductive Call where
  | create (q : CreateRequest)
  | combine (draws : Draws) (q : CombineRequest)
  | evaluate (q : EvaluateRequest)
  | getTree (identifier : Text)
  | delete (identifier : Text)
  | read (text : Text)
  | clearCache

inductive Reply where
  | record (r : Record)
  | verdict (v : Verdict)
  | rule (r : Rule)
  | nothing

def Call.operation (s : Settings) : Call → Operation Reply
  | create q => .record <$> Service.create s q
  | combine draws q => .record <$> Service.combine s draws q
  | evaluate q => .verdict <$> Service.evaluate q
  | getTree identifier => .rule <$> Service.getTree identifier
  | delete identifier => .record <$> Service.delete identifier
  | read text => .rule <$> Service.read s text
  | clearCache => (fun _ => .nothing) <$> Operation.ask .clear

structure Session where
  settings : Settings
  shared : Shared

inductive Turn where
  | call (c : Call)
  | reconfigure (s : Settings)

namespace Session

def turn (s : Session) : Turn → Except Error Reply × Session
  | .call c =>
    let (reply, shared) := (c.operation s.settings).run s.shared
    (reply, { s with shared := shared })
  | .reconfigure settings => (.ok .nothing, { s with settings := settings })

def run (s : Session) : List Turn → List (Except Error Reply) × Session
  | [] => ([], s)
  | t :: ts =>
    let (reply, s') := s.turn t
    let (replies, s'') := s'.run ts
    (reply :: replies, s'')

end Session
end Rulebook.Service
