import Rulebook.Cache
import Rulebook.Store
set_option autoImplicit false

/-!
What clients of a service share is a store and a cache. An operation is a finite dialogue with them:
each access answers at once, as under a lock, and the accesses of other clients may come between two of
its own.
-/

namespace Rulebook

structure Shared where
  store : Store
  cache : Cache

def Shared.empty : Shared := ⟨Store.empty, Cache.empty⟩

inductive Access where
  | insert (name : Text) (text : Option Text) (rule : Rule)
  | find (identifier : Text)
  | remove (id : Nat)
  | lookup (text : Text)
  | keep (text : Text) (rule : Rule)
  | clear

namespace Access

abbrev Answer : Access → Type
  | insert .. => Except Error Record
  | find _ => Option Record
  | remove _ => Option Record
  | lookup _ => Option Rule
  | keep .. => Unit
  | clear => Unit

/-- The answer of an access, and what is shared afterwards. -/
def perform : (a : Access) → Shared → a.Answer × Shared
  | insert name text rule, s =>
    match s.store.insert name text rule with
    | .ok (record, store) => (.ok record, { s with store := store })
    | .error e => (.error e, s)
  | find identifier, s => (s.store.find? identifier, s)
  | remove id, s =>
    match s.store.remove id with
    | some (record, store) => (some record, { s with store := store })
    | none => (none, s)
  | lookup text, s => (s.cache.find? text, s)
  | keep text rule, s => ((), { s with cache := s.cache.keep text rule })
  | clear, s => ((), { s with cache := Cache.empty })

end Access

/-- A result, or an access and how to go on with its answer. -/
inductive Dialogue (α : Type) where
  | done (a : α)
  | ask (access : Access) (next : access.Answer → Dialogue α)

namespace Dialogue

variable {α β : Type}

def bind (d : Dialogue α) (f : α → Dialogue β) : Dialogue β :=
  match d with
  | done a => f a
  | ask access next => ask access fun answer => (next answer).bind f

instance : Monad Dialogue where
  pure := done
  bind := bind

def run : Dialogue α → Shared → α × Shared
  | done a, s => (a, s)
  | ask access next, s => (next (access.perform s).1).run (access.perform s).2

theorem run_bind (d : Dialogue α) (f : α → Dialogue β) (s : Shared) :
    (d.bind f).run s = (f (d.run s).1).run (d.run s).2 := by
  induction d generalizing s with
  | done a => rfl
  | ask access next ih => exact ih _ _

theorem bind_done (d : Dialogue α) : d.bind done = d := by
  induction d with
  | done a => rfl
  | ask access next ih => simp only [bind, ih]

theorem bind_assoc {γ : Type} (d : Dialogue α) (f : α → Dialogue β) (g : β → Dialogue γ) :
    (d.bind f).bind g = d.bind fun a => (f a).bind g := by
  induction d with
  | done a => rfl
  | ask access next ih => simp only [bind, ih]

instance : LawfulMonad Dialogue :=
  LawfulMonad.mk' Dialogue (fun d => bind_done d) (fun _ _ => rfl) bind_assoc

end Dialogue

/-- A dialogue that ends in a result or in a failure. -/
abbrev Operation (α : Type) := ExceptT Error Dialogue α

namespace Operation

def ask (access : Access) : Operation access.Answer :=
  ExceptT.lift (Dialogue.ask access Dialogue.done)

def settle {α : Type} (e : Except Error α) : Operation α := ExceptT.mk (Dialogue.done e)

def run {α : Type} (o : Operation α) (s : Shared) : Except Error α × Shared :=
  Dialogue.run (ExceptT.run o) s

section
variable {α β : Type}

@[simp] theorem run_settle (e : Except Error α) (s : Shared) : (settle e).run s = (e, s) := rfl

theorem run_ask_bind (access : Access) (f : access.Answer → Operation β) (s : Shared) :
    (ask access >>= f).run s = (f (access.perform s).1).run (access.perform s).2 := rfl

/-- After a result it goes on with what follows, after a failure it ends. -/
theorem run_bind (o : Operation α) (f : α → Operation β) (s : Shared) :
    (o >>= f).run s =
      match (o.run s).1 with
      | .ok a => (f a).run (o.run s).2
      | .error e => (.error e, (o.run s).2) := by
  have ho : o.run s = Dialogue.run o s := rfl
  refine (Dialogue.run_bind _ _ s).trans ?_
  rw [ho]
  cases (Dialogue.run o s).1 <;> rfl

theorem run_map (f : α → β) (o : Operation α) (s : Shared) :
    (f <$> o).run s = ((o.run s).1.map f, (o.run s).2) := by
  rw [← bind_pure_comp, run_bind]
  cases (o.run s).1 <;> rfl

end

end Operation
end Rulebook
