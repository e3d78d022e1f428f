import Rulebook.Proofs.Caching
import Rulebook.Proofs.Ledger
set_option autoImplicit false

/-!
The states in which a service can be found: after any accesses, be they those of operations or made to the
store directly, as long as nothing but what a text spells is kept under it. In each of them the store is
consistent and the cache is sound.
-/

namespace Rulebook

theorem Access.store_perform (access : Access) (s : Shared) :
    (access.perform s).2.store = s.store ∨ ∃ u, (access.perform s).2.store = (s.store.update u).2 := by
  cases access with
  | insert name text rule =>
    refine .inr ⟨.insert name text rule, ?_⟩
    simp only [perform, Store.update, Update.apply]
    cases s.store.insert name text rule <;> rfl
  | remove id =>
    refine .inr ⟨.remove id, ?_⟩
    simp only [perform, Store.update, Update.apply]
    cases s.store.remove id <;> rfl
  | find identifier => exact .inl rfl
  | lookup text => exact .inl rfl
  | keep text rule => exact .inl rfl
  | clear => exact .inl rfl

namespace Shared

inductive Reachable : Shared → Prop where
  | empty : Reachable Shared.empty
  | access {s : Shared} (h : Reachable s) (access : Access)
      (hp : Contract.caching.promises access) : Reachable (access.perform s).2

namespace Reachable

variable {s : Shared}

theorem consistent (h : s.Reachable) : s.store.Consistent := by
  induction h with
  | empty => exact Store.consistent_empty
  | access _ access _ ih =>
    obtain hsame | ⟨u, hu⟩ := access.store_perform _
    · rwa [hsame]
    · rw [hu]
      exact ih.update u

theorem sound (h : s.Reachable) : s.cache.Sound := by
  induction h with
  | empty => exact Cache.sound_empty
  | access _ access hp ih => exact (ih.perform hp).2

theorem operation (h : s.Reachable) (settings : Settings) (c : Service.Call) :
    ((c.operation settings).run s).2.Reachable := by
  have hkeeps : (c.operation settings).Keeps Contract.caching :=
    Service.keeps_operation (Contract.caching_reads.handles fun _ _ _ => trivial) trivial
      (fun _ _ _ => trivial) settings
  exact (Dialogue.Meets.run
    (fun access _ hp ht => ⟨(ht.sound.perform hp).1, ht.access access hp⟩) hkeeps h).2

end Reachable
end Shared

namespace Service.Session

variable {session : Session}

theorem reachable_turn (h : session.shared.Reachable) (turn : Turn) :
    (session.turn turn).2.shared.Reachable := by
  cases turn with
  | call c => exact h.operation session.settings c
  | reconfigure settings => exact h

/-- Sessions stay among these states. -/
theorem reachable_run (h : session.shared.Reachable) (turns : List Turn) :
    (session.run turns).2.shared.Reachable := by
  induction turns generalizing session with
  | nil => exact h
  | cons turn turns ih => exact ih (reachable_turn h turn)

end Service.Session
end Rulebook
