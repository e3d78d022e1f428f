import Rulebook.Proofs.Caching
import Rulebook.Proofs.Canonical
import Rulebook.Proofs.Ledger
set_option autoImplicit false

/-!
What a service stores. Rules come in by being read or combined, so that each of them is canonical and within
the limit of depth, whatever is called and in whatever settings.
-/

namespace Rulebook

namespace Rule

/-- Canonical and within the limit of depth: what can be read, and what can be stored. -/
structure Storable (r : Rule) : Prop where
  canonical : r.Canonical
  depth_le : r.depth ≤ maxDepth

theorem storable_of_read {text : Text} {r : Rule} (h : Rule.read text = .ok r) : r.Storable := by
  unfold Rule.read at h
  split at h
  · rename_i hread
    cases h
    obtain ⟨hcanonical, hdepth⟩ := canonical_of_ofText hread
    exact ⟨hcanonical, hdepth⟩
  · cases h

theorem storable_of_combination {s : Settings} {op : Connective} {rules : List Rule} {r : Rule}
    (hrules : ∀ r ∈ rules, r.Storable) (h : Service.combination s op rules = .ok r) :
    r.Storable := by
  unfold Service.combination at h
  split at h
  · rename_i hcombine
    cases h
    obtain ⟨hcanonical, hdepth⟩ := canonical_combine (fun r hr => (hrules r hr).canonical) hcombine
    exact ⟨hcanonical, hdepth⟩
  · cases h

end Rule

/-- Storable rules are stored, as long as storable ones are found and the cache is sound. -/
def Contract.storing : Contract where
  promises access := Contract.caching.promises access ∧
    match access with
    | .insert _ _ rule => rule.Storable
    | _ => True
  assumes access answer := Contract.caching.assumes access answer ∧
    match access, answer with
    | .find _, some r => r.rule.Storable
    | _, _ => True

theorem Contract.storing_handles : Contract.storing.Handles Rule.Storable where
  find _ := ⟨trivial, trivial⟩
  lookup _ := ⟨trivial, trivial⟩
  keep _ _ h := ⟨h, trivial⟩
  insert _ _ _ h := ⟨trivial, h⟩
  spelled _ _ h := Rule.storable_of_read h
  looked _ _ h := Rule.storable_of_read h.1
  found _ _ h := h.2
  combined _ _ _ _ := Rule.storable_of_combination

/-- A consistent store of storable rules, and a sound cache. -/
structure Shared.Settled (s : Shared) : Prop where
  consistent : s.store.Consistent
  storable : ∀ r ∈ s.store.toList, r.rule.Storable
  sound : s.cache.Sound

namespace Shared

theorem settled_empty : empty.Settled where
  consistent := Store.consistent_empty
  storable _ hr := by cases hr
  sound := Cache.sound_empty

/-- One access more. -/
theorem Settled.perform {s : Shared} (h : s.Settled) {access : Access}
    (hp : Contract.storing.promises access) :
    Contract.storing.assumes access (access.perform s).1 ∧ (access.perform s).2.Settled := by
  obtain ⟨hanswer, hsound⟩ := h.sound.perform hp.1
  cases access with
  | insert name text rule =>
    refine ⟨⟨hanswer, trivial⟩, ?_⟩
    obtain ⟨f, -, hs⟩ | ⟨-, -, hs⟩ | ⟨-, -, r, t, rfl, hs, hc, hlist, -⟩ :=
      h.consistent.insert_cases name text rule
    · simpa only [Access.perform, hs] using h
    · simpa only [Access.perform, hs] using h
    · simp only [Access.perform, hs]
      refine ⟨hc, ?_, h.sound⟩
      rw [hlist, List.forall_mem_append]
      exact ⟨h.storable, List.forall_mem_singleton.2 hp.2⟩
  | find identifier =>
    refine ⟨⟨hanswer, ?_⟩, h⟩
    simp only [Access.perform]
    cases hf : s.store.find? identifier with
    | none => trivial
    | some r => exact h.storable r (h.consistent.find?_eq_some_iff.1 hf).1
  | remove id =>
    refine ⟨⟨hanswer, trivial⟩, ?_⟩
    obtain ⟨-, hs⟩ | ⟨r, t, -, -, -, hs, hc, hlist, -⟩ := h.consistent.remove_cases id
    · simpa only [Access.perform, hs] using h
    · simp only [Access.perform, hs]
      refine ⟨hc, fun a ha => ?_, h.sound⟩
      rw [hlist] at ha
      exact h.storable a (List.mem_filter.1 ha).1
  | lookup text => exact ⟨⟨hanswer, trivial⟩, h⟩
  | keep text rule => exact ⟨⟨hanswer, trivial⟩, h.consistent, h.storable, hsound⟩
  | clear => exact ⟨⟨hanswer, trivial⟩, h.consistent, h.storable, hsound⟩

end Shared

namespace Service

theorem settled_operation {σ : Shared} (h : σ.Settled) (s : Settings) (c : Call) :
    ((c.operation s).run σ).2.Settled := by
  have hkeeps : (c.operation s).Keeps Contract.storing :=
    keeps_operation Contract.storing_handles ⟨trivial, trivial⟩ (fun _ _ _ => ⟨trivial, trivial⟩) s
  exact (Dialogue.Meets.run (fun _ _ hp hs => hs.perform hp) hkeeps h).2

/-- However a service is called and reconfigured, it stays settled. -/
theorem Session.settled {session : Session} (h : session.shared.Settled) (turns : List Turn) :
    (session.run turns).2.shared.Settled := by
  induction turns generalizing session with
  | nil => exact h
  | cons turn turns ih =>
    cases turn with
    | call c => exact ih (settled_operation h session.settings c)
    | reconfigure settings => exact ih h

end Service
end Rulebook
