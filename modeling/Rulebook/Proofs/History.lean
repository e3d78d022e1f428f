import Mathlib.Data.List.Nodup
import Rulebook.Proofs.Ledger
import Rulebook.Service.Schedule
set_option autoImplicit false

/-!
What a history of accesses says of the store. The records inserted have ascending ids, a record is removed
once at most, and the store holds what was inserted and not removed, in that order.
-/

namespace Rulebook.Service

namespace Event

/-- The record that an insertion stored. -/
def inserted? : Event → Option Record
  | ⟨.insert _ _ _, .ok r⟩ => some r
  | _ => none

/-- The record that a removal took out. -/
def removed? : Event → Option Record
  | ⟨.remove _, some r⟩ => some r
  | _ => none

/-- The record answered is one of these, and the one asked for. -/
def Names (records : List Record) : Event → Prop
  | ⟨.insert name text rule, .ok r⟩ =>
    r ∈ records ∧ r.name = name ∧ r.text = text ∧ r.rule = rule
  | ⟨.find _, some r⟩ => r ∈ records
  | ⟨.remove id, some r⟩ => r ∈ records ∧ r.id = id
  | _ => True

theorem Names.mono {records more : List Record} (hsub : ∀ r ∈ records, r ∈ more) {e : Event}
    (h : e.Names records) : e.Names more := by
  unfold Names at h ⊢
  split
  · exact ⟨hsub _ h.1, h.2⟩
  · exact hsub _ h
  · exact ⟨hsub _ h.1, h.2⟩
  · trivial

end Event

def inserted (history : List Event) : List Record := history.filterMap Event.inserted?

def removed (history : List Event) : List Record := history.filterMap Event.removed?

@[simp] theorem inserted_append (h k : List Event) : inserted (h ++ k) = inserted h ++ inserted k :=
  List.filterMap_append

@[simp] theorem removed_append (h k : List Event) : removed (h ++ k) = removed h ++ removed k :=
  List.filterMap_append

/-- The events are the accesses made from the one state to the other, each with the answer it got. -/
inductive Replays (s : Shared) : List Event → Shared → Prop where
  | nil : Replays s [] s
  | snoc {history : List Event} {t : Shared} (h : Replays s history t) (access : Access) :
    Replays s (history ++ [⟨access, (access.perform t).1⟩]) (access.perform t).2

theorem Replays.run {α : Type} {s t : Shared} {history : List Event} (h : Replays s history t)
    (d : Dialogue α) : ∃ later, Replays s later (d.run t).2 := by
  induction d generalizing history t with
  | done a => exact ⟨history, h⟩
  | ask access next ih => exact ih _ (h.snoc access)

/-- A session makes accesses, one after the other. -/
theorem Session.exists_replays (turns : List Turn) {s : Shared} {history : List Event}
    (session : Session) (h : Replays s history session.shared) :
    ∃ later, Replays s later (session.run turns).2.shared := by
  induction turns generalizing session history with
  | nil => exact ⟨history, h⟩
  | cons turn turns ih =>
    cases turn with
    | call c =>
      obtain ⟨later, hlater⟩ := h.run (ExceptT.run (c.operation session.settings))
      exact ih _ hlater
    | reconfigure settings => exact ih _ h

/-- Of the records stored so far, those removed are gone from the store and the others are there. -/
structure Accounts (stored removed : List Record) (s : Store) : Prop where
  consistent : s.Consistent
  ascending : stored.Pairwise fun a b => a.id < b.id
  id_le : ∀ r ∈ stored, r.id ≤ s.lastId
  toList : s.toList = stored.filter fun r => r ∉ removed
  nodup_removed : removed.Nodup
  removed_subset : ∀ r ∈ removed, r ∈ stored

namespace Accounts

variable {stored removed : List Record} {s s' : Store} {r : Record}

theorem empty : Accounts [] [] Store.empty where
  consistent := Store.consistent_empty
  ascending := .nil
  id_le _ hr := by cases hr
  toList := rfl
  nodup_removed := .nil
  removed_subset _ hr := by cases hr

theorem mem_stored (h : Accounts stored removed s) (hr : r ∈ s.toList) : r ∈ stored := by
  rw [h.toList] at hr
  exact (List.mem_filter.1 hr).1

theorem not_mem_removed (h : Accounts stored removed s) (hr : r ∈ s.toList) : r ∉ removed := by
  rw [h.toList] at hr
  simpa using (List.mem_filter.1 hr).2

/-- Of all records ever stored, ids tell which is which. -/
theorem eq_of_id_eq (h : Accounts stored removed s) {a b : Record} (ha : a ∈ stored) (hb : b ∈ stored)
    (hid : a.id = b.id) : a = b := by
  have hnodup : (stored.map Record.id).Nodup :=
    List.pairwise_map.2 (h.ascending.imp Nat.ne_of_lt)
  exact List.inj_on_of_nodup_map hnodup ha hb hid

/-- A record with the next id comes. -/
theorem insert (h : Accounts stored removed s) (hid : r.id = s.lastId + 1) (hc : s'.Consistent)
    (hlist : s'.toList = s.toList ++ [r]) (hlast : s'.lastId = s.lastId + 1) :
    Accounts (stored ++ [r]) removed s' where
  consistent := hc
  ascending := by
    refine List.pairwise_append.2 ⟨h.ascending, List.pairwise_singleton _ _, ?_⟩
    intro a ha b hb
    rw [List.mem_singleton.1 hb, hid]
    exact Nat.lt_succ_of_le (h.id_le a ha)
  id_le a ha := by
    rw [hlast]
    obtain ha | ha := List.mem_append.1 ha
    · exact Nat.le_succ_of_le (h.id_le a ha)
    · exact Nat.le_of_eq (List.mem_singleton.1 ha ▸ hid)
  toList := by
    have hnew : r ∉ removed := fun hr => by
      have hle := h.id_le r (h.removed_subset r hr)
      omega
    rw [hlist, h.toList, List.filter_append]
    simp [hnew]
  nodup_removed := h.nodup_removed
  removed_subset a ha := List.mem_append_left _ (h.removed_subset a ha)

/-- A record goes. -/
theorem remove (h : Accounts stored removed s) (hr : r ∈ s.toList) (hc : s'.Consistent)
    (hlist : s'.toList = s.toList.filter fun a => a.id ≠ r.id) (hlast : s'.lastId = s.lastId) :
    Accounts stored (removed ++ [r]) s' where
  consistent := hc
  ascending := h.ascending
  id_le a ha := by
    rw [hlast]
    exact h.id_le a ha
  toList := by
    rw [hlist, h.toList, List.filter_filter]
    refine List.filter_congr fun a ha => ?_
    have hid : a.id = r.id ↔ a = r :=
      ⟨h.eq_of_id_eq ha (h.mem_stored hr), fun he => congrArg Record.id he⟩
    simp [hid, not_or, and_comm]
  nodup_removed := by
    refine List.nodup_append.2 ⟨h.nodup_removed, List.nodup_singleton r, fun a ha b hb => ?_⟩
    rw [List.mem_singleton.1 hb]
    exact fun he => h.not_mem_removed hr (he ▸ ha)
  removed_subset a ha := by
    obtain ha | ha := List.mem_append.1 ha
    · exact h.removed_subset a ha
    · rw [List.mem_singleton.1 ha]
      exact h.mem_stored hr

end Accounts

/-- The history accounts for the store, and its events are about the records in it. -/
structure Recorded (history : List Event) (s : Store) : Prop
    extends Accounts (inserted history) (removed history) s where
  names : ∀ e ∈ history, e.Names (inserted history)

namespace Recorded

variable {h : List Event} {s : Store} {e : Event}

theorem empty : Recorded [] Store.empty := ⟨Accounts.empty, fun _ he => by cases he⟩

/-- One event more, by which these records have come and those have gone. -/
theorem snoc (hr : Recorded h s) {came gone : List Record} {s' : Store}
    (haccounts : Accounts (inserted h ++ came) (removed h ++ gone) s')
    (hcame : inserted [e] = came) (hgone : removed [e] = gone)
    (hnames : e.Names (inserted h ++ came)) : Recorded (h ++ [e]) s' := by
  have hinserted : inserted (h ++ [e]) = inserted h ++ came := by rw [inserted_append, hcame]
  have hremoved : removed (h ++ [e]) = removed h ++ gone := by rw [removed_append, hgone]
  refine ⟨?_, fun e' he' => ?_⟩
  · rwa [hinserted, hremoved]
  · rw [hinserted]
    obtain he' | he' := List.mem_append.1 he'
    · exact (hr.names e' he').mono fun r => List.mem_append_left _
    · rwa [List.mem_singleton.1 he']

/-- An event by which no record comes or goes. -/
theorem quiet (hr : Recorded h s) (hcame : inserted [e] = []) (hgone : removed [e] = [])
    (hnames : e.Names (inserted h)) : Recorded (h ++ [e]) s := by
  have haccounts := hr.toAccounts
  rw [← List.append_nil (inserted h), ← List.append_nil (removed h)] at haccounts
  exact hr.snoc haccounts hcame hgone (by rwa [List.append_nil])

/-- One access more is recorded too. -/
theorem perform {s : Shared} (hr : Recorded h s.store) (access : Access) :
    Recorded (h ++ [⟨access, (access.perform s).1⟩]) (access.perform s).2.store := by
  cases access with
  | insert name text rule =>
    obtain ⟨f, -, hs⟩ | ⟨-, -, hs⟩ | ⟨-, -, r, s', rfl, hs, hc, hlist, hlast⟩ :=
      hr.consistent.insert_cases name text rule
    · simp only [Access.perform, hs]
      exact hr.quiet rfl rfl trivial
    · simp only [Access.perform, hs]
      exact hr.quiet rfl rfl trivial
    · simp only [Access.perform, hs]
      have haccounts := hr.toAccounts.insert rfl hc hlist hlast
      rw [← List.append_nil (removed h)] at haccounts
      exact hr.snoc haccounts rfl rfl ⟨by simp, rfl, rfl, rfl⟩
  | find identifier =>
    refine hr.quiet rfl rfl ?_
    simp only [Access.perform]
    cases hf : s.store.find? identifier with
    | none => trivial
    | some r => exact hr.mem_stored (hr.consistent.find?_eq_some_iff.1 hf).1
  | remove id =>
    obtain ⟨-, hs⟩ | ⟨r, s', -, hmem, rfl, hs, hc, hlist, hlast⟩ := hr.consistent.remove_cases id
    · simp only [Access.perform, hs]
      exact hr.quiet rfl rfl trivial
    · simp only [Access.perform, hs]
      have haccounts := hr.toAccounts.remove hmem hc hlist hlast
      rw [← List.append_nil (inserted h)] at haccounts
      exact hr.snoc haccounts rfl rfl ⟨by simpa using hr.mem_stored hmem, rfl⟩
  | lookup text => exact hr.quiet rfl rfl trivial
  | keep text rule => exact hr.quiet rfl rfl trivial
  | clear => exact hr.quiet rfl rfl trivial

end Recorded

theorem Replays.recorded {history : List Event} {t : Shared} (h : Replays Shared.empty history t) :
    Recorded history t.store := by
  induction h with
  | nil => exact .empty
  | snoc _ access ih => exact ih.perform access

end Rulebook.Service
