import Rulebook.Proofs.Ledger
import Rulebook.Service.Session
set_option autoImplicit false

/-!
What accesses and operations come to where it is known what they meet in the store: a name that is free or
taken, a record that is listed, an identifier that finds a record or none.
-/

namespace Rulebook

/-! ### One access -/

namespace Access

variable {s : Shared} {name : Text}

theorem perform_find {t : Text} {r : Record} (hf : s.store.find? t = some r) :
    (find t).perform s = (some r, s) := by
  rw [perform, hf]

theorem perform_insert_free (h : s.store.Consistent) (hname : Name.check name = .ok ())
    (hfree : name ∉ s.store.names) (text : Option Text) (rule : Rule) :
    ∃ t, (insert name text rule).perform s =
        (.ok ⟨s.store.lastId + 1, name, text, rule⟩, { s with store := t }) ∧
      t.Consistent ∧ t.toList = s.store.toList ++ [⟨s.store.lastId + 1, name, text, rule⟩] ∧
      t.lastId = s.store.lastId + 1 := by
  obtain ⟨t, hinsert, ht⟩ := h.insert_free hname hfree text rule
  exact ⟨t, by simp only [perform, hinsert], ht⟩

theorem perform_insert_taken (h : s.store.Consistent) (htaken : name ∈ s.store.names)
    (text : Option Text) (rule : Rule) :
    (insert name text rule).perform s = (.error (.duplicateName name), s) := by
  simp only [perform, h.insert_taken htaken]

theorem perform_remove (h : s.store.Consistent) {r : Record} (hr : r ∈ s.store.toList) :
    ∃ t, (remove r.id).perform s = (some r, { s with store := t }) ∧ t.Consistent ∧
      t.toList = s.store.toList.filter (fun a => a.id ≠ r.id) ∧ t.lastId = s.store.lastId := by
  obtain ⟨t, hremove, ht⟩ := h.remove_listed hr
  exact ⟨t, by simp only [perform, hremove], ht⟩

theorem perform_remove_none (h : s.store.Consistent) {id : Nat}
    (hid : ∀ r ∈ s.store.toList, r.id ≠ id) : (remove id).perform s = (none, s) := by
  obtain ⟨-, hremove⟩ | ⟨r, -, -, hr, heq, -⟩ := h.remove_cases id
  · simp only [perform, hremove]
  · exact absurd heq (hid r hr)

end Access

/-! ### One operation -/

namespace Service

open Operation

variable {s : Shared} {t : Text} {r : Record}

theorem run_find (hf : s.store.find? t = some r) : (find t).run s = (.ok r, s) := by
  rw [find, run_ask_bind, Access.perform_find hf]
  rfl

theorem run_find_none (hf : s.store.find? t = none) :
    (find t).run s = (.error (.ruleNotFound t), s) := by
  rw [find, run_ask_bind]
  simp only [Access.perform, hf]
  rfl

theorem run_getTree (hf : s.store.find? t = some r) : (getTree t).run s = (.ok r.rule, s) := by
  rw [getTree, run_bind, run_find hf]
  rfl

theorem run_getTree_none (hf : s.store.find? t = none) :
    (getTree t).run s = (.error (.ruleNotFound t), s) := by
  rw [getTree, run_bind, run_find_none hf]

theorem run_evaluate (hf : s.store.find? t = some r) (d : Data) :
    (evaluate ⟨.reference t, d⟩).run s = (r.rule.judge d, s) := by
  have hsubject : (subjectRule (.reference t)).run s = (.ok r.rule, s) := run_getTree hf
  rw [evaluate, run_bind, hsubject]
  rfl

theorem run_resolve (hf : s.store.find? t = some r) (settings : Settings) :
    (resolve settings t).run s = (.ok r.rule, s) := by
  rw [resolve, run_ask_bind, Access.perform_find hf]
  rfl

theorem run_delete (h : s.store.Consistent) (hf : s.store.find? t = some r) :
    ∃ store, (delete t).run s = (.ok r, { s with store := store }) ∧
      store.toList = s.store.toList.filter fun a => a ≠ r := by
  have hr := (h.find?_eq_some_iff.1 hf).1
  obtain ⟨store, hremove, -, hlist, -⟩ := Access.perform_remove h hr
  refine ⟨store, ?_, ?_⟩
  · rw [delete, run_bind, run_find hf]
    dsimp only
    rw [run_ask_bind, hremove]
    rfl
  · rw [hlist]
    refine List.filter_congr fun b hb => ?_
    have hid : b.id = r.id ↔ b = r := ⟨h.eq_of_id_eq b hb r hr, fun he => he ▸ rfl⟩
    simp [hid]

/-- Without caching, a rule is stored by one access. -/
theorem run_create {settings : Settings} (hs : settings.caching = false) {q : CreateRequest}
    {name text : Text} {rule : Rule} (hq : q.complete? = some (name, text))
    (hread : Rule.read text = .ok rule) (s : Shared) :
    (create settings q).run s = (Access.insert name (some text) rule).perform s := by
  have hrule : read settings text = settle (.ok rule) := by
    rw [read, if_neg (by simp [hs]), hread]
  rw [create, hq]
  dsimp only
  rw [hrule, run_bind, run_settle]
  rfl

/-- The accesses of a deletion, and how it goes on after each answer. -/
theorem delete_dialogue (settings : Settings) (t : Text) :
    ExceptT.run ((Call.delete t).operation settings) =
      .ask (.find t) fun
        | some r => .ask (.remove r.id) fun
          | some a => .done (.ok (.record a))
          | none => .done (.error (.ruleNotFound t))
        | none => .done (.error (.ruleNotFound t)) := by
  refine congrArg (Dialogue.ask _) (funext fun found => ?_)
  cases found with
  | none => rfl
  | some r =>
    refine congrArg (Dialogue.ask _) (funext fun removed => ?_)
    cases removed <;> rfl

/-! ### Sessions -/

namespace Session

/-- A call replies what it makes of the result of its operation. -/
theorem turn_eq {session : Session} {c : Call} {α : Type} {f : α → Reply} {o : Operation α}
    (hc : c.operation session.settings = f <$> o) :
    session.turn (.call c) =
      ((o.run session.shared).1.map f, { session with shared := (o.run session.shared).2 }) := by
  simp only [turn, hc, run_map]

/-- What is created first is the only record. -/
theorem turn_create {settings : Settings} (hs : settings.caching = false) {name text : Text}
    {rule : Rule} (hq : CreateRequest.complete? ⟨some name, some text⟩ = some (name, text))
    (hread : Rule.read text = .ok rule) (hname : Name.check name = .ok ()) :
    let created := turn ⟨settings, Shared.empty⟩ (.call (.create ⟨some name, some text⟩))
    created.1 = .ok (.record ⟨1, name, some text, rule⟩) ∧ created.2.shared.store.Consistent ∧
      created.2.shared.store.toList = [⟨1, name, some text, rule⟩] ∧
      created.2.shared.store.lastId = 1 := by
  intro created
  obtain ⟨t, hinsert, ht⟩ := Access.perform_insert_free (s := Shared.empty) Store.consistent_empty
    hname List.not_mem_nil (some text) rule
  have hcreated : created = (.ok (.record ⟨1, name, some text, rule⟩), ⟨settings, ⟨t, Cache.empty⟩⟩) := by
    refine (turn_eq (f := .record) rfl).trans ?_
    rw [run_create hs hq hread, hinsert]
    rfl
  rw [hcreated]
  exact ⟨rfl, ht⟩

/-- So it is after a session of that one call. -/
theorem run_create {settings : Settings} (hs : settings.caching = false) {name text : Text}
    {rule : Rule} (hq : CreateRequest.complete? ⟨some name, some text⟩ = some (name, text))
    (hread : Rule.read text = .ok rule) (hname : Name.check name = .ok ()) :
    let store := (Session.run ⟨settings, Shared.empty⟩
      [.call (.create ⟨some name, some text⟩)]).2.shared.store
    store.Consistent ∧ store.toList = [⟨1, name, some text, rule⟩] ∧ store.lastId = 1 :=
  (turn_create hs hq hread hname).2

end Session

end Service
end Rulebook
