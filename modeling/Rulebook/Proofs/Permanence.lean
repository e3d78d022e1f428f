import Rulebook.Proofs.Atomicity
import Rulebook.Proofs.References
set_option autoImplicit false

/-!
Stored rules do not change. What is looked up under the id of a record is the rule of that record until a
deletion answers it, and nothing from then on, whatever else is called in the meantime. The rule is what
the text of the request spells, or what the references of the request combined to when it was made.
-/

namespace Rulebook

/-! ### Lookup by id -/

namespace Store

variable {s t : Store} {r : Record}

/-- Gaining a record is seen under its id alone. -/
theorem Gains.byId? (h : s.Gains r t) (hs : s.Consistent) (ht : t.Consistent) (id : Nat) :
    t.byId? id = if id = r.id then some r else s.byId? id := by
  ext a
  rw [ht.byId?_eq_some_iff, h.toList, List.mem_append, List.mem_singleton]
  split
  · rename_i hid
    subst hid
    rw [Option.some.injEq]
    constructor
    · rintro ⟨ha | rfl, hid⟩
      · have hnone : s.byId? a.id = none := by rw [hid, h.id_eq, hs.byId?_next]
        rw [hs.mem_toList.1 ha] at hnone
        cases hnone
      · rfl
    · rintro rfl
      exact ⟨.inr rfl, rfl⟩
  · rename_i hid
    rw [hs.byId?_eq_some_iff]
    constructor
    · rintro ⟨ha | rfl, rfl⟩
      · exact ⟨ha, rfl⟩
      · exact absurd rfl hid
    · rintro ⟨ha, hid⟩
      exact ⟨.inl ha, hid⟩

theorem Loses.byId? (h : s.Loses r t) (hs : s.Consistent) (ht : t.Consistent) (id : Nat) :
    t.byId? id = if id = r.id then none else s.byId? id := by
  ext a
  rw [ht.byId?_eq_some_iff, h.toList, List.mem_filter, decide_eq_true_eq]
  split
  · rename_i hid
    subst hid
    simp only [reduceCtorEq, iff_false]
    rintro ⟨⟨ha, hne⟩, hid⟩
    exact hne (hs.eq_of_id_eq a ha r h.mem hid)
  · rename_i hid
    rw [hs.byId?_eq_some_iff]
    constructor
    · rintro ⟨⟨ha, -⟩, haid⟩
      exact ⟨ha, haid⟩
    · rintro ⟨ha, rfl⟩
      exact ⟨⟨ha, fun he => hid (he ▸ rfl)⟩, rfl⟩

end Store

namespace Service

open Operation

/-! ### What a session deletes -/

/-- The id of the record that a turn deletes, going by its reply. -/
def Turn.deletedId? : Turn → Except Error Reply → Option Nat
  | .call (.delete _), .ok (.record r) => some r.id
  | _, _ => none

namespace Session

variable {session : Session}

/-- The ids of the records that a session deletes in these turns. -/
def deletedIds (session : Session) (turns : List Turn) : List Nat :=
  (turns.zip (session.run turns).1).filterMap fun p => p.1.deletedId? p.2

@[simp] theorem deletedIds_nil (session : Session) : session.deletedIds [] = [] := rfl

theorem mem_deletedIds_cons {turn : Turn} {turns : List Turn} {id : Nat} :
    id ∈ session.deletedIds (turn :: turns) ↔
      turn.deletedId? (session.turn turn).1 = some id ∨
        id ∈ (session.turn turn).2.deletedIds turns := by
  simp only [deletedIds, run, List.zip_cons_cons, List.filterMap_cons]
  cases turn.deletedId? (session.turn turn).1 <;> simp [eq_comm]

/-- A turn leaves the records alone, or adds one, or takes out the one that it deletes. -/
theorem turn_cases (h : session.shared.store.Consistent) (turn : Turn) :
    (turn.deletedId? (session.turn turn).1 = none ∧
      (session.turn turn).2.shared.store = session.shared.store) ∨
    (∃ r, turn.deletedId? (session.turn turn).1 = none ∧
      session.shared.store.Gains r (session.turn turn).2.shared.store) ∨
    ∃ r, turn.deletedId? (session.turn turn).1 = some r.id ∧
      session.shared.store.Loses r (session.turn turn).2.shared.store := by
  cases turn with
  | reconfigure settings => exact .inl ⟨rfl, rfl⟩
  | call c =>
    have heffect := effect_operation h session.settings c
    have hturn : session.turn (.call c) =
      (((c.operation session.settings).run session.shared).1,
        { session with shared := ((c.operation session.settings).run session.shared).2 }) := rfl
    rw [hturn]
    generalize (c.operation session.settings).run session.shared = after at heffect ⊢
    obtain ⟨e | reply, τ⟩ := after
    · refine .inl ⟨?_, ?_⟩
      · cases c <;> rfl
      · cases c <;> exact heffect
    · cases c with
      | create q =>
        obtain ⟨r, rfl, -, hgains⟩ := heffect
        exact .inr (.inl ⟨r, rfl, hgains⟩)
      | combine draws q =>
        obtain ⟨r, attempt, rfl, -, hgains⟩ := heffect
        exact .inr (.inl ⟨r, rfl, hgains⟩)
      | delete identifier =>
        obtain ⟨r, rfl, hloses⟩ := heffect
        exact .inr (.inr ⟨r, rfl, hloses⟩)
      | _ => exact .inl ⟨rfl, heffect⟩

/-- One turn: the ids given out so far keep their records, the deleted one apart. -/
theorem byId?_turn (h : session.shared.Reachable) (turn : Turn) {id : Nat}
    (hid : id ≤ session.shared.store.lastId) :
    id ≤ (session.turn turn).2.shared.store.lastId ∧
      (session.turn turn).2.shared.store.byId? id =
        if turn.deletedId? (session.turn turn).1 = some id then none
        else session.shared.store.byId? id := by
  have hs := h.consistent
  have ht := (reachable_turn h turn).consistent
  obtain ⟨hdeleted, hstore⟩ | ⟨r, hdeleted, hgains⟩ | ⟨r, hdeleted, hloses⟩ := turn_cases hs turn
  · rw [hdeleted, hstore]
    exact ⟨hid, rfl⟩
  · have hnext := hgains.id_eq
    have hnew : id ≠ r.id := by omega
    rw [hdeleted, hgains.byId? hs ht, if_neg hnew, hgains.lastId]
    exact ⟨by omega, rfl⟩
  · rw [hdeleted, hloses.byId? hs ht, hloses.lastId]
    simp [hid, eq_comm]

theorem run_cons (session : Session) (turn : Turn) (turns : List Turn) :
    (session.run (turn :: turns)).2 = ((session.turn turn).2.run turns).2 := rfl

/-- A whole run: the ids given out before it keep their records, the deleted ones apart. -/
theorem byId?_run (h : session.shared.Reachable) (turns : List Turn) {id : Nat}
    (hid : id ≤ session.shared.store.lastId) :
    (session.run turns).2.shared.store.byId? id =
      if id ∈ session.deletedIds turns then none else session.shared.store.byId? id := by
  induction turns generalizing session with
  | nil => simp [run]
  | cons turn turns ih =>
    obtain ⟨hle, hturn⟩ := byId?_turn h turn hid
    have hrest := ih (reachable_turn h turn) hle
    rw [run_cons, hrest, hturn]
    simp only [mem_deletedIds_cons]
    split <;> split <;> simp_all

/-- Looking up the text of an id answers the rule under the id, and leaves everything as it is. -/
theorem turn_getTree_ofNat (session : Session) (id : Nat) :
    session.turn (.call (.getTree (Text.ofNat id))) =
      (match if id < 2 ^ Store.idBits then session.shared.store.byId? id else none with
        | some r => .ok (.rule r.rule)
        | none => .error (.ruleNotFound (Text.ofNat id)), session) := by
  have hfind := session.shared.store.find?_ofNat id
  simp only [turn, Call.operation, run_map]
  cases hf : session.shared.store.find? (Text.ofNat id) with
  | some r => rw [run_getTree hf, ← hfind, hf]; rfl
  | none => rw [run_getTree_none hf, ← hfind, hf]; rfl

/-- From this state on, the rule of the record is what is looked up under its id, until a deletion answers
this id. From then on there is no rule under it. -/
structure Stands (session : Session) (r : Record) : Prop where
  kept : ∀ after : List Turn, r.id ∉ session.deletedIds after →
    (session.run after).2.shared.store.byId? r.id = some r ∧
      (r.id < 2 ^ Store.idBits →
        ((session.run after).2.turn (.call (.getTree (Text.ofNat r.id)))).1 = .ok (.rule r.rule))
  gone : ∀ after : List Turn, r.id ∈ session.deletedIds after →
    (session.run after).2.shared.store.byId? r.id = none ∧
      ((session.run after).2.turn (.call (.getTree (Text.ofNat r.id)))).1 =
        .error (.ruleNotFound (Text.ofNat r.id))

theorem stands (h : session.shared.Reachable) {r : Record} (hr : r ∈ session.shared.store.toList) :
    session.Stands r := by
  have hid := h.consistent.mem_toList.1 hr
  have hle := h.consistent.id_le hid
  refine ⟨fun after hafter => ?_, fun after hafter => ?_⟩
  · have hlast := byId?_run h after hle
    rw [if_neg hafter, hid] at hlast
    refine ⟨hlast, fun hfits => ?_⟩
    rw [turn_getTree_ofNat, if_pos hfits, hlast]
  · have hlast := byId?_run h after hle
    rw [if_pos hafter] at hlast
    refine ⟨hlast, ?_⟩
    rw [turn_getTree_ofNat, hlast, ite_self]

end Session

/-! ### Where stored rules come from -/

theorem eq_of_insert {name : Text} {text : Option Text} {rule : Rule} {σ : Shared} {r : Record}
    (h : ((Access.insert name text rule).perform σ).1 = .ok r) :
    r = ⟨σ.store.lastId + 1, name, text, rule⟩ := by
  simp only [Access.perform] at h
  split at h
  · rename_i hinsert
    cases h
    exact (Store.eq_add_of_insert hinsert).1
  · cases h

/-- Whichever name is drawn, the rule is stored as it is, and without a text. -/
theorem eq_of_storeDrawn {s : Settings} {draws : Draws} {rule : Rule} {attempt more : Nat} {σ : Shared}
    {r : Record} (h : ((storeDrawn s draws rule attempt more).run σ).1 = .ok r) :
    r.text = none ∧ r.rule = rule := by
  have hfound {a : Nat} {τ : Shared}
      (h : ((Access.insert (drawnName s draws a) none rule).perform τ).1 = .ok r) :
      r.text = none ∧ r.rule = rule := by
    rw [eq_of_insert h]
    exact ⟨rfl, rfl⟩
  induction more generalizing attempt σ with
  | zero => exact hfound h
  | succ more ih =>
    rw [storeDrawn, run_ask_bind] at h
    split at h
    · exact ih h
    · exact hfound h

/-- A created rule is the one that the text of the request spells, and keeps this text. -/
theorem of_create {s : Settings} {σ : Shared} (hc : σ.cache.Sound) {q : CreateRequest} {r : Record}
    (h : ((create s q).run σ).1 = .ok r) :
    ∃ text, q = ⟨some r.name, some text⟩ ∧ r.text = some text ∧ Rule.read text = .ok r.rule := by
  unfold create at h
  cases hq : q.complete? with
  | none =>
    rw [hq] at h
    cases h
  | some p =>
    obtain ⟨name, text⟩ := p
    obtain rfl := eq_of_complete? hq
    rw [hq] at h
    obtain ⟨c', -, hrun⟩ := (comesTo_read s text σ.store).run_bind
      (fun rule => do settle (← ask (.insert name (some text) rule))) hc
    have hstored : ((settle (Rule.read text) >>= fun rule => do
        settle (← ask (.insert name (some text) rule)) : Operation Record).run ⟨σ.store, c'⟩).1 =
          .ok r := (congrArg Prod.fst hrun).symm.trans h
    cases hread : Rule.read text with
    | error e =>
      rw [hread] at hstored
      cases hstored
    | ok rule =>
      rw [hread] at hstored
      rw [eq_of_insert hstored]
      exact ⟨text, rfl, rfl, hread⟩

/-- What references mean in this state, one by one. -/
theorem resolve_of_meaning {s : Settings} {σ : Shared} (hc : σ.cache.Sound) {references : List Text}
    {rules : List Rule} (h : references.mapM σ.store.meaning = .ok rules) :
    List.Forall₂ (fun t rule => ((resolve s t).run σ).1 = .ok rule) references rules := by
  induction references generalizing rules with
  | nil =>
    cases h
    exact .nil
  | cons t references ih =>
    rw [List.mapM_cons] at h
    obtain ⟨rule, ht, h⟩ := Rule.ok_of_bind h
    obtain ⟨rest, hrest, h⟩ := Rule.ok_of_bind h
    cases h
    exact .cons ((result_resolve hc s t).trans ht) (ih hrest)

/-- A combined rule is what the policy makes of the rules that the references mean, and has no text. -/
theorem of_combine {s : Settings} {σ : Shared} (hc : σ.cache.Sound) {draws : Draws} {q : CombineRequest}
    {r : Record} (h : ((combine s draws q).run σ).1 = .ok r) :
    r.text = none ∧ ∃ op rules, operatorOf q = .ok op ∧
      List.Forall₂ (fun t rule => ((resolve s t).run σ).1 = .ok rule) q.references rules ∧
      s.policy.combine op rules = .ok r.rule := by
  obtain ⟨c', -, hrun⟩ := run_combine_eq s draws q σ.store hc
  have hstored := (congrArg Prod.fst hrun).symm.trans h
  cases hcombined : combined s σ.store q with
  | error e =>
    rw [hcombined] at hstored
    cases hstored
  | ok rule =>
    rw [hcombined] at hstored
    obtain ⟨htext, rfl⟩ := eq_of_storeDrawn hstored
    obtain ⟨op, hop, hcombined⟩ := Rule.ok_of_bind hcombined
    obtain ⟨rules, hrules, hcombined⟩ := Rule.ok_of_bind hcombined
    refine ⟨htext, op, rules, hop, resolve_of_meaning hc hrules, ?_⟩
    unfold combination at hcombined
    split at hcombined
    · cases hcombined
      assumption
    · cases hcombined

/-! ### Stored rules stand -/

namespace Session

variable {session : Session}

/-- The reply of a call is put together from the result of its operation. -/
theorem ok_of_turn {c : Call} {α : Type} {f : α → Reply} {o : Operation α} {reply : Reply}
    (hc : c.operation session.settings = f <$> o)
    (h : (session.turn (.call c)).1 = .ok reply) :
    ∃ a, (o.run session.shared).1 = .ok a ∧ f a = reply := by
  rw [turn_eq hc] at h
  cases ho : (o.run session.shared).1 with
  | error e =>
    rw [ho] at h
    cases h
  | ok a =>
    rw [ho] at h
    cases h
    exact ⟨a, rfl, rfl⟩

/-- What a turn adds stands after it. -/
theorem stands_of_gains (h : session.shared.Reachable) {turn : Turn} {r : Record}
    (hgains : session.shared.store.Gains r (session.turn turn).2.shared.store) :
    (session.turn turn).2.Stands r :=
  stands (reachable_turn h turn) (by rw [hgains.toList]; simp)

end Session

/-- In any state of a session: the rule of a created record is the one that its text spells, and the rule of
a combined one is what the policy of that time made of the rules that the references meant then. These rules
stand, whatever is called afterwards, until they are deleted. What is deleted does not come back. -/
theorem stored_rules_stand {session : Session} (h : session.shared.Reachable) :
    (∀ q r, (session.turn (.call (.create q))).1 = .ok (.record r) →
      (∃ text, q = ⟨some r.name, some text⟩ ∧ r.text = some text ∧ Rule.read text = .ok r.rule) ∧
      (session.turn (.call (.create q))).2.Stands r) ∧
    (∀ draws q r, (session.turn (.call (.combine draws q))).1 = .ok (.record r) →
      (r.text = none ∧ ∃ op rules, operatorOf q = .ok op ∧
        List.Forall₂ (fun t rule => ((resolve session.settings t).run session.shared).1 = .ok rule)
          q.references rules ∧
        session.settings.policy.combine op rules = .ok r.rule) ∧
      (session.turn (.call (.combine draws q))).2.Stands r) ∧
    (∀ t r, (session.turn (.call (.delete t))).1 = .ok (.record r) → ∀ after : List Turn,
      (((session.turn (.call (.delete t))).2.run after).2.turn
          (.call (.getTree (Text.ofNat r.id)))).1 = .error (.ruleNotFound (Text.ofNat r.id))) := by
  have heffect (c : Call) : c.Effect session.settings session.shared.store
      (session.turn (.call c)).2.shared.store (session.turn (.call c)).1 :=
    effect_operation h.consistent session.settings c
  refine ⟨fun q r hr => ?_, fun draws q r hr => ?_, fun t r hr after => ?_⟩
  · obtain ⟨a, hresult, ha⟩ := Session.ok_of_turn rfl hr
    have hgains := heffect (.create q)
    rw [hr] at hgains
    obtain ⟨b, hb, -, hgains⟩ := hgains
    cases ha
    cases hb
    exact ⟨of_create h.sound hresult, Session.stands_of_gains h hgains⟩
  · obtain ⟨a, hresult, ha⟩ := Session.ok_of_turn rfl hr
    have hgains := heffect (.combine draws q)
    rw [hr] at hgains
    obtain ⟨b, -, hb, -, hgains⟩ := hgains
    cases ha
    cases hb
    exact ⟨of_combine h.sound hresult, Session.stands_of_gains h hgains⟩
  · have hloses := heffect (.delete t)
    rw [hr] at hloses
    obtain ⟨b, hb, hloses⟩ := hloses
    cases hb
    have hdeleted : r.id ∈ session.deletedIds (.call (.delete t) :: after) := by
      rw [Session.mem_deletedIds_cons, hr]
      exact .inl rfl
    exact ((Session.stands h hloses.mem).gone _ hdeleted).2

/-- A rule is created, combined with a spelled one and deleted, and its name is used again. The combined
rule is what it was, and the deleted one stays away. -/
theorem stored_rules_stand_renewed :
    let start : Session := ⟨{ Settings.standard with caching := false }, Shared.empty⟩
    let create (text : Text) : Turn := .call (.create ⟨some "a".toList, some text⟩)
    let combine : Turn :=
      .call (.combine (Draws.numbered 0) ⟨["a".toList, "z='w'".toList], some "AND".toList⟩)
    let delete : Turn := .call (.delete "a".toList)
    let created := (start.turn (create "x='y'".toList)).2
    let combined := (created.turn combine).2
    let last := (combined.run [delete, create "x='z'".toList]).2
    let x : Rule := .condition ⟨['x'], .equal, .string ['y']⟩
    let z : Rule := .condition ⟨['z'], .equal, .string ['w']⟩
    (created.turn (.call (.getTree (Text.ofNat 1)))).1 = .ok (.rule x) ∧
      (last.turn (.call (.getTree (Text.ofNat 2)))).1 = .ok (.rule (.join .and x z)) ∧
      (last.turn (.call (.getTree (Text.ofNat 1)))).1 = .error (.ruleNotFound (Text.ofNat 1)) := by
  intro start create combine delete created combined last x z
  have hcreated : created.shared.Reachable := Session.reachable_turn .empty _
  have hcombined : combined.shared.Reachable := Session.reachable_turn hcreated _
  let first : Record := ⟨1, "a".toList, some "x='y'".toList, x⟩
  let second : Record := ⟨2, "combinedalwH".toList, none, .join .and x z⟩
  have hx : Rule.read "x='y'".toList = .ok x := rfl
  have hz : Rule.read "z='w'".toList = .ok z := rfl
  obtain ⟨hcreate, hstore, hlist, hlast⟩ :
      (start.turn (create "x='y'".toList)).1 = .ok (.record first) ∧
        created.shared.store.Consistent ∧ created.shared.store.toList = [first] ∧
        created.shared.store.lastId = 1 :=
    Session.turn_create rfl rfl hx rfl
  have hfound : created.shared.store.find? "a".toList = some first :=
    hstore.find?_eq_some_iff.2 ⟨by simp [hlist], by decide⟩
  have hrule : Service.combined created.settings created.shared.store
      ⟨["a".toList, "z='w'".toList], some "AND".toList⟩ = .ok (.join .and x z) := by
    have hsettings : created.settings = start.settings := rfl
    have hjoin : combination start.settings .and [x, z] = .ok (.join .and x z) := by
      simp only [start, x, z]
      cbv
    have ha : created.shared.store.meaning "a".toList = .ok x := Store.meaning_of_find? hfound
    rw [Service.combined, List.mapM_cons, List.mapM_cons, List.mapM_nil, ha,
      hstore.meaning_of_read hz, hsettings]
    exact hjoin
  obtain ⟨t, c, hrun, ht, hboth⟩ :=
    run_combine_free hcreated.sound hstore hrule (Draws.numbered 0) (by rfl)
      (by rw [Store.names, hlist]; decide)
  have hturn : created.turn combine = (.ok (.record second), ⟨created.settings, ⟨t, c⟩⟩) := by
    rw [Session.turn_eq rfl, hrun, hlast]
    rfl
  have hcombine : (created.turn combine).1 = .ok (.record second) := congrArg Prod.fst hturn
  have hdelete : (combined.turn delete).1 = .ok (.record first) := by
    have hstill : t.find? "a".toList = some first :=
      ht.find?_eq_some_iff.2 ⟨by simp [hboth, hlist], by decide⟩
    obtain ⟨left, hdelete, -⟩ := run_delete (s := ⟨t, c⟩) ht hstill
    have hstate : combined = ⟨created.settings, ⟨t, c⟩⟩ := congrArg Prod.snd hturn
    rw [hstate, Session.turn_eq rfl, hdelete]
    rfl
  have hkept : 2 ∉ combined.deletedIds [delete, create "x='z'".toList] := by
    rw [Session.mem_deletedIds_cons, Session.mem_deletedIds_cons, hdelete]
    simp [create, delete, first, Turn.deletedId?]
  have hfirst : created.Stands first :=
    ((stored_rules_stand .empty).1 _ _ hcreate).2
  have hsecond : combined.Stands second :=
    ((stored_rules_stand hcreated).2.1 _ _ _ hcombine).2
  have hstands := (hsecond.kept _ hkept).2 (by decide)
  have hgone := (stored_rules_stand hcombined).2.2 _ _ hdelete [create "x='z'".toList]
  rw [← Session.run_cons] at hgone
  exact ⟨(hfirst.kept [] List.not_mem_nil).2 (by decide), hstands, hgone⟩

end Service
end Rulebook
