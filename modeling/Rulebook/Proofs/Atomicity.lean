import Rulebook.Host.Engine
import Rulebook.Proofs.Contract
import Rulebook.Proofs.History
import Rulebook.Proofs.Runs
set_option autoImplicit false

/-!
What fails leaves the store as it was, at whatever stage it failed. What succeeds adds the one record that
it answers, or takes it out, or leaves the store alone.
-/

namespace Rulebook

open Service (Replays)

/-! ### One record more or less -/

namespace Store

/-- One record more, with the next id and under a name that was free. -/
structure Gains (s : Store) (r : Record) (t : Store) : Prop where
  id_eq : r.id = s.lastId + 1
  fresh : r.name ∉ s.names
  toList : t.toList = s.toList ++ [r]
  ids : ∀ name, t.ids[name]? = if r.name = name then some r.id else s.ids[name]?
  size : t.size = s.size + 1
  lastId : t.lastId = r.id

/-- One record less. Its id is not given out again. -/
structure Loses (s : Store) (r : Record) (t : Store) : Prop where
  mem : r ∈ s.toList
  toList : t.toList = s.toList.filter fun a => a ≠ r
  ids : ∀ name, t.ids[name]? = if r.name = name then none else s.ids[name]?
  size : t.size + 1 = s.size
  lastId : t.lastId = s.lastId

variable {s t : Store} {r : Record}

theorem eq_add_of_insert {name : Text} {text : Option Text} {rule : Rule}
    (h : s.insert name text rule = .ok (r, t)) :
    r = ⟨s.lastId + 1, name, text, rule⟩ ∧ t = s.add r ∧ Name.check name = .ok () ∧
      s.ids[name]? = none := by
  rw [insert_eq] at h
  split at h
  · cases h
  · split at h
    · cases h
    · rename_i hname hids
      cases h
      exact ⟨rfl, rfl, hname, by simpa using hids⟩

theorem Consistent.eq_drop_of_remove (hs : s.Consistent) {id : Nat} (h : s.remove id = some (r, t)) :
    r ∈ s.toList ∧ t = s.drop r := by
  obtain ⟨a, ha, hrt⟩ := Option.map_eq_some_iff.1 h
  cases hrt
  obtain ⟨hmem, rfl⟩ := hs.byId?_eq_some_iff.1 ha
  exact ⟨hmem, rfl⟩

theorem size_add (h : s.byId? r.id = none) : (s.add r).size = s.size + 1 := by
  have hnew : s.records.contains r.id = false := by
    rw [Std.TreeMap.contains_eq_isSome_getElem?]
    exact Option.isSome_eq_false_iff.2 (Option.isNone_iff_eq_none.2 h)
  rw [size, add, Std.TreeMap.size_insert, hnew, if_neg Bool.false_ne_true, size]

theorem size_drop (h : s.byId? r.id = some r) : (s.drop r).size + 1 = s.size := by
  have hold : s.records.contains r.id = true := by
    rw [Std.TreeMap.contains_eq_isSome_getElem?]
    exact Option.isSome_iff_exists.2 ⟨r, h⟩
  have hpos : s.records.size ≠ 0 := by
    have hempty := Std.TreeMap.isEmpty_eq_false_of_contains hold
    rwa [Std.TreeMap.isEmpty_eq_size_eq_zero, beq_eq_false_iff_ne] at hempty
  rw [size, drop, Std.TreeMap.size_erase, hold, if_pos rfl, size]
  omega

theorem Consistent.gains (hs : s.Consistent) {name : Text} {text : Option Text} {rule : Rule}
    (h : s.insert name text rule = .ok (r, t)) : s.Gains r t ∧ t.Consistent := by
  obtain ⟨hr, rfl, hvalid, hfresh⟩ := eq_add_of_insert h
  obtain ⟨hid, rfl⟩ : r.id = s.lastId + 1 ∧ r.name = name := by simp [hr]
  have hfree : r.name ∉ s.names := by simp [← hs.isSome_ids_iff, hfresh]
  exact ⟨⟨hid, hfree, hs.toList_add hid hvalid hfresh, ids_add s r, size_add (hid ▸ hs.byId?_next),
    rfl⟩, hs.add hid hvalid hfresh⟩

theorem Consistent.loses (hs : s.Consistent) {id : Nat} (h : s.remove id = some (r, t)) :
    s.Loses r t ∧ t.Consistent := by
  obtain ⟨hmem, rfl⟩ := hs.eq_drop_of_remove h
  have hlist : (s.drop r).toList = s.toList.filter fun a => a ≠ r := by
    rw [hs.toList_drop hmem]
    refine List.filter_congr fun a ha => ?_
    have hid : a.id = r.id ↔ a = r := ⟨hs.eq_of_id_eq a ha r hmem, fun he => he ▸ rfl⟩
    simp [hid]
  exact ⟨⟨hmem, hlist, ids_drop s r, size_drop (hs.mem_toList.1 hmem), rfl⟩, hs.drop hmem⟩

end Store

/-! ### Operations -/

namespace Operation

variable {α β : Type}

/-- A failure leaves the store as it was, and a result changes it so. -/
def Does (Q : α → Store → Store → Prop) (o : Operation α) : Prop :=
  ∀ s, match (o.run s).1 with
    | .ok a => Q a s.store (o.run s).2.store
    | .error _ => (o.run s).2.store = s.store

variable {Q : α → Store → Store → Prop} {R : β → Store → Store → Prop}

theorem Keeps.does {o : Operation α} (h : o.Keeps Contract.leavesStore) :
    o.Does fun _ s t => t = s := by
  intro s
  have hstore := h.store_eq s
  split <;> exact hstore

theorem Does.mono {o : Operation α} {R : α → Store → Store → Prop} (ho : o.Does Q)
    (h : ∀ a s t, Q a s t → R a s t) : o.Does R := by
  intro s
  have hdone := ho s
  split
  · rename_i a ha
    simp only [ha] at hdone
    exact h a _ _ hdone
  · rename_i e he
    simpa only [he] using hdone

theorem does_throw (e : Error) : (throw e : Operation α).Does Q := fun _ => rfl

theorem Does.bind {o : Operation β} {f : β → Operation α} (ho : o.Does fun _ s t => t = s)
    (hf : ∀ b, (f b).Does Q) : (o >>= f).Does Q := by
  intro s
  have hbefore := ho s
  rw [run_bind]
  cases h : (o.run s).1 with
  | error e => simpa only [h] using hbefore
  | ok b =>
    simp only [h] at hbefore
    have hafter := hf b (o.run s).2
    rwa [hbefore] at hafter

theorem Does.map {o : Operation α} (ho : o.Does Q) {f : α → β} (hf : ∀ a s t, Q a s t → R (f a) s t) :
    (f <$> o).Does R := by
  intro s
  have hdone := ho s
  rw [run_map]
  cases h : (o.run s).1 with
  | error e => simpa only [h, Except.map] using hdone
  | ok a =>
    simp only [h] at hdone
    exact hf a _ _ hdone

end Operation

namespace Service

open Operation

/-- The record is new and has such a name. -/
def Stores (named : Text → Prop) (r : Record) (s t : Store) : Prop :=
  s.Consistent → named r.name ∧ s.Gains r t

def Removes (r : Record) (s t : Store) : Prop := s.Consistent → s.Loses r t

theorem insert_cases (name : Text) (text : Option Text) (rule : Rule) (s : Shared) :
    (∃ e, (Access.insert name text rule).perform s = (.error e, s)) ∨
    ∃ r t, (Access.insert name text rule).perform s = (.ok r, { s with store := t }) ∧
      Stores (· = name) r s.store t := by
  simp only [Access.perform]
  cases h : s.store.insert name text rule with
  | error e => exact .inl ⟨e, rfl⟩
  | ok p =>
    obtain ⟨r, t⟩ := p
    refine .inr ⟨r, t, rfl, fun hs => ⟨?_, (hs.gains h).1⟩⟩
    rw [(Store.eq_add_of_insert h).1]

theorem does_insert (name : Text) (text : Option Text) (rule : Rule) :
    (do settle (← ask (.insert name text rule)) : Operation Record).Does (Stores (· = name)) := by
  intro s
  rw [run_ask_bind]
  obtain ⟨e, h⟩ | ⟨r, t, h, hstores⟩ := insert_cases name text rule s
  · rw [h]
    rfl
  · rw [h]
    exact hstores

theorem eq_of_complete? {q : CreateRequest} {name text : Text} (h : q.complete? = some (name, text)) :
    q = ⟨some name, some text⟩ := by
  obtain ⟨_ | given, _ | written⟩ := q <;> simp_all [CreateRequest.complete?]

theorem does_create (s : Settings) (q : CreateRequest) :
    (create s q).Does (Stores fun name => q.name = some name) := by
  unfold create
  cases hq : q.complete? with
  | none => exact does_throw _
  | some p =>
    obtain ⟨name, text⟩ := p
    obtain rfl := eq_of_complete? hq
    refine (keeps_read Contract.leavesStore_reads s text).does.bind fun rule =>
      (does_insert name (some text) rule).mono fun r before after hstores hs => ?_
    obtain ⟨hr, hgains⟩ := hstores hs
    exact ⟨congrArg some hr.symm, hgains⟩

/-- A name that is taken changes nothing, and the next one is tried. -/
theorem does_storeDrawn (s : Settings) (draws : Draws) (rule : Rule) (attempt more : Nat) :
    (storeDrawn s draws rule attempt more).Does
      (Stores fun name => ∃ attempt, name = drawnName s draws attempt) := by
  have hinsert (attempt : Nat) := (does_insert (drawnName s draws attempt) none rule).mono
    (R := Stores fun name => ∃ attempt, name = drawnName s draws attempt)
    fun r before after hstores hs => ⟨⟨attempt, (hstores hs).1⟩, (hstores hs).2⟩
  induction more generalizing attempt with
  | zero => exact hinsert attempt
  | succ more ih =>
    intro σ
    have hfirst := hinsert attempt σ
    have hnext := ih (attempt + 1) σ
    rw [run_ask_bind] at hfirst
    rw [storeDrawn, run_ask_bind]
    obtain ⟨e, h⟩ | ⟨r, t, h, -⟩ := insert_cases (drawnName s draws attempt) none rule σ
    · rw [h] at hfirst ⊢
      cases e with
      | duplicateName name => exact hnext
      | _ => rfl
    · rw [h] at hfirst ⊢
      exact hfirst

theorem does_combine (s : Settings) (draws : Draws) (q : CombineRequest) :
    (combine s draws q).Does (Stores fun name => ∃ attempt, name = drawnName s draws attempt) :=
  (keeps_settle _).does.bind fun _ =>
    (keeps_mapM (keeps_resolve Contract.leavesStore_reads s) q.references).does.bind fun _ =>
      (keeps_settle _).does.bind fun rule => does_storeDrawn s draws rule 0 _

theorem does_delete (identifier : Text) : (delete identifier).Does Removes := by
  refine (keeps_find Contract.leavesStore_reads identifier).does.bind fun record => ?_
  intro s
  rw [run_ask_bind]
  simp only [Access.perform]
  cases h : s.store.remove record.id with
  | none => rfl
  | some p =>
    obtain ⟨removed, t⟩ := p
    exact fun hs => (hs.loses h).1

/-- What a call may do to the store: nothing if it fails, and otherwise what its reply says. -/
def Call.Effect (s : Settings) (before after : Store) : Call → Except Error Reply → Prop
  | _, .error _ => after = before
  | create q, .ok reply =>
    ∃ r, reply = .record r ∧ q.name = some r.name ∧ before.Gains r after
  | combine draws _, .ok reply =>
    ∃ r attempt, reply = .record r ∧ r.name = drawnName s draws attempt ∧ before.Gains r after
  | delete _, .ok reply => ∃ r, reply = .record r ∧ before.Loses r after
  | _, .ok _ => after = before

theorem does_operation (s : Settings) (c : Call) :
    (c.operation s).Does fun reply before after =>
      before.Consistent → c.Effect s before after (.ok reply) := by
  have hreads := Contract.leavesStore_reads
  cases c with
  | create q =>
    exact (does_create s q).map fun r before after h hs => ⟨r, rfl, h hs⟩
  | combine draws q =>
    refine (does_combine s draws q).map fun r before after h hs => ?_
    obtain ⟨⟨attempt, hname⟩, hgains⟩ := h hs
    exact ⟨r, attempt, rfl, hname, hgains⟩
  | evaluate q => exact (keeps_evaluate hreads q).does.map fun _ _ _ h _ => h
  | getTree identifier => exact (keeps_getTree hreads identifier).does.map fun _ _ _ h _ => h
  | delete identifier =>
    exact (does_delete identifier).map fun r before after h hs => ⟨r, rfl, h hs⟩
  | read text => exact (keeps_read hreads s text).does.map fun _ _ _ h _ => h
  | clearCache =>
    have hclear : Contract.leavesStore.promises .clear := fun _ => rfl
    exact (keeps_ask hclear).does.map fun _ _ _ h _ => h

theorem effect_operation {σ : Shared} (h : σ.store.Consistent) (s : Settings) (c : Call) :
    c.Effect s σ.store ((c.operation s).run σ).2.store ((c.operation s).run σ).1 := by
  have hdone := does_operation s c σ
  generalize (c.operation s).run σ = after at hdone ⊢
  obtain ⟨reply | reply, τ⟩ := after
  · cases c <;> exact hdone
  · exact hdone h

end Service

/-! ### Calls of the host -/

namespace Host.Engine

open Service

/-- The same records, ids and settings. -/
structure Keeps (e e' : Engine) : Prop where
  store : e'.shared.store = e.shared.store
  settings : e'.settings = e.settings

variable {e : Engine} {x : Exception}

theorem keeps_of_perform {α : Type} {Q : α → Store → Store → Prop} {o : Operation α} (ho : o.Does Q)
    {out : α → Object} (h : (e.perform o out).1 = .error x) : e.Keeps (e.perform o out).2 := by
  have hdone := ho e.shared
  refine ⟨?_, rfl⟩
  unfold perform at h ⊢
  generalize o.run e.shared = after at h hdone ⊢
  obtain ⟨r | r, σ⟩ := after
  · exact hdone
  · cases h

theorem keeps_of_whenReady {go : Settings → Outcome}
    (hgo : ∀ s, (go s).1 = .error x → e.Keeps (go s).2) (h : (e.whenReady go).1 = .error x) :
    e.Keeps (e.whenReady go).2 := by
  unfold whenReady at h ⊢
  cases hready : e.ready with
  | ok s =>
    rw [hready] at h
    exact hgo s h
  | error y => exact ⟨rfl, rfl⟩

/-- Refused settings leave the whole engine as it was. -/
theorem initEngine_error {config : Object} (h : (e.initEngine config).1 = .error x) :
    (e.initEngine config).2 = e := by
  unfold initEngine at h ⊢
  cases hs : configured config with
  | ok s =>
    rw [hs] at h
    cases h
  | error y => rfl

theorem judge_does (target : Target) (d : Data) :
    (judge target d).Does fun _ s t => t = s := by
  cases target with
  | rule r => exact (Operation.keeps_settle _).does
  | subject s => exact (keeps_evaluate Contract.leavesStore_reads _).does

theorem keeps_of_evaluateRule {ast data : Object} (h : (e.evaluateRule ast data).1 = .error x) :
    e.Keeps (e.evaluateRule ast data).2 := by
  unfold evaluateRule at h ⊢
  dsimp only at h ⊢
  generalize (do
    let target ← ast.toTarget
    let d ← data.toData
    Except.ok (target, d) : Except Exception (Target × Data)) = arguments at h ⊢
  cases arguments with
  | error y => exact ⟨rfl, rfl⟩
  | ok p =>
    obtain ⟨hstore, hsettings⟩ := keeps_of_perform (judge_does p.1 p.2) h
    exact ⟨hstore, hsettings⟩

theorem keeps_readText (e : Engine) (text : Text) : (e.read text).Keeps Contract.leavesStore := by
  have hreads := Contract.leavesStore_reads
  unfold read
  split
  · exact keeps_read hreads _ text
  · exact meets_readCached hreads text (fun _ _ => trivial) trivial

theorem keeps_of_run {c : Call} (h : (e.run c).1 = .error x) : e.Keeps (e.run c).2 := by
  have hreads := Contract.leavesStore_reads
  cases c with
  | initEngine config =>
    have hsame : (e.run (.initEngine config)).2 = e := initEngine_error h
    rw [hsame]
    exact ⟨rfl, rfl⟩
  | isInitialized => cases h
  | initLogging => cases h
  | createRule name text => exact keeps_of_whenReady (fun s => keeps_of_perform (does_create s _)) h
  | combineRules references operator =>
    refine keeps_of_whenReady (fun s hs => ?_) h
    obtain ⟨hstore, hsettings⟩ := keeps_of_perform (does_combine s _ _) hs
    exact ⟨hstore, hsettings⟩
  | evaluateRule ast data => exact keeps_of_whenReady (fun _ => keeps_of_evaluateRule) h
  | getRuleTree identifier =>
    exact keeps_of_whenReady (fun _ => keeps_of_perform (keeps_getTree hreads identifier).does) h
  | deleteRule identifier =>
    exact keeps_of_whenReady (fun _ => keeps_of_perform (does_delete identifier)) h
  | parseRule text => exact keeps_of_perform (keeps_readText e text).does h
  | clearCache => cases h

theorem keeps_of_call {name : Text} {args : List Object} (h : (e.call name args).1 = .error x) :
    e.Keeps (e.call name args).2 := by
  unfold call at h ⊢
  cases hcall : callOf name args with
  | error y => exact ⟨rfl, rfl⟩
  | ok c =>
    rw [hcall] at h
    exact keeps_of_run h

theorem call_initEngine_error {args : List Object}
    (h : (e.call "init_engine".toList args).1 = .error x) :
    (e.call "init_engine".toList args).2 = e := by
  match args with
  | [] => exact initEngine_error h
  | [config] => exact initEngine_error h
  | _ :: _ :: _ => rfl

end Host.Engine

open Host (Engine) in
/-- Whatever was done before: a call that fails leaves the store as it was, and one that succeeds has added
the record that it answers, or taken it out, or left the store alone. So it is with a direct insertion. A
call of the host that raises an exception leaves the records and the settings as they were, and settings
that are refused leave all of the engine. -/
theorem Service.store_changes_as_replied {history : List Event} {σ : Shared}
    (h : Replays Shared.empty history σ) :
    (∀ (s : Settings) (c : Call),
      c.Effect s σ.store ((c.operation s).run σ).2.store ((c.operation s).run σ).1) ∧
    (∀ (name : Text) (text : Option Text) (rule : Rule),
      match (Access.insert name text rule).perform σ with
      | (.ok r, τ) => r.name = name ∧ σ.store.Gains r τ.store
      | (.error _, τ) => τ = σ) ∧
    (∀ (e : Engine) (name : Text) (args : List Host.Object) (x : Host.Exception),
      (e.call name args).1 = .error x →
        (e.call name args).2.shared.store = e.shared.store ∧
        (e.call name args).2.settings = e.settings ∧
        (name = "init_engine".toList → (e.call name args).2 = e)) := by
  have hs := h.recorded.consistent
  refine ⟨effect_operation hs, fun name text rule => ?_, fun e name args x hx => ?_⟩
  · obtain ⟨e, hinsert⟩ | ⟨r, t, hinsert, hstores⟩ := insert_cases name text rule σ
    · rw [hinsert]
    · rw [hinsert]
      exact hstores hs
  · obtain ⟨hstore, hsettings⟩ := Host.Engine.keeps_of_call hx
    refine ⟨hstore, hsettings, ?_⟩
    rintro rfl
    exact Host.Engine.call_initEngine_error hx

/-- After one rule is stored: its name once more, its removal, and settings with an unknown policy. -/
theorem Service.store_changes_as_replied_duplicate :
    let settings : Settings := { Settings.standard with caching := false }
    let s := (Session.run ⟨settings, Shared.empty⟩
      [.call (.create ⟨some "a".toList, some "x='y'".toList⟩)]).2
    let again := (Call.create ⟨some "a".toList, some "x='z'".toList⟩).operation settings
    let delete := (Call.delete "1".toList).operation settings
    let r : Record := ⟨1, "a".toList, some "x='y'".toList, .condition ⟨['x'], .equal, .string ['y']⟩⟩
    let e : Host.Engine := ⟨s.shared, some settings, false, 0, 0⟩
    let config : Host.Object := .mapping [(.text "flatten_policy".toList, .text "no".toList)]
    (again.run s.shared).1 = .error (.duplicateName "a".toList) ∧
      (again.run s.shared).2.store = s.shared.store ∧
      s.shared.store.Loses r (delete.run s.shared).2.store ∧
      (e.call "init_engine".toList [config]).2 = e := by
  intro settings s again delete r e config
  obtain ⟨history, hs⟩ := Session.exists_replays
    [.call (.create ⟨some "a".toList, some "x='y'".toList⟩)] ⟨settings, Shared.empty⟩ .nil
  have hcaching : settings.caching = false := rfl
  have hread : Rule.read "x='y'".toList = .ok r.rule := rfl
  have hreadAgain : Rule.read "x='z'".toList = .ok (.condition ⟨['x'], .equal, .string ['z']⟩) := rfl
  obtain ⟨hstore, hlist, -⟩ : s.shared.store.Consistent ∧ s.shared.store.toList = [r] ∧ _ :=
    Session.run_create hcaching rfl hread rfl
  have hagain : (again.run s.shared).1 = .error (.duplicateName "a".toList) := by
    have htaken : "a".toList ∈ s.shared.store.names := by
      rw [Store.names, hlist]
      exact List.mem_cons_self ..
    have hcreate : (create settings ⟨some "a".toList, some "x='z'".toList⟩).run s.shared =
        (.error (.duplicateName "a".toList), s.shared) := by
      rw [run_create hcaching (by rfl) hreadAgain, Access.perform_insert_taken hstore htaken]
    simp only [again, Call.operation, Operation.run_map, hcreate]
    rfl
  have hdelete : (delete.run s.shared).1 = .ok (.record r) := by
    have hfind : s.shared.store.find? "1".toList = some r :=
      hstore.find?_eq_some_iff.2 ⟨by simp [hlist], by decide⟩
    obtain ⟨left, hdelete, -⟩ := run_delete hstore hfind
    simp only [delete, Call.operation, Operation.run_map, hdelete]
    rfl
  obtain ⟨x, hconfig⟩ : ∃ x, (e.call "init_engine".toList [config]).1 = .error x := ⟨_, rfl⟩
  obtain ⟨hcalls, -, hhost⟩ := store_changes_as_replied hs
  have hfailed : Call.Effect settings _ _ _ (again.run s.shared).1 := hcalls settings (.create _)
  have hremoved : Call.Effect settings _ _ _ (delete.run s.shared).1 := hcalls settings (.delete _)
  rw [hagain] at hfailed
  rw [hdelete] at hremoved
  obtain ⟨removed, hr, hloses⟩ := hremoved
  cases hr
  exact ⟨hagain, hfailed, hloses, (hhost e _ _ _ hconfig).2.2 rfl⟩

end Rulebook
