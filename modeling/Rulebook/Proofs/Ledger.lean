import Rulebook.Store
set_option autoImplicit false

/-!
A store shows a ledger: the plain list of its records in the order in which they came, and the last id
given out. Whatever is inserted and removed, the store answers as the ledger does, and what can be seen of
it is what the ledger holds.
-/

namespace Rulebook

/-! ### The plain list -/

/-- Records in the order in which they came, and the last id given out. -/
structure Ledger where
  records : List Record
  lastId : Nat

namespace Ledger

def empty : Ledger := ⟨[], 0⟩

def names (l : Ledger) : List Text := l.records.map Record.name

def byId? (l : Ledger) (id : Nat) : Option Record := l.records.find? fun r => r.id = id

def byName? (l : Ledger) (name : Text) : Option Record := l.records.find? fun r => r.name = name

/-- A record under a valid name that is not listed goes to the end and gets the next id. -/
def insert (l : Ledger) (name : Text) (text : Option Text) (rule : Rule) :
    Except Error (Record × Ledger) :=
  match Name.check name with
  | .error f => .error (.invalidRequest (.name f))
  | .ok () =>
    if name ∈ l.names then .error (.duplicateName name)
    else
      let record : Record := ⟨l.lastId + 1, name, text, rule⟩
      .ok (record, ⟨l.records ++ [record], l.lastId + 1⟩)

def remove (l : Ledger) (id : Nat) : Option (Record × Ledger) :=
  (l.byId? id).map fun record => (record, ⟨l.records.filter fun r => r.id ≠ id, l.lastId⟩)

end Ledger

/-! ### Updates, one after the other -/

inductive Update where
  | insert (name : Text) (text : Option Text) (rule : Rule)
  | remove (id : Nat)

namespace Update

inductive Reply where
  | inserted (result : Except Error Record)
  | removed (result : Option Record)

/-- The record that was stored. -/
def Reply.stored? : Reply → Option Record
  | inserted (.ok r) => some r
  | _ => none

section
variable {σ τ : Type}

/-- The answer and what is kept afterwards, by what inserting and removing are. What fails changes
nothing. -/
def apply (insert : σ → Text → Option Text → Rule → Except Error (Record × σ))
    (remove : σ → Nat → Option (Record × σ)) (s : σ) : Update → Reply × σ
  | .insert name text rule =>
    match insert s name text rule with
    | .ok (record, s') => (.inserted (.ok record), s')
    | .error e => (.inserted (.error e), s)
  | .remove id =>
    match remove s id with
    | some (record, s') => (.removed (some record), s')
    | none => (.removed none, s)

def run (update : σ → Update → Reply × σ) (s : σ) : List Update → List Reply × σ
  | [] => ([], s)
  | u :: us =>
    let (reply, s') := update s u
    let (replies, s'') := run update s' us
    (reply :: replies, s'')

/-- Two kinds of keeping that agree on each update, as long as an invariant holds, agree on all of them. -/
theorem run_view {update : σ → Update → Reply × σ} {update' : τ → Update → Reply × τ} (view : σ → τ)
    {Inv : σ → Prop}
    (hstep : ∀ s u, Inv s → update' (view s) u = ((update s u).1, view (update s u).2))
    (hinv : ∀ s u, Inv s → Inv (update s u).2) (us : List Update) {s : σ} (hs : Inv s) :
    run update' (view s) us = ((run update s us).1, view (run update s us).2) ∧
      Inv (run update s us).2 := by
  induction us generalizing s with
  | nil => exact ⟨rfl, hs⟩
  | cons u us ih =>
    obtain ⟨hrun, hkept⟩ := ih (hinv s u hs)
    exact ⟨by simp only [run, hstep s u hs, hrun], hkept⟩

end
end Update

def Store.update : Store → Update → Update.Reply × Store := Update.apply Store.insert Store.remove

def Ledger.update : Ledger → Update → Update.Reply × Ledger :=
  Update.apply Ledger.insert Ledger.remove

/-! ### Lists of records without repeated keys -/

namespace Record

theorem find?_eq_some_iff {β : Type} [DecidableEq β] {key : Record → β} {rs : List Record}
    (hkey : ∀ a ∈ rs, ∀ b ∈ rs, key a = key b → a = b) {k : β} {r : Record} :
    (rs.find? fun a => key a = k) = some r ↔ r ∈ rs ∧ key r = k := by
  constructor
  · intro h
    exact ⟨List.mem_of_find?_eq_some h, by simpa using List.find?_some h⟩
  · rintro ⟨hr, rfl⟩
    cases h : rs.find? fun a => key a = key r with
    | none => simpa using List.find?_eq_none.1 h r hr
    | some a =>
      have ha : key a = key r := by simpa using List.find?_some h
      rw [hkey a (List.mem_of_find?_eq_some h) r hr ha]

/-- Lists in the order of the ids are the same if they have the same records. -/
theorem eq_of_sorted {xs ys : List Record} (hx : xs.Pairwise fun a b => a.id < b.id)
    (hy : ys.Pairwise fun a b => a.id < b.id) (h : ∀ r, r ∈ xs ↔ r ∈ ys) : xs = ys := by
  have nodup {zs : List Record} (hz : zs.Pairwise fun a b => a.id < b.id) : zs.Nodup := by
    refine List.Pairwise.imp (fun {a b} hab => ?_) hz
    rintro rfl
    exact Nat.lt_irrefl _ hab
  exact List.Perm.eq_of_pairwise (fun a b _ _ hab hba => absurd hab (Nat.lt_asymm hba)) hx hy
    ((List.perm_ext_iff_of_nodup (nodup hx) (nodup hy)).2 h)

end Record

/-! ### The store and its view -/

namespace Store

def ledger (s : Store) : Ledger := ⟨s.toList, s.lastId⟩

theorem ledger_eq {s : Store} {rs : List Record} {n : Nat} (hrs : s.toList = rs) (hn : s.lastId = n) :
    s.ledger = ⟨rs, n⟩ := by
  rw [ledger, hrs, hn]

@[simp] theorem ledger_records (s : Store) : s.ledger.records = s.toList := rfl

@[simp] theorem ledger_lastId (s : Store) : s.ledger.lastId = s.lastId := rfl

@[simp] theorem ledger_names (s : Store) : s.ledger.names = s.names := rfl

/-- The two maps say the same, ids are those given out, and names are valid. -/
structure Consistent (s : Store) : Prop where
  id_eq : ∀ {id : Nat} {r : Record}, s.byId? id = some r → r.id = id
  id_le : ∀ {id : Nat} {r : Record}, s.byId? id = some r → id ≤ s.lastId
  indexed : ∀ {name : Text} {id : Nat},
    s.ids[name]? = some id ↔ ∃ r, s.byId? id = some r ∧ r.name = name
  valid : ∀ {id : Nat} {r : Record}, s.byId? id = some r → Name.check r.name = .ok ()

theorem toList_eq (s : Store) : s.toList = s.records.toList.map Prod.snd := by
  have h : s.toList = s.records.foldr (fun _ r rs => r :: rs) [] := rfl
  rw [h, Std.TreeMap.foldr_eq_foldr_toList, ← List.foldr_map, List.foldr_cons_nil]

@[simp] theorem byId?_empty (id : Nat) : empty.byId? id = none := by
  simp [empty, byId?]

theorem consistent_empty : empty.Consistent where
  id_eq h := by simp at h
  id_le h := by simp at h
  indexed := by simp [empty, byId?]
  valid h := by simp at h

/-- With one record more, the last that came. -/
def add (s : Store) (r : Record) : Store :=
  ⟨s.records.insert r.id r, s.ids.insert r.name r.id, r.id⟩

theorem byId?_add (s : Store) (r : Record) (id : Nat) :
    (s.add r).byId? id = if r.id = id then some r else s.byId? id := by
  simp [add, byId?, Std.TreeMap.getElem?_insert]

theorem ids_add (s : Store) (r : Record) (name : Text) :
    (s.add r).ids[name]? = if r.name = name then some r.id else s.ids[name]? := by
  simp [add, Std.HashMap.getElem?_insert]

/-- Without the record of that id and name. -/
def drop (s : Store) (r : Record) : Store := ⟨s.records.erase r.id, s.ids.erase r.name, s.lastId⟩

theorem byId?_drop (s : Store) (r : Record) (id : Nat) :
    (s.drop r).byId? id = if r.id = id then none else s.byId? id := by
  simp [drop, byId?, Std.TreeMap.getElem?_erase]

theorem ids_drop (s : Store) (r : Record) (name : Text) :
    (s.drop r).ids[name]? = if r.name = name then none else s.ids[name]? := by
  simp [drop, Std.HashMap.getElem?_erase]

/-- An insertion is refused for its name, or else adds a record with the next id. -/
theorem insert_eq (s : Store) (name : Text) (text : Option Text) (rule : Rule) :
    s.insert name text rule =
      match Name.check name with
      | .error f => .error (.invalidRequest (.name f))
      | .ok () =>
        if s.ids[name]?.isSome then .error (.duplicateName name)
        else .ok (⟨s.lastId + 1, name, text, rule⟩, s.add ⟨s.lastId + 1, name, text, rule⟩) := by
  unfold insert
  cases Name.check name with
  | error f => rfl
  | ok => simp only [add, Std.HashMap.contains_eq_isSome_getElem?]

namespace Consistent

variable {s : Store} {r : Record}

theorem mem_toList (h : s.Consistent) : r ∈ s.toList ↔ s.byId? r.id = some r := by
  rw [toList_eq, List.mem_map]
  constructor
  · rintro ⟨⟨id, a⟩, ha, rfl⟩
    have hid : s.byId? id = some a := Std.TreeMap.mem_toList_iff_getElem?_eq_some.1 ha
    rwa [← h.id_eq hid] at hid
  · intro hr
    exact ⟨(r.id, r), Std.TreeMap.mem_toList_iff_getElem?_eq_some.2 hr, rfl⟩

/-- The records come in the order of their ids. -/
theorem sorted_toList (h : s.Consistent) : s.toList.Pairwise fun a b => a.id < b.id := by
  rw [toList_eq, List.pairwise_map]
  refine s.records.ordered_keys_toList.imp_of_mem ?_
  rintro ⟨i, a⟩ ⟨j, b⟩ ha hb hlt
  rw [h.id_eq (Std.TreeMap.mem_toList_iff_getElem?_eq_some.1 ha),
    h.id_eq (Std.TreeMap.mem_toList_iff_getElem?_eq_some.1 hb)]
  exact Nat.compare_eq_lt.1 hlt

theorem byId?_eq_some_iff (h : s.Consistent) {id : Nat} :
    s.byId? id = some r ↔ r ∈ s.toList ∧ r.id = id := by
  constructor
  · intro hr
    obtain rfl := h.id_eq hr
    exact ⟨h.mem_toList.2 hr, rfl⟩
  · rintro ⟨hr, rfl⟩
    exact h.mem_toList.1 hr

theorem byName?_eq_some_iff (h : s.Consistent) {name : Text} :
    s.byName? name = some r ↔ r ∈ s.toList ∧ r.name = name := by
  rw [byName?, Option.bind_eq_some_iff]
  constructor
  · rintro ⟨id, hid, hr⟩
    obtain ⟨a, ha, hname⟩ := h.indexed.1 hid
    obtain rfl : r = a := Option.some.inj (hr.symm.trans ha)
    exact ⟨(h.byId?_eq_some_iff.1 hr).1, hname⟩
  · rintro ⟨hr, hname⟩
    have hid := h.mem_toList.1 hr
    exact ⟨r.id, h.indexed.2 ⟨r, hid, hname⟩, hid⟩

theorem eq_of_id_eq (h : s.Consistent) :
    ∀ a ∈ s.toList, ∀ b ∈ s.toList, a.id = b.id → a = b := by
  intro a ha b hb hid
  have hb' := h.mem_toList.1 hb
  rw [← hid, h.mem_toList.1 ha] at hb'
  exact Option.some.inj hb'

theorem eq_of_name_eq (h : s.Consistent) :
    ∀ a ∈ s.toList, ∀ b ∈ s.toList, a.name = b.name → a = b := by
  intro a ha b hb hname
  have hb' := h.byName?_eq_some_iff.2 ⟨hb, rfl⟩
  rw [← hname, h.byName?_eq_some_iff.2 ⟨ha, rfl⟩] at hb'
  exact Option.some.inj hb'

theorem byId?_eq (h : s.Consistent) (id : Nat) : s.byId? id = s.ledger.byId? id := by
  ext r
  rw [h.byId?_eq_some_iff, Ledger.byId?, ledger_records, Record.find?_eq_some_iff h.eq_of_id_eq]

theorem byName?_eq (h : s.Consistent) (name : Text) : s.byName? name = s.ledger.byName? name := by
  ext r
  rw [h.byName?_eq_some_iff, Ledger.byName?, ledger_records,
    Record.find?_eq_some_iff h.eq_of_name_eq]

/-- Digits find the record with that id, anything else the one with that name. -/
theorem find?_eq_some_iff (h : s.Consistent) {t : Text} :
    s.find? t = some r ↔
      r ∈ s.toList ∧
        if t.trim.isDigits then r.id = t.trim.digitsToNat ∧ r.id < 2 ^ idBits
        else r.name = t.trim := by
  unfold Store.find?
  dsimp only
  split
  · split
    · rename_i hlt
      rw [h.byId?_eq_some_iff]
      constructor
      · rintro ⟨hr, hid⟩
        exact ⟨hr, hid, hid ▸ hlt⟩
      · rintro ⟨hr, hid, -⟩
        exact ⟨hr, hid⟩
    · rename_i hlt
      simp only [reduceCtorEq, false_iff]
      rintro ⟨-, hid, hfits⟩
      exact hlt (hid ▸ hfits)
  · exact h.byName?_eq_some_iff

theorem isSome_ids_iff (h : s.Consistent) (name : Text) :
    s.ids[name]?.isSome = true ↔ name ∈ s.names := by
  simp only [Option.isSome_iff_exists, h.indexed, names, List.mem_map, h.byId?_eq_some_iff]
  constructor
  · rintro ⟨id, r, ⟨hr, -⟩, hname⟩
    exact ⟨r, hr, hname⟩
  · rintro ⟨r, hr, hname⟩
    exact ⟨r.id, r, ⟨hr, rfl⟩, hname⟩

theorem nodup_names (h : s.Consistent) : s.names.Nodup := by
  rw [names, List.Nodup, List.pairwise_map]
  refine h.sorted_toList.imp_of_mem ?_
  intro a b ha hb hlt hname
  rw [h.eq_of_name_eq a ha b hb hname] at hlt
  exact Nat.lt_irrefl _ hlt

/-! A record more -/

theorem byId?_next (h : s.Consistent) : s.byId? (s.lastId + 1) = none := by
  cases hr : s.byId? (s.lastId + 1) with
  | none => rfl
  | some r => exact absurd (h.id_le hr) (by omega)

theorem add (h : s.Consistent) (hid : r.id = s.lastId + 1) (hvalid : Name.check r.name = .ok ())
    (hfresh : s.ids[r.name]? = none) : (s.add r).Consistent where
  id_eq {id a} ha := by
    rw [byId?_add] at ha
    split at ha
    · cases ha
      assumption
    · exact h.id_eq ha
  id_le {id a} ha := by
    have hlast : (s.add r).lastId = s.lastId + 1 := hid
    rw [byId?_add] at ha
    split at ha
    · omega
    · have := h.id_le ha
      omega
  indexed {name id} := by
    rw [byId?_add, ids_add]
    by_cases hn : r.name = name <;> by_cases hi : r.id = id
    · simp [hn, hi]
    · have hno : ¬∃ a, s.byId? id = some a ∧ a.name = name := by
        rw [← h.indexed, ← hn, hfresh]
        simp
      simp [hn, hi, hno]
    · have hno : s.ids[name]? ≠ some id := by
        intro hsome
        obtain ⟨a, ha, -⟩ := h.indexed.1 hsome
        rw [← hi, hid, h.byId?_next] at ha
        cases ha
      simp [hn, hi, hno]
    · simp [hn, hi, h.indexed]
  valid {id a} ha := by
    rw [byId?_add] at ha
    split at ha
    · cases ha
      exact hvalid
    · exact h.valid ha

theorem toList_add (h : s.Consistent) (hid : r.id = s.lastId + 1)
    (hvalid : Name.check r.name = .ok ()) (hfresh : s.ids[r.name]? = none) :
    (s.add r).toList = s.toList ++ [r] := by
  have hadd := h.add hid hvalid hfresh
  have hsorted : (s.toList ++ [r]).Pairwise fun a b => a.id < b.id := by
    refine List.pairwise_append.2 ⟨h.sorted_toList, List.pairwise_singleton _ _, ?_⟩
    intro a ha b hb
    rw [List.mem_singleton.1 hb, hid]
    exact Nat.lt_succ_of_le (h.id_le (h.mem_toList.1 ha))
  refine Record.eq_of_sorted hadd.sorted_toList hsorted fun a => ?_
  rw [hadd.mem_toList, byId?_add, List.mem_append, List.mem_singleton]
  split
  · rename_i ha
    have hout : a ∉ s.toList := by
      rw [h.mem_toList, ← ha, hid, h.byId?_next]
      simp
    simp [hout, eq_comm]
  · rename_i ha
    rw [h.mem_toList]
    exact ⟨.inl, fun hr => hr.resolve_right fun he => ha (he ▸ rfl)⟩

/-! A record less -/

theorem drop (h : s.Consistent) (hr : r ∈ s.toList) : (s.drop r).Consistent where
  id_eq {id a} ha := by
    rw [byId?_drop] at ha
    split at ha
    · cases ha
    · exact h.id_eq ha
  id_le {id a} ha := by
    rw [byId?_drop] at ha
    split at ha
    · cases ha
    · exact h.id_le ha
  indexed {name id} := by
    have hrid := h.mem_toList.1 hr
    have hrname : s.ids[r.name]? = some r.id := h.indexed.2 ⟨r, hrid, rfl⟩
    rw [byId?_drop, ids_drop]
    by_cases hn : r.name = name <;> by_cases hi : r.id = id
    · simp [hn, hi]
    · have hno : ¬∃ a, s.byId? id = some a ∧ a.name = name := by
        rw [← h.indexed, ← hn, hrname]
        simpa using hi
      simp [hn, hi, hno]
    · have hno : s.ids[name]? ≠ some id := by
        intro hsome
        obtain ⟨a, ha, hname⟩ := h.indexed.1 hsome
        rw [← hi, hrid] at ha
        cases ha
        exact hn hname
      simp [hn, hi, hno]
    · simp [hn, hi, h.indexed]
  valid {id a} ha := by
    rw [byId?_drop] at ha
    split at ha
    · cases ha
    · exact h.valid ha

theorem toList_drop (h : s.Consistent) (hr : r ∈ s.toList) :
    (s.drop r).toList = s.toList.filter fun a => a.id ≠ r.id := by
  have hdrop := h.drop hr
  refine Record.eq_of_sorted hdrop.sorted_toList (h.sorted_toList.filter _) fun a => ?_
  rw [hdrop.mem_toList, byId?_drop, List.mem_filter, h.mem_toList]
  by_cases ha : r.id = a.id
  · simp [ha]
  · simp [ha, Ne.symm ha]

end Consistent

/-! ### Updates of the store are updates of its ledger -/

/-- All that an insertion can do. -/
theorem Consistent.insert_cases {s : Store} (h : s.Consistent) (name : Text) (text : Option Text)
    (rule : Rule) :
    (∃ f, Name.check name = .error f ∧
      s.insert name text rule = .error (.invalidRequest (.name f))) ∨
    (Name.check name = .ok () ∧ name ∈ s.names ∧
      s.insert name text rule = .error (.duplicateName name)) ∨
    (Name.check name = .ok () ∧ name ∉ s.names ∧
      ∃ r s', r = ⟨s.lastId + 1, name, text, rule⟩ ∧ s.insert name text rule = .ok (r, s') ∧
        s'.Consistent ∧ s'.toList = s.toList ++ [r] ∧ s'.lastId = s.lastId + 1) := by
  rw [insert_eq]
  cases hname : Name.check name with
  | error f => exact .inl ⟨f, rfl, rfl⟩
  | ok =>
    by_cases hids : s.ids[name]?.isSome = true
    · exact .inr (.inl ⟨rfl, (h.isSome_ids_iff name).1 hids, by simp [hids]⟩)
    · have hfresh : s.ids[name]? = none := by simpa using hids
      refine .inr (.inr ⟨rfl, fun hmem => hids ((h.isSome_ids_iff name).2 hmem), _, _, rfl,
        by simp [hids], h.add rfl hname hfresh, h.toList_add rfl hname hfresh, rfl⟩)

/-- A record under a valid name that is free goes to the end and gets the next id. -/
theorem Consistent.insert_free {s : Store} (h : s.Consistent) {name : Text}
    (hname : Name.check name = .ok ()) (hfree : name ∉ s.names) (text : Option Text) (rule : Rule) :
    ∃ t, s.insert name text rule = .ok (⟨s.lastId + 1, name, text, rule⟩, t) ∧ t.Consistent ∧
      t.toList = s.toList ++ [⟨s.lastId + 1, name, text, rule⟩] ∧ t.lastId = s.lastId + 1 := by
  obtain ⟨f, hf, -⟩ | ⟨-, htaken, -⟩ | ⟨-, -, r, t, rfl, hinsert, ht, hlist, hlast⟩ :=
    h.insert_cases name text rule
  · rw [hname] at hf
    cases hf
  · exact absurd htaken hfree
  · exact ⟨t, hinsert, ht, hlist, hlast⟩

theorem Consistent.insert_taken {s : Store} (h : s.Consistent) {name : Text}
    (htaken : name ∈ s.names) (text : Option Text) (rule : Rule) :
    s.insert name text rule = .error (.duplicateName name) := by
  obtain ⟨r, hr, rfl⟩ := List.mem_map.1 htaken
  obtain ⟨f, hf, -⟩ | ⟨-, -, hinsert⟩ | ⟨-, hfree, -⟩ := h.insert_cases r.name text rule
  · rw [h.valid (h.mem_toList.1 hr)] at hf
    cases hf
  · exact hinsert
  · exact absurd htaken hfree

/-- All that a removal can do. -/
theorem Consistent.remove_cases {s : Store} (h : s.Consistent) (id : Nat) :
    (s.byId? id = none ∧ s.remove id = none) ∨
    (∃ r s', s.byId? id = some r ∧ r ∈ s.toList ∧ r.id = id ∧ s.remove id = some (r, s') ∧
      s'.Consistent ∧ s'.toList = s.toList.filter (fun a => a.id ≠ id) ∧ s'.lastId = s.lastId) := by
  cases hr : s.byId? id with
  | none => exact .inl ⟨rfl, by simp [remove, hr]⟩
  | some r =>
    obtain ⟨hmem, rfl⟩ := h.byId?_eq_some_iff.1 hr
    exact .inr ⟨r, s.drop r, rfl, hmem, rfl, by simp [remove, hr, Store.drop], h.drop hmem,
      h.toList_drop hmem, rfl⟩

/-- A record that is there can be removed by its id. -/
theorem Consistent.remove_listed {s : Store} (h : s.Consistent) {r : Record} (hr : r ∈ s.toList) :
    ∃ t, s.remove r.id = some (r, t) ∧ t.Consistent ∧
      t.toList = s.toList.filter (fun a => a.id ≠ r.id) ∧ t.lastId = s.lastId := by
  obtain ⟨hnone, -⟩ | ⟨a, t, ha, -, -, hremove, ht, hlist, hlast⟩ := h.remove_cases r.id
  · rw [h.mem_toList.1 hr] at hnone
    cases hnone
  · obtain rfl : r = a := Option.some.inj ((h.mem_toList.1 hr).symm.trans ha)
    exact ⟨t, hremove, ht, hlist, hlast⟩

theorem Consistent.insert_ledger {s : Store} (h : s.Consistent) (name : Text) (text : Option Text)
    (rule : Rule) :
    s.ledger.insert name text rule =
      (s.insert name text rule).map fun p => (p.1, p.2.ledger) := by
  unfold Ledger.insert
  obtain ⟨f, hname, hs⟩ | ⟨hname, hmem, hs⟩ | ⟨hname, hmem, r, s', rfl, hs, -, hlist, hlast⟩ :=
    h.insert_cases name text rule
  · simp [hname, hs, Except.map]
  · simp [hname, hs, hmem, Except.map]
  · simp [hname, hs, hmem, Except.map, ledger_eq hlist hlast]

theorem Consistent.remove_ledger {s : Store} (h : s.Consistent) (id : Nat) :
    s.ledger.remove id = (s.remove id).map fun p => (p.1, p.2.ledger) := by
  rw [Ledger.remove, ← h.byId?_eq]
  obtain ⟨hr, hs⟩ | ⟨r, s', hr, -, -, hs, -, hlist, hlast⟩ := h.remove_cases id
  · simp [hr, hs]
  · simp [hr, hs, ledger_eq hlist hlast]

theorem update_ledger {s : Store} (h : s.Consistent) (u : Update) :
    s.ledger.update u = ((s.update u).1, (s.update u).2.ledger) := by
  cases u with
  | insert name text rule =>
    simp only [Ledger.update, update, Update.apply, h.insert_ledger]
    cases s.insert name text rule <;> rfl
  | remove id =>
    simp only [Ledger.update, update, Update.apply, h.remove_ledger]
    cases s.remove id <;> rfl

theorem Consistent.update {s : Store} (h : s.Consistent) (u : Update) : (s.update u).2.Consistent := by
  cases u with
  | insert name text rule =>
    obtain ⟨f, -, hs⟩ | ⟨-, -, hs⟩ | ⟨-, -, r, s', -, hs, hc, -⟩ := h.insert_cases name text rule
    all_goals simpa only [Store.update, Update.apply, hs]
  | remove id =>
    obtain ⟨-, hs⟩ | ⟨r, s', -, -, -, hs, hc, -⟩ := h.remove_cases id
    all_goals simpa only [Store.update, Update.apply, hs]

/-! ### Whole runs -/

theorem run_ledger (us : List Update) :
    Update.run Ledger.update Ledger.empty us =
        ((Update.run update empty us).1, (Update.run update empty us).2.ledger) ∧
      (Update.run update empty us).2.Consistent :=
  Update.run_view ledger (fun _ u h => update_ledger h u) (fun _ u h => h.update u) us
    consistent_empty

theorem run_toList (us : List Update) :
    (Update.run update empty us).2.toList = (Update.run Ledger.update Ledger.empty us).2.records := by
  rw [(run_ledger us).1, ledger_records]

/-- Updates of the empty store lead to it. -/
def Reached (s : Store) : Prop := ∃ us, (Update.run update empty us).2 = s

theorem Reached.consistent {s : Store} (h : s.Reached) : s.Consistent := by
  obtain ⟨us, rfl⟩ := h
  exact (run_ledger us).2

end Store

/-- An update that stores a record gives it the next id, and no other one counts. -/
theorem Ledger.update_lastId (l : Ledger) (u : Update) :
    (∃ r, (l.update u).1.stored? = some r ∧ r.id = l.lastId + 1 ∧ (l.update u).2.lastId = r.id) ∨
      ((l.update u).1.stored? = none ∧ (l.update u).2.lastId = l.lastId) := by
  cases u with
  | insert name text rule =>
    simp only [Ledger.update, Update.apply, Ledger.insert]
    cases Name.check name with
    | error f => exact .inr ⟨rfl, rfl⟩
    | ok =>
      by_cases hname : name ∈ l.names
      · simp [hname, Update.Reply.stored?]
      · simp [hname, Update.Reply.stored?]
  | remove id =>
    simp only [Ledger.update, Update.apply, Ledger.remove]
    cases l.byId? id <;> exact .inr ⟨rfl, rfl⟩

/-- The ids given out are those that follow the last one, in their order and without a gap. -/
theorem Ledger.run_ids (us : List Update) (l : Ledger) :
    let stored := (Update.run Ledger.update l us).1.filterMap Update.Reply.stored?
    stored.map Record.id = List.range' (l.lastId + 1) stored.length := by
  induction us generalizing l with
  | nil => rfl
  | cons u us ih =>
    have hrest := ih (l.update u).2
    simp only [Update.run, List.filterMap_cons] at hrest ⊢
    obtain ⟨r, hstored, hid, hlast⟩ | ⟨hstored, hlast⟩ := l.update_lastId u
    · rw [hlast, hid] at hrest
      simp only [hstored, List.map_cons, List.length_cons, List.range'_succ, hid, hrest]
    · rw [hlast] at hrest
      simp only [hstored, hrest]

/-- All that can be seen of a store is what the ledger holds. -/
structure Store.Shows (s : Store) (l : Ledger) : Prop where
  toList : s.toList = l.records
  byId? : ∀ id, s.byId? id = l.byId? id
  byName? : ∀ name, s.byName? name = l.byName? name
  size : s.size = l.records.length
  isEmpty : s.isEmpty = l.records.isEmpty
  names : s.names = l.names

theorem Store.Consistent.shows {s : Store} (h : s.Consistent) : s.Shows s.ledger := by
  have hsize : s.size = s.toList.length := by
    rw [toList_eq, List.length_map, Std.TreeMap.length_toList, Store.size]
  refine ⟨rfl, h.byId?_eq, h.byName?_eq, hsize, ?_, rfl⟩
  rw [Store.isEmpty, hsize, ledger_records]
  cases s.toList <;> rfl

/-- A name is free again once its record is removed. -/
theorem Store.Consistent.insert_removed {s s' : Store} {id : Nat} {r : Record} (h : s.Consistent)
    (hr : s.remove id = some (r, s')) (text : Option Text) (rule : Rule) :
    ∃ t, s'.insert r.name text rule = .ok (⟨s.lastId + 1, r.name, text, rule⟩, t) := by
  obtain ⟨-, hs⟩ | ⟨a, t, -, hmem, rfl, hs, ht, hlist, hlast⟩ := h.remove_cases id
  · rw [hs] at hr
    cases hr
  · obtain ⟨rfl, rfl⟩ : a = r ∧ t = s' := by simpa using hs.symm.trans hr
    have hfree : a.name ∉ t.names := by
      rw [names, hlist, List.mem_map]
      rintro ⟨b, hb, hname⟩
      obtain ⟨hb, hid⟩ := List.mem_filter.1 hb
      rw [h.eq_of_name_eq b hb a hmem hname] at hid
      simp at hid
    obtain ⟨t', hinsert, -⟩ := ht.insert_free (h.valid (h.mem_toList.1 hmem)) hfree text rule
    rw [hlast] at hinsert
    exact ⟨t', hinsert⟩

/-- However records are inserted and removed, the store answers as the plain list does and shows what it
holds; its two maps are inverse to each other, names are valid and used once, the name of a removed
record is free, and ids are given out once each. -/
theorem Store.run_shows_ledger (us : List Update) :
    let (replies, s) := Update.run Store.update Store.empty us
    let (replies', l) := Update.run Ledger.update Ledger.empty us
    replies = replies' ∧ s.lastId = l.lastId ∧ s.Shows l ∧
      (∀ (id : Nat) (r : Record), s.records[id]? = some r → r.id = id) ∧
      (∀ (name : Text) (id : Nat),
        s.ids[name]? = some id ↔ ∃ r : Record, s.records[id]? = some r ∧ r.name = name) ∧
      (∀ r ∈ s.toList, Name.check r.name = .ok ()) ∧ s.names.Nodup ∧
      (∀ id r s', s.remove id = some (r, s') → ∀ text rule,
        ∃ t, s'.insert r.name text rule = .ok (⟨s.lastId + 1, r.name, text, rule⟩, t)) ∧
      (replies.filterMap Update.Reply.stored?).map Record.id =
        List.range' 1 (replies.filterMap Update.Reply.stored?).length := by
  obtain ⟨hrun, h⟩ := Store.run_ledger us
  have hids := Ledger.run_ids us Ledger.empty
  rw [hrun] at hids ⊢
  refine ⟨rfl, rfl, h.shows, fun _ _ => h.id_eq, fun _ _ => h.indexed, ?_, h.nodup_names, ?_, hids⟩
  · intro r hr
    exact h.valid (h.mem_toList.1 hr)
  · intro id r s' hr text rule
    exact h.insert_removed hr text rule

/-- Of two names the first one is removed and comes back with a new id, and the second one could. -/
theorem Store.run_shows_ledger_renewed :
    let rule : Rule := .condition ⟨['x'], .equal, .string ['y']⟩
    let us : List Update := [.insert "b".toList none rule, .insert "a".toList none rule, .remove 1,
      .insert "b".toList none rule]
    let s := (Update.run Store.update Store.empty us).2
    s.Shows ⟨[⟨2, "a".toList, none, rule⟩, ⟨3, "b".toList, none, rule⟩], 3⟩ ∧ s.names.Nodup ∧
      ∃ s', s.remove 2 = some (⟨2, "a".toList, none, rule⟩, s') ∧
        ∃ t, s'.insert "a".toList none rule = .ok (⟨4, "a".toList, none, rule⟩, t) := by
  intro rule us s
  have hledger : (Update.run Ledger.update Ledger.empty us).2 =
      ⟨[⟨2, "a".toList, none, rule⟩, ⟨3, "b".toList, none, rule⟩], 3⟩ := rfl
  obtain ⟨s', hremove⟩ : ∃ s', s.remove 2 = some (⟨2, "a".toList, none, rule⟩, s') := by
    have hmem : ⟨2, "a".toList, none, rule⟩ ∈ s.toList := by
      rw [Store.run_toList, hledger]
      exact List.mem_cons_self ..
    obtain ⟨s', hremove, -⟩ := (Store.run_ledger us).2.remove_listed hmem
    exact ⟨s', hremove⟩
  have hs : (Update.run Store.update Store.empty us).2 = s := rfl
  have h := Store.run_shows_ledger us
  clear_value s us
  generalize Update.run Store.update Store.empty us = after at hs h
  generalize Update.run Ledger.update Ledger.empty us = after' at hledger h
  obtain ⟨replies, s⟩ := after
  obtain ⟨replies', l⟩ := after'
  cases hs
  cases hledger
  obtain ⟨-, hlast, hshows, -, -, -, hnodup, hfree, -⟩ := h
  have hagain := hfree 2 _ s' hremove none rule
  rw [hlast] at hagain
  exact ⟨hshows, hnodup, s', hremove, hagain⟩

end Rulebook
