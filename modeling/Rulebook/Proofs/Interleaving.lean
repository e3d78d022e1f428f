import Rulebook.Proofs.OperationLog
import Rulebook.Proofs.Runs
set_option autoImplicit false

/-!
Calls made at the same time. However their accesses come between each other, ids ascend, names are used
once, each record inserted is stored or was answered by one delete, a delete answers the record that it
found, and a combination is made of the rules that its own accesses gave.
-/

namespace Rulebook.Service

open Operation

/-! ### Calls under way -/

namespace Activity

/-- The record that a call answers to have stored. -/
def stored? (a : Activity) : Option Record :=
  match a.call, a.reply? with
  | .create _, some (.ok (.record r)) => some r
  | .combine _ _, some (.ok (.record r)) => some r
  | _, _ => none

/-- The record that a call answers to have deleted. -/
def deleted? (a : Activity) : Option Record :=
  match a.call, a.reply? with
  | .delete _, some (.ok (.record r)) => some r
  | _, _ => none

/-- The call has come so far by the accesses in its log. -/
def Genuine (a : Activity) : Prop :=
  Dialogue.Path (ExceptT.run (a.call.operation a.settings)) a.log a.rest

variable {a : Activity}

theorem genuine_start (s : Settings) (c : Call) : (start s c).Genuine := .refl _

theorem rest_eq_of_reply? {reply : Except Error Reply} (h : a.reply? = some reply) :
    a.rest = .done reply := by
  unfold reply? at h
  split at h
  · cases h
    assumption
  · cases h

theorem Genuine.yields (h : a.Genuine) {reply : Except Error Reply} (hreply : a.reply? = some reply) :
    (a.call.operation a.settings).Yields a.log reply := by
  have hpath := h
  unfold Genuine at hpath
  rwa [rest_eq_of_reply? hreply] at hpath

/-- A call has removed the record that it answers to have deleted, and no other one. -/
theorem Genuine.removed_log (h : a.Genuine) : removed a.log = a.deleted?.toList := by
  obtain ⟨s, c, log, rest⟩ := a
  by_cases hc : ∃ t, c = .delete t
  · obtain ⟨t, rfl⟩ := hc
    obtain ⟨found, r, rfl, rfl⟩ | ⟨hlog, hrest⟩ := delete_path h
    · rfl
    · have hnone : deleted? ⟨s, .delete t, log, rest⟩ = none := by
        unfold deleted?
        split
        · rename_i hreply
          exact absurd (rest_eq_of_reply? hreply) (hrest _)
        · rfl
      rw [hnone]
      exact hlog
  · have hkeeps : (c.operation s).Keeps removesNothing :=
      keeps_operation (removesNothing_reads.handles fun _ _ _ _ h => by cases h)
        (fun _ h => by cases h) (fun t ht => absurd ⟨t, ht⟩ hc) s
    have hnone : deleted? ⟨s, c, log, rest⟩ = none := by
      unfold deleted?
      split
      · exact absurd ⟨_, by assumption⟩ hc
      · rfl
    rw [hnone]
    exact removed_eq_nil (h.meets hkeeps fun _ _ => trivial).1

end Activity

/-! ### Systems -/

/-- What holds of calls made at the same time after any number of moves. -/
structure System.Coherent (σ : System) : Prop where
  replays : Replays Shared.empty σ.history σ.shared
  recorded : Recorded σ.history σ.shared.store
  sound : σ.shared.cache.Sound
  truthful : Truthful σ.history
  perm : σ.history.Perm (σ.calls.flatMap Activity.log)
  genuine : ∀ a ∈ σ.calls, a.Genuine

namespace System

theorem coherent_start : start.Coherent where
  replays := .nil
  recorded := .empty
  sound := Cache.sound_empty
  truthful _ he := by cases he
  perm := .refl _
  genuine _ ha := by cases ha

variable {σ : System}

theorem Coherent.log_subset (h : σ.Coherent) {a : Activity} (ha : a ∈ σ.calls) {e : Event}
    (he : e ∈ a.log) : e ∈ σ.history :=
  h.perm.mem_iff.2 (List.mem_flatMap.2 ⟨a, ha, he⟩)

theorem Coherent.call (h : σ.Coherent) (s : Settings) (c : Call) : (σ.move (.call s c)).Coherent where
  replays := h.replays
  recorded := h.recorded
  sound := h.sound
  truthful := h.truthful
  perm := by
    have hlog : (Activity.start s c).log = [] := rfl
    simpa [move, hlog] using h.perm
  genuine a ha := by
    obtain ha | ha := List.mem_append.1 ha
    · exact h.genuine a ha
    · rw [List.mem_singleton.1 ha]
      exact Activity.genuine_start s c

/-- Either the call at the place is done, or its next access is performed. -/
theorem move_access_cases (σ : System) (place : Nat) :
    σ.move (.access place) = σ ∨
      ∃ s c log access next before behind,
        σ.calls = before ++ ⟨s, c, log, .ask access next⟩ :: behind ∧
        σ.move (.access place) =
          ⟨(access.perform σ.shared).2,
            before ++ ⟨s, c, log ++ [⟨access, (access.perform σ.shared).1⟩],
              next (access.perform σ.shared).1⟩ :: behind,
            σ.history ++ [⟨access, (access.perform σ.shared).1⟩]⟩ := by
  simp only [move]
  split
  · rename_i s c log access next hcall
    obtain ⟨hplace, hcall⟩ := List.getElem?_eq_some_iff.1 hcall
    refine .inr ⟨s, c, log, access, next, σ.calls.take place, σ.calls.drop (place + 1), ?_, ?_⟩
    · rw [← hcall, List.getElem_cons_drop hplace, List.take_append_drop]
    · rw [List.set_eq_take_append_cons_drop, if_pos hplace]
  · exact .inl rfl

theorem Coherent.access (h : σ.Coherent) (place : Nat) : (σ.move (.access place)).Coherent := by
  obtain hmove | ⟨s, c, log, access, next, before, behind, hcalls, hmove⟩ := σ.move_access_cases place
  · rwa [hmove]
  · have hmem : (⟨s, c, log, .ask access next⟩ : Activity) ∈ σ.calls := by simp [hcalls]
    have hpath := h.genuine _ hmem
    have hkeeps : (c.operation s).Keeps Contract.caching :=
      keeps_operation (Contract.caching_reads.handles fun _ _ _ => trivial) trivial
        (fun _ _ _ => trivial) s
    have hpromise : Contract.caching.promises access :=
      (hpath.meets hkeeps fun e he => h.truthful e (h.log_subset hmem he)).2.1
    obtain ⟨hanswer, hsound⟩ := h.sound.perform hpromise
    rw [hmove]
    refine ⟨h.replays.snoc access, h.recorded.perform access, hsound, ?_, ?_, ?_⟩
    · intro e he
      obtain he | he := List.mem_append.1 he
      · exact h.truthful e he
      · rw [List.mem_singleton.1 he]
        exact hanswer
    · have hperm := h.perm.append_right [⟨access, (access.perform σ.shared).1⟩]
      simp only [hcalls, List.flatMap_append, List.flatMap_cons, List.append_assoc] at hperm ⊢
      exact hperm.trans ((List.perm_append_comm.append_left log).append_left _)
    · intro a ha
      obtain ha | ha := List.mem_append.1 ha
      · exact h.genuine a (by simp [hcalls, ha])
      obtain rfl | ha := List.mem_cons.1 ha
      · exact hpath.snoc _
      · exact h.genuine a (by simp [hcalls, ha])

/-- Calls cohere however their accesses come between each other. -/
theorem coherent_run (schedule : List Move) : (run schedule).Coherent := by
  unfold run
  refine List.foldlRecOn schedule move coherent_start fun σ hσ move _ => ?_
  cases move with
  | call s c => exact hσ.call s c
  | access place => exact hσ.access place

/-- The records that calls answer to have deleted. -/
def deleted (σ : System) : List Record := σ.calls.filterMap Activity.deleted?

theorem Coherent.deleted_perm (h : σ.Coherent) : σ.deleted.Perm (removed σ.history) := by
  have hcalls : σ.calls.flatMap (fun a => removed a.log) = σ.deleted := by
    unfold deleted
    rw [List.filterMap_eq_flatMap_toList]
    exact List.flatMap_congr fun a ha => (h.genuine a ha).removed_log
  rw [← hcalls]
  have hperm := h.perm.filterMap Event.removed?
  rw [List.filterMap_flatMap] at hperm
  exact hperm.symm

/-- What an insertion answers is what it was to store. -/
theorem Coherent.eq_of_insert (h : σ.Coherent) {a : Activity} (ha : a ∈ σ.calls) {name : Text}
    {text : Option Text} {rule : Rule} {r : Record} {earlier : List Event}
    (hlog : a.log = earlier ++ [⟨.insert name text rule, .ok r⟩]) :
    r.name = name ∧ r.text = text ∧ r.rule = rule :=
  (h.recorded.names _ (h.log_subset ha (e := ⟨.insert name text rule, .ok r⟩) (by simp [hlog]))).2

end System

/-- What clients of one service can rely on while they call it at the same time. -/
structure System.Orderly (σ : System) : Prop where
  /-- The accesses come one after the other, each answered by what is shared at that time. -/
  replays : Replays Shared.empty σ.history σ.shared
  /-- They are those of the calls. -/
  history : σ.history.Perm (σ.calls.flatMap Activity.log)
  /-- Ids ascend in the order in which records are stored. -/
  ascending : (inserted σ.history).Pairwise fun a b => a.id < b.id
  /-- What a call answers to have stored is what its last access stored. -/
  stored : ∀ a ∈ σ.calls, ∀ r, a.stored? = some r →
    ∃ earlier, a.log = earlier ++ [⟨.insert r.name r.text r.rule, .ok r⟩]
  names : σ.shared.store.names.Nodup
  /-- A record that was stored still is, or it is the answer of one delete. -/
  settled : ∀ r ∈ inserted σ.history,
    r ∈ σ.shared.store.toList ∧ σ.deleted.count r = 0 ∨
      r ∉ σ.shared.store.toList ∧ σ.deleted.count r = 1
  /-- There are no other records. -/
  known : ∀ r, r ∈ σ.shared.store.toList ∨ r ∈ σ.deleted → r ∈ inserted σ.history
  /-- A delete answers the record that it found. -/
  delete : ∀ a ∈ σ.calls, ∀ t r, a.call = .delete t → a.reply? = some (.ok (.record r)) →
    a.log = [⟨.find t, some r⟩, ⟨.remove r.id, some r⟩]
  /-- A combined rule is made of what the references of the call came to. -/
  combine : ∀ a ∈ σ.calls, ∀ draws q r, a.call = .combine draws q →
    a.reply? = some (.ok (.record r)) → Combined a.settings draws q r.rule r a.log

namespace System

variable {σ : System}

theorem Coherent.create_log (h : σ.Coherent) {a : Activity} (ha : a ∈ σ.calls) {q : CreateRequest}
    {r : Record} (hcall : a.call = .create q) (hreply : a.reply? = some (.ok (.record r))) :
    ∃ earlier, a.log = earlier ++ [⟨.insert r.name r.text r.rule, .ok r⟩] := by
  have hyields := (h.genuine a ha).yields hreply
  rw [hcall] at hyields
  obtain ⟨r', hr', hcreate⟩ := Yields.of_map hyields
  cases hr'
  obtain ⟨earlier, name, text, rule, hlog⟩ := create_yields hcreate
  obtain ⟨rfl, rfl, rfl⟩ := h.eq_of_insert ha hlog
  exact ⟨earlier, hlog⟩

theorem Coherent.combine_log (h : σ.Coherent) {a : Activity} (ha : a ∈ σ.calls) {draws : Draws}
    {q : CombineRequest} {r : Record} (hcall : a.call = .combine draws q)
    (hreply : a.reply? = some (.ok (.record r))) :
    Combined a.settings draws q r.rule r a.log ∧
      ∃ earlier, a.log = earlier ++ [⟨.insert r.name r.text r.rule, .ok r⟩] := by
  have hyields := (h.genuine a ha).yields hreply
  rw [hcall] at hyields
  obtain ⟨r', hr', hcombine⟩ := Yields.of_map hyields
  cases hr'
  obtain ⟨rule, hcombined⟩ := combine_yields hcombine fun e he => h.truthful e (h.log_subset ha he)
  obtain ⟨earlier, name, hlog⟩ := hcombined.exists_insert
  obtain ⟨rfl, htext, rfl⟩ := h.eq_of_insert ha hlog
  rw [htext]
  exact ⟨hcombined, earlier, hlog⟩

theorem Coherent.stored_log (h : σ.Coherent) {a : Activity} (ha : a ∈ σ.calls) {r : Record}
    (hr : a.stored? = some r) :
    ∃ earlier, a.log = earlier ++ [⟨.insert r.name r.text r.rule, .ok r⟩] := by
  unfold Activity.stored? at hr
  split at hr
  · rename_i hcall hreply
    cases hr
    exact h.create_log ha hcall hreply
  · rename_i hcall hreply
    cases hr
    exact (h.combine_log ha hcall hreply).2
  · cases hr

theorem Coherent.delete_log (h : σ.Coherent) {a : Activity} (ha : a ∈ σ.calls) {t : Text} {r : Record}
    (hcall : a.call = .delete t) (hreply : a.reply? = some (.ok (.record r))) :
    a.log = [⟨.find t, some r⟩, ⟨.remove r.id, some r⟩] := by
  have hyields := (h.genuine a ha).yields hreply
  rw [hcall] at hyields
  obtain ⟨found, r', hlog, hd⟩ | ⟨-, hd⟩ := delete_path hyields
  · cases hd
    obtain hfound := h.recorded.names _ (h.log_subset ha (e := ⟨.find t, some found⟩) (by simp [hlog]))
    obtain ⟨hr, hid⟩ :=
      h.recorded.names _ (h.log_subset ha (e := ⟨.remove found.id, some r⟩) (by simp [hlog]))
    obtain rfl := h.recorded.eq_of_id_eq hr hfound hid
    exact hlog
  · exact absurd rfl (hd _)

theorem Coherent.settled (h : σ.Coherent) {r : Record} (hr : r ∈ inserted σ.history) :
    r ∈ σ.shared.store.toList ∧ σ.deleted.count r = 0 ∨
      r ∉ σ.shared.store.toList ∧ σ.deleted.count r = 1 := by
  have hmem : r ∈ σ.shared.store.toList ↔ r ∉ removed σ.history := by
    rw [h.recorded.toList]
    simp [hr]
  rw [hmem, h.deleted_perm.count_eq]
  by_cases hremoved : r ∈ removed σ.history
  · exact .inr ⟨not_not_intro hremoved, List.count_eq_one_of_mem h.recorded.nodup_removed hremoved⟩
  · exact .inl ⟨hremoved, List.count_eq_zero.2 hremoved⟩

theorem run_orderly (schedule : List Move) : (run schedule).Orderly where
  replays := (coherent_run schedule).replays
  history := (coherent_run schedule).perm
  ascending := (coherent_run schedule).recorded.ascending
  stored _ ha _ hr := (coherent_run schedule).stored_log ha hr
  names := (coherent_run schedule).recorded.consistent.nodup_names
  settled _ hr := (coherent_run schedule).settled hr
  known r hr := by
    have h := coherent_run schedule
    obtain hr | hr := hr
    · exact h.recorded.mem_stored hr
    · exact h.recorded.removed_subset r (h.deleted_perm.mem_iff.1 hr)
  delete _ ha _ _ hcall hreply := (coherent_run schedule).delete_log ha hcall hreply
  combine _ ha _ _ _ hcall hreply := ((coherent_run schedule).combine_log ha hcall hreply).1

/-- Two calls race to delete a rule while a third one combines it. One of the two does so, and answers what
it found. The combined rule is stored, with what the rule was when it was found. -/
theorem run_orderly_race :
    let s : Settings := ⟨.homogeneous, false, "combined".toList, 4, none⟩
    let σ := run [.call s (.create ⟨some "a".toList, some "x='y'".toList⟩), .access 0,
      .call s (.combine (Draws.numbered 0) ⟨["a".toList], some "AND".toList⟩),
      .call s (.delete "a".toList), .call s (.delete "1".toList),
      .access 1, .access 2, .access 3, .access 3, .access 2, .access 1]
    let rule : Rule := .condition ⟨['x'], .equal, .string ['y']⟩
    let r : Record := ⟨1, "a".toList, some "x='y'".toList, rule⟩
    r ∉ σ.shared.store.toList ∧ σ.deleted.count r = 1 ∧ σ.shared.store.names.Nodup ∧
      (∃ a, σ.calls[3]? = some a ∧ a.log = [⟨.find "1".toList, some r⟩, ⟨.remove 1, some r⟩]) ∧
      ∃ combined ∈ σ.shared.store.toList, combined.rule = rule := by
  intro s σ rule r
  have h : σ.Orderly := run_orderly _
  have hname : Name.check "a".toList = .ok () := rfl
  have hdrawn : Name.check "combinedalwH".toList = .ok () := rfl
  have hjoin : combination s .and [rule] = .ok rule := by
    simp only [s, rule]
    cbv
  -- What is shared after each of the accesses, in the order in which they come.
  obtain ⟨t₁, hinsert, ht₁, hlist₁, hlast₁⟩ : ∃ t,
      (Access.insert "a".toList (some "x='y'".toList) rule).perform Shared.empty =
        (.ok r, ⟨t, Cache.empty⟩) ∧ t.Consistent ∧ t.toList = [r] ∧ t.lastId = 1 :=
    Access.perform_insert_free (s := Shared.empty) Store.consistent_empty hname List.not_mem_nil _ rule
  have hmem : r ∈ t₁.toList := by simp [hlist₁]
  have hfind := Access.perform_find (s := ⟨t₁, Cache.empty⟩) (t := "a".toList)
    (ht₁.find?_eq_some_iff.2 ⟨hmem, by decide⟩)
  have hfindId := Access.perform_find (s := ⟨t₁, Cache.empty⟩) (t := "1".toList)
    (ht₁.find?_eq_some_iff.2 ⟨hmem, by decide⟩)
  obtain ⟨t₂, hremove, ht₂, hlist₂, hlast₂⟩ := Access.perform_remove (s := ⟨t₁, Cache.empty⟩) ht₁ hmem
  have hnil : t₂.toList = [] := hlist₂.trans (by simp [hlist₁])
  have hmissed : (Access.remove r.id).perform ⟨t₂, Cache.empty⟩ = (none, ⟨t₂, Cache.empty⟩) :=
    Access.perform_remove_none ht₂ (by simp [hnil])
  obtain ⟨t₃, hinsert', -, hlist₃, -⟩ := Access.perform_insert_free (s := ⟨t₂, Cache.empty⟩) ht₂ hdrawn
    (by simp [Store.names, hnil]) none rule
  -- How the calls go on after these answers.
  have hcreate : ExceptT.run ((Call.create ⟨some "a".toList, some "x='y'".toList⟩).operation s) =
      .ask (.insert "a".toList (some "x='y'".toList) rule) _ := rfl
  obtain ⟨next, hcombine, next', hcombining⟩ : ∃ next,
      ExceptT.run ((Call.combine (Draws.numbered 0) ⟨["a".toList], some "AND".toList⟩).operation s) =
        .ask (.find "a".toList) next ∧
      ∃ next', next (some r) = .ask (.insert "combinedalwH".toList none rule) next' := by
    refine ⟨_, rfl, ?_⟩
    show ∃ next', ExceptT.run (Reply.record <$> (settle (combination s .and [rule]) >>= fun rule =>
      storeDrawn s (Draws.numbered 0) rule 0 (Draws.maxAttempts - 1))) = .ask _ next'
    rw [hjoin]
    exact ⟨_, rfl⟩
  obtain ⟨hlist, hinserted, hcall, hreply⟩ :
      σ.shared.store.toList = [⟨2, "combinedalwH".toList, none, rule⟩] ∧
      inserted σ.history = [r, ⟨2, "combinedalwH".toList, none, rule⟩] ∧
      σ.calls[3]?.map Activity.call = some (.delete "1".toList) ∧
      σ.calls[3]?.bind Activity.reply? = some (.ok (.record r)) := by
    simp only [σ, run, List.foldl_cons, List.foldl_nil, move, start, Activity.start, List.nil_append,
      List.cons_append, List.getElem?_cons_zero, List.getElem?_cons_succ, List.set, hcreate, hcombine,
      hcombining, delete_dialogue, hinsert, hfind, hfindId, hremove, hmissed, hinsert']
    have hlast : t₂.lastId = 1 := hlast₂.trans hlast₁
    refine ⟨hlist₃.trans ?_, ?_, rfl, rfl⟩
    · simp only [hnil, hlast, List.nil_append]
    · rw [hlast]
      rfl
  clear_value σ
  have hgone : r ∉ σ.shared.store.toList := by simp [hlist, r]
  obtain ⟨hstored, -⟩ | ⟨-, hcount⟩ := h.settled r (by simp [hinserted])
  · exact absurd hstored hgone
  obtain ⟨a, ha, hcall⟩ := Option.map_eq_some_iff.1 hcall
  rw [ha] at hreply
  have hlog := h.delete a (List.mem_of_getElem? ha) _ r hcall hreply
  exact ⟨hgone, hcount, h.names, ⟨a, ha, hlog⟩, by simp [hlist]⟩

end System
end Rulebook.Service
