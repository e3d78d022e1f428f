import Rulebook.Proofs.Interleaving
set_option autoImplicit false

/-!
Reading through the cache cannot be told from reading. Calls made at the same time get what their texts
spell, and sessions differ in nothing but the caching, whichever of their settings turn it on or off.
-/

namespace Rulebook.Service

open Operation

/-- A read through the cache is done after two accesses, or after one if the text spells no rule. -/
theorem readCached_path {text : Text} {log : List Event} {d : Dialogue (Except Error Reply)}
    (h : Dialogue.Path (ExceptT.run (Reply.rule <$> readCached text)) log d) (ht : Truthful log) :
    d = .done ((Rule.read text).map .rule) ∨
      log.length < 2 ∧ ∃ access next, d = .ask access next := by
  obtain ⟨rfl, rfl⟩ | ⟨answer, rest, rfl, hrest⟩ := Dialogue.Path.of_ask h
  · exact .inr ⟨by simp, _, _, rfl⟩
  · cases answer with
    | some rule =>
      have hread : Rule.read text = .ok rule := ht _ List.mem_cons_self
      obtain ⟨rfl, rfl⟩ := Dialogue.Path.of_done hrest
      rw [hread]
      exact .inl rfl
    | none =>
      simp only at hrest
      cases hread : Rule.read text with
      | error e =>
        rw [hread] at hrest
        obtain ⟨rfl, rfl⟩ := Dialogue.Path.of_done hrest
        exact .inl rfl
      | ok rule =>
        rw [hread] at hrest
        obtain ⟨rfl, rfl⟩ | ⟨answer, last, rfl, hlast⟩ := Dialogue.Path.of_ask hrest
        · exact .inr ⟨by simp, _, _, rfl⟩
        · obtain ⟨rfl, rfl⟩ := Dialogue.Path.of_done hlast
          exact .inl rfl

theorem read_path {s : Settings} {text : Text} {log : List Event} {d : Dialogue (Except Error Reply)}
    (h : Dialogue.Path (ExceptT.run ((Call.read text).operation s)) log d) (ht : Truthful log) :
    d = .done ((Rule.read text).map .rule) ∨
      log.length < 2 ∧ ∃ access next, d = .ask access next := by
  simp only [Call.operation, read] at h
  split at h
  · exact readCached_path h ht
  · generalize Rule.read text = spelled at h ⊢
    cases spelled with
    | ok rule => exact .inl (Dialogue.Path.of_done h).2
    | error e => exact .inl (Dialogue.Path.of_done h).2

/-- However calls come between each other, the cache holds what texts spell, within its capacity, and a
call that reads has what its text spells once it has made two accesses. Sessions whose settings differ
in their caching alone get the same replies and come to the same store. -/
theorem cache_transparent :
    (∀ schedule : List Move,
      (System.run schedule).shared.cache.Sound ∧
        ∀ a ∈ (System.run schedule).calls, ∀ text, a.call = .read text →
          a.reply? = some ((Rule.read text).map .rule) ∨ a.reply? = none ∧ a.log.length < 2) ∧
    ∀ (s t : Session) (as bs : List Turn), s.SameButCaching t →
      List.Forall₂ Turn.SameButCaching as bs →
      (s.run as).1 = (t.run bs).1 ∧ (s.run as).2.SameButCaching (t.run bs).2 := by
  refine ⟨fun schedule => ?_, fun s t as bs hst hturns => hst.run hturns⟩
  have h := System.coherent_run schedule
  refine ⟨h.sound, fun a ha text hcall => ?_⟩
  have hpath := h.genuine a ha
  unfold Activity.Genuine at hpath
  rw [hcall] at hpath
  obtain hdone | ⟨hlog, access, next, hask⟩ :=
    read_path hpath fun e he => h.truthful e (h.log_subset ha he)
  · exact .inl (by simp only [Activity.reply?, hdone])
  · exact .inr ⟨by simp only [Activity.reply?, hask], hlog⟩

/-- Two calls read a text that spells no rule and a third one empties the cache in between. A session is
gone through with its caching on and once more with it switched off half way. -/
theorem cache_transparent_switched :
    let σ := System.run [.call .standard (.read "x=".toList), .call .standard (.read "x=".toList),
      .call .standard .clearCache, .access 0, .access 2, .access 1]
    let calls : List Turn := [.call (.read "x='y'".toList), .call (.delete "a".toList)]
    let s := Session.run ⟨.standard, Shared.empty⟩ (calls ++ .reconfigure .standard :: calls)
    let t := Session.run ⟨.standard, Shared.empty⟩
      (calls ++ .reconfigure { Settings.standard with caching := false } :: calls)
    (∃ a, σ.calls[1]? = some a ∧ a.reply? = some ((Rule.read "x=".toList).map .rule)) ∧
      s.1 = t.1 ∧ t.2.shared.store = s.2.shared.store := by
  intro σ calls s t
  constructor
  · obtain ⟨hcall, hreply⟩ : σ.calls[1]?.map Activity.call = some (.read "x=".toList) ∧
        (σ.calls[1]?.bind Activity.reply?).isSome := by
      obtain ⟨next, hread, reply, hreply⟩ : ∃ next,
          ExceptT.run ((Call.read "x=".toList).operation .standard) = .ask (.lookup "x=".toList) next ∧
          ∃ reply, next none = .done reply := ⟨_, rfl, _, rfl⟩
      have hclear : ExceptT.run (Call.clearCache.operation .standard) = .ask .clear _ := rfl
      have hlookup : (Access.lookup "x=".toList).perform Shared.empty = (none, Shared.empty) := by
        simp [Access.perform, Shared.empty, Cache.empty, Cache.find?]
      have hcleared : Access.clear.perform Shared.empty = ((), Shared.empty) := rfl
      simp only [σ, System.run, List.foldl_cons, List.foldl_nil, System.move, System.start,
        Activity.start, List.nil_append, List.cons_append, List.getElem?_cons_zero,
        List.getElem?_cons_succ, List.set, hread, hclear, hlookup, hcleared, hreply]
      exact ⟨rfl, rfl⟩
    have hσ : ∀ a ∈ σ.calls, ∀ text, a.call = .read text →
        a.reply? = some ((Rule.read text).map .rule) ∨ a.reply? = none ∧ a.log.length < 2 :=
      (cache_transparent.1 _).2
    clear_value σ
    obtain ⟨a, ha, hcall⟩ := Option.map_eq_some_iff.1 hcall
    rw [ha] at hreply
    obtain hdone | ⟨hnone, -⟩ := hσ a (List.mem_of_getElem? ha) _ hcall
    · exact ⟨a, ha, hdone⟩
    · simp [hnone] at hreply
  · have hcalls : List.Forall₂ Turn.SameButCaching calls calls := .cons (.call _) (.cons (.call _) .nil)
    have hturns : List.Forall₂ Turn.SameButCaching (calls ++ .reconfigure .standard :: calls)
        (calls ++ .reconfigure { Settings.standard with caching := false } :: calls) :=
      List.rel_append hcalls (.cons (.reconfigure _ false) hcalls)
    have hstart : Session.SameButCaching ⟨.standard, Shared.empty⟩ ⟨.standard, Shared.empty⟩ :=
      ⟨⟨true, rfl⟩, rfl, Cache.sound_empty, Cache.sound_empty⟩
    obtain ⟨hreplies, hsame⟩ := cache_transparent.2 _ _ _ _ hstart hturns
    exact ⟨hreplies, hsame.store⟩

end Rulebook.Service
