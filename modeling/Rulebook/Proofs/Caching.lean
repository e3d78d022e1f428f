import Mathlib.Data.List.Forall2
import Rulebook.Proofs.Contract
set_option autoImplicit false

/-!
The cache holds nothing but what texts spell, and never more than there is room for. Operations that
differ only in whether they read through it have the same answers and leave the same store.
-/

namespace Rulebook

/-! ### What the cache holds -/

/-- Every rule in it is the one that its text spells, and there is room for all of them. -/
structure Cache.Sound (c : Cache) : Prop where
  spelled : ∀ {text : Text} {rule : Rule}, c.find? text = some rule → Rule.read text = .ok rule
  size_le : c.size ≤ capacity

namespace Cache

theorem sound_empty : empty.Sound where
  spelled h := by simp [empty, find?] at h
  size_le := Nat.zero_le _

theorem Sound.keep {c : Cache} (h : c.Sound) {text : Text} {rule : Rule}
    (hr : Rule.read text = .ok rule) : (c.keep text rule).Sound where
  spelled {t r} hf := by
    rw [find?_keep] at hf
    split at hf
    · cases hf
      subst t
      exact hr
    · split at hf
      · cases hf
      · exact h.spelled hf
  size_le := size_keep_le c text rule h.size_le

end Cache

/-- Only what a text spells is kept under it, as long as only that is found. -/
def Contract.caching : Contract where
  promises access :=
    match access with
    | .keep text rule => Rule.read text = .ok rule
    | _ => True
  assumes access answer :=
    match access, answer with
    | .lookup text, some rule => Rule.read text = .ok rule
    | _, _ => True

theorem Contract.caching_reads : Contract.caching.Reads :=
  ⟨fun _ => trivial, fun _ => trivial, fun _ _ h => h⟩

/-- One access: a sound cache answers soundly, and stays sound if what is kept is. -/
theorem Cache.Sound.perform {s : Shared} (h : s.cache.Sound) {access : Access}
    (hp : Contract.caching.promises access) :
    Contract.caching.assumes access (access.perform s).1 ∧ (access.perform s).2.cache.Sound := by
  cases access with
  | insert name text rule =>
    refine ⟨trivial, ?_⟩
    simp only [Access.perform]
    split <;> exact h
  | find identifier => exact ⟨trivial, h⟩
  | remove id =>
    refine ⟨trivial, ?_⟩
    simp only [Access.perform]
    split <;> exact h
  | lookup text =>
    refine ⟨?_, h⟩
    simp only [Access.perform]
    cases hf : s.cache.find? text with
    | none => trivial
    | some rule => exact h.spelled hf
  | keep text rule => exact ⟨trivial, h.keep hp⟩
  | clear => exact ⟨trivial, Cache.sound_empty⟩

/-! ### Dialogues that differ in their caching alone -/

/-- Over one store and any two sound caches, they have the same result and leave the same store. -/
def Dialogue.Alike {α : Type} (d e : Dialogue α) : Prop :=
  ∀ (store : Store) (c k : Cache), c.Sound → k.Sound →
    ∃ a store' c' k', c'.Sound ∧ k'.Sound ∧
      d.run ⟨store, c⟩ = (a, ⟨store', c'⟩) ∧ e.run ⟨store, k⟩ = (a, ⟨store', k'⟩)

theorem Dialogue.Alike.bind {α β : Type} {d e : Dialogue α} {f g : α → Dialogue β}
    (hd : d.Alike e) (hf : ∀ a, (f a).Alike (g a)) : (d.bind f).Alike (e.bind g) := by
  intro store c k hc hk
  obtain ⟨a, store', c', k', hc', hk', hdrun, herun⟩ := hd store c k hc hk
  obtain ⟨b, store'', c'', k'', hc'', hk'', hfrun, hgrun⟩ := hf a store' c' k' hc' hk'
  refine ⟨b, store'', c'', k'', hc'', hk'', ?_, ?_⟩
  · rw [run_bind, hdrun, hfrun]
  · rw [run_bind, herun, hgrun]

namespace Operation

variable {α β : Type}

def Alike (o p : Operation α) : Prop := Dialogue.Alike (ExceptT.run o) (ExceptT.run p)

theorem alike_settle (e : Except Error α) : (settle e).Alike (settle e) :=
  fun store c k hc hk => ⟨e, store, c, k, hc, hk, rfl, rfl⟩

theorem alike_pure (a : α) : (pure a : Operation α).Alike (pure a) := alike_settle (.ok a)

theorem alike_throw (e : Error) : (throw e : Operation α).Alike (throw e) := alike_settle (.error e)

theorem Alike.bind {o p : Operation α} {f g : α → Operation β} (ho : o.Alike p)
    (hf : ∀ a, (f a).Alike (g a)) : (o >>= f).Alike (p >>= g) := by
  refine Dialogue.Alike.bind ho fun r => ?_
  cases r with
  | ok a => exact hf a
  | error e => exact alike_throw e

theorem Alike.tryCatch {o p : Operation α} {f : Error → Operation α} (ho : o.Alike p)
    (hf : ∀ e, (f e).Alike (f e)) : (tryCatch o f).Alike (tryCatch p f) := by
  refine Dialogue.Alike.bind ho fun r => ?_
  cases r with
  | ok a => exact alike_pure a
  | error e => exact hf e

theorem Alike.map {o p : Operation α} (ho : o.Alike p) (f : α → β) : (f <$> o).Alike (f <$> p) := by
  rw [← bind_pure_comp, ← bind_pure_comp]
  exact ho.bind fun a => alike_pure (f a)

theorem alike_mapM {f g : α → Operation β} (hf : ∀ a, (f a).Alike (g a)) (as : List α) :
    (as.mapM f).Alike (as.mapM g) := by
  induction as with
  | nil => exact alike_pure []
  | cons a as ih =>
    rw [List.mapM_cons, List.mapM_cons]
    exact (hf a).bind fun b => ih.bind fun bs => alike_pure (b :: bs)

/-- An access that has nothing to do with what the cache holds. -/
theorem alike_ask {access : Access} (hp : Contract.caching.promises access)
    (hanswer : ∀ store c k, (access.perform ⟨store, c⟩).1 = (access.perform ⟨store, k⟩).1)
    (hstore : ∀ store c k,
      (access.perform ⟨store, c⟩).2.store = (access.perform ⟨store, k⟩).2.store) :
    (ask access).Alike (ask access) := by
  intro store c k hc hk
  refine ⟨.ok (access.perform ⟨store, c⟩).1, (access.perform ⟨store, c⟩).2.store,
    (access.perform ⟨store, c⟩).2.cache, (access.perform ⟨store, k⟩).2.cache,
    (Cache.Sound.perform (s := ⟨store, c⟩) hc hp).2, (Cache.Sound.perform (s := ⟨store, k⟩) hk hp).2,
    rfl, ?_⟩
  rw [hanswer store c k, hstore store c k]
  rfl

theorem alike_insert (name : Text) (text : Option Text) (rule : Rule) :
    (ask (.insert name text rule)).Alike (ask (.insert name text rule)) := by
  refine alike_ask trivial ?_ ?_
  all_goals
    intro store c k
    simp only [Access.perform]
    cases store.insert name text rule <;> rfl

theorem alike_find (identifier : Text) :
    (ask (.find identifier)).Alike (ask (.find identifier)) :=
  alike_ask trivial (fun _ _ _ => rfl) fun _ _ _ => rfl

theorem alike_clear : (ask .clear).Alike (ask .clear) :=
  alike_ask trivial (fun _ _ _ => rfl) fun _ _ _ => rfl

theorem alike_remove (id : Nat) : (ask (.remove id)).Alike (ask (.remove id)) := by
  refine alike_ask trivial ?_ ?_
  all_goals
    intro store c k
    simp only [Access.perform]
    cases store.remove id <;> rfl

/-! ### Results that no sound cache changes -/

/-- Over the store and any sound cache, it comes to this result and leaves the store as it is. -/
def ComesTo (store : Store) (o : Operation α) (e : Except Error α) : Prop :=
  ∀ c : Cache, c.Sound → ∃ c' : Cache, c'.Sound ∧ o.run ⟨store, c⟩ = (e, ⟨store, c'⟩)

theorem comesTo_settle (store : Store) (e : Except Error α) : (settle e).ComesTo store e :=
  fun c hc => ⟨c, hc, rfl⟩

/-- What follows goes on from the result, over another sound cache. -/
theorem ComesTo.run_bind {store : Store} {o : Operation α} {e : Except Error α}
    (ho : o.ComesTo store e) (f : α → Operation β) {c : Cache} (hc : c.Sound) :
    ∃ c' : Cache, c'.Sound ∧ (o >>= f).run ⟨store, c⟩ = (settle e >>= f).run ⟨store, c'⟩ := by
  obtain ⟨c', hc', hrun⟩ := ho c hc
  refine ⟨c', hc', ?_⟩
  rw [Operation.run_bind, Operation.run_bind, hrun]
  rfl

theorem ComesTo.bind {store : Store} {o : Operation α} {f : α → Operation β} {e : Except Error α}
    {g : α → Except Error β} (ho : o.ComesTo store e) (hf : ∀ a, (f a).ComesTo store (g a)) :
    (o >>= f).ComesTo store (e >>= g) := by
  intro c hc
  obtain ⟨c', hc', hrun⟩ := ho.run_bind f hc
  rw [hrun]
  cases e with
  | ok a => exact hf a c' hc'
  | error e => exact ⟨c', hc', rfl⟩

theorem ComesTo.tryCatch {store : Store} {o : Operation α} {f : Error → Operation α}
    {e : Except Error α} {g : Error → Except Error α} (ho : o.ComesTo store e)
    (hf : ∀ x, (f x).ComesTo store (g x)) :
    (MonadExcept.tryCatch o f).ComesTo store (MonadExcept.tryCatch e g) := by
  intro c hc
  obtain ⟨c', hc', hrun⟩ := ho c hc
  have hfirst : Dialogue.run o ⟨store, c⟩ = (e, ⟨store, c'⟩) := hrun
  cases e with
  | ok a =>
    refine ⟨c', hc', (Dialogue.run_bind _ _ _).trans ?_⟩
    rw [hfirst]
    rfl
  | error x =>
    obtain ⟨k, hk, hcaught⟩ := hf x c' hc'
    refine ⟨k, hk, (Dialogue.run_bind _ _ _).trans ?_⟩
    rw [hfirst]
    exact hcaught

theorem comesTo_mapM {store : Store} {f : α → Operation β} {g : α → Except Error β}
    (hf : ∀ a, (f a).ComesTo store (g a)) (as : List α) :
    (as.mapM f).ComesTo store (as.mapM g) := by
  induction as with
  | nil => exact comesTo_settle store (.ok [])
  | cons a as ih =>
    rw [List.mapM_cons, List.mapM_cons]
    exact (hf a).bind fun b => ih.bind fun bs => comesTo_settle store (.ok (b :: bs))

end Operation

namespace Service

open Operation

/-- Reading through the cache is reading. -/
theorem comesTo_readCached (text : Text) (store : Store) :
    (readCached text).ComesTo store (Rule.read text) := by
  intro c hc
  have hmeets : (readCached text).Meets Contract.caching (· = Rule.read text) :=
    meets_readCached Contract.caching_reads text (fun _ hr => hr.symm) rfl
  have hkeeps : (readCached text).Keeps Contract.leavesStore :=
    meets_readCached Contract.leavesStore_reads text (fun _ _ => trivial) trivial
  have hrun : ((readCached text).run ⟨store, c⟩).1 = Rule.read text ∧
      ((readCached text).run ⟨store, c⟩).2.cache.Sound :=
    Dialogue.Meets.run (I := fun s => s.cache.Sound) (fun _ _ hp hs => hs.perform hp) hmeets
      (s := ⟨store, c⟩) hc
  have hstore := hkeeps.store_eq ⟨store, c⟩
  generalize (readCached text).run ⟨store, c⟩ = after at hrun hstore ⊢
  obtain ⟨r, store', c'⟩ := after
  obtain ⟨rfl, hc'⟩ := hrun
  cases hstore
  exact ⟨c', hc', rfl⟩

theorem comesTo_read (s : Settings) (text : Text) (store : Store) :
    (read s text).ComesTo store (Rule.read text) := by
  unfold read
  split
  · exact comesTo_readCached text store
  · exact comesTo_settle store _

theorem alike_read (s t : Settings) (text : Text) : (read s text).Alike (read t text) := by
  intro store c k hc hk
  obtain ⟨c', hc', hs⟩ := comesTo_read s text store c hc
  obtain ⟨k', hk', ht⟩ := comesTo_read t text store k hk
  exact ⟨Rule.read text, store, c', k', hc', hk', hs, ht⟩

theorem alike_find_record (identifier : Text) : (find identifier).Alike (find identifier) := by
  refine (alike_find identifier).bind fun answer => ?_
  cases answer with
  | some record => exact alike_pure record
  | none => exact alike_throw _

theorem alike_create (s t : Settings) (q : CreateRequest) : (create s q).Alike (create t q) := by
  unfold create
  cases q.complete? with
  | none => exact alike_throw _
  | some p =>
    exact (alike_read s t p.2).bind fun rule =>
      (alike_insert p.1 (some p.2) rule).bind fun answer => alike_settle answer

theorem alike_resolve (s t : Settings) (reference : Text) :
    (resolve s reference).Alike (resolve t reference) := by
  refine (alike_find reference).bind fun answer => ?_
  cases answer with
  | some record => exact alike_pure record.rule
  | none => exact (alike_read s t reference).tryCatch fun e => alike_throw _

/-- Names of combined rules are drawn alike. -/
theorem alike_storeDrawn (s : Settings) (caching : Bool) (draws : Draws) (rule : Rule)
    (attempt more : Nat) :
    (storeDrawn s draws rule attempt more).Alike
      (storeDrawn { s with caching := caching } draws rule attempt more) := by
  induction more generalizing attempt with
  | zero => exact (alike_insert _ none rule).bind fun answer => alike_settle answer
  | succ more ih =>
    refine (alike_insert _ none rule).bind fun answer => ?_
    split
    · exact ih (attempt + 1)
    · exact alike_settle answer

theorem alike_combine (s : Settings) (caching : Bool) (draws : Draws) (q : CombineRequest) :
    (combine s draws q).Alike (combine { s with caching := caching } draws q) :=
  (alike_settle _).bind fun _ => (alike_mapM (alike_resolve s _) q.references).bind fun _ =>
    (alike_settle _).bind fun rule => alike_storeDrawn s caching draws rule 0 _

theorem alike_getTree (identifier : Text) : (getTree identifier).Alike (getTree identifier) :=
  (alike_find_record identifier).bind fun record => alike_pure record.rule

theorem alike_evaluate (q : EvaluateRequest) : (evaluate q).Alike (evaluate q) := by
  refine Alike.bind ?_ fun rule => alike_settle _
  cases q.subject with
  | tree w => exact alike_settle _
  | reference t => exact alike_getTree t

theorem alike_delete (identifier : Text) : (delete identifier).Alike (delete identifier) := by
  refine (alike_find_record identifier).bind fun record =>
    (alike_remove record.id).bind fun answer => ?_
  cases answer with
  | some removed => exact alike_pure removed
  | none => exact alike_throw _

theorem alike_operation (s : Settings) (caching : Bool) (c : Call) :
    (c.operation s).Alike (c.operation { s with caching := caching }) := by
  cases c with
  | create q => exact (alike_create s _ q).map _
  | combine draws q => exact (alike_combine s caching draws q).map _
  | evaluate q => exact (alike_evaluate q).map _
  | getTree identifier => exact (alike_getTree identifier).map _
  | delete identifier => exact (alike_delete identifier).map _
  | read text => exact (alike_read s _ text).map _
  | clearCache => exact alike_clear.map _

/-! ### Sessions -/

/-- The same turn, with the caching of new settings switched as it may be. -/
inductive Turn.SameButCaching : Turn → Turn → Prop where
  | call (c : Call) : SameButCaching (.call c) (.call c)
  | reconfigure (s : Settings) (caching : Bool) :
    SameButCaching (.reconfigure s) (.reconfigure { s with caching := caching })

/-- The same settings but for the caching, the same store, and sound caches. -/
structure Session.SameButCaching (s t : Session) : Prop where
  settings : ∃ caching, t.settings = { s.settings with caching := caching }
  store : t.shared.store = s.shared.store
  sound_left : s.shared.cache.Sound
  sound_right : t.shared.cache.Sound

theorem Session.SameButCaching.turn {s t : Session} (h : s.SameButCaching t) {a b : Turn}
    (hab : a.SameButCaching b) :
    (s.turn a).1 = (t.turn b).1 ∧ (s.turn a).2.SameButCaching (t.turn b).2 := by
  obtain ⟨settings, store, c⟩ := s
  obtain ⟨settings', store', c'⟩ := t
  obtain ⟨hsettings, hstore, hc, hc'⟩ := h
  dsimp only at hsettings hstore hc hc'
  obtain ⟨caching, rfl⟩ := hsettings
  subst hstore
  cases hab with
  | call call =>
    obtain ⟨reply, store', k, k', hk, hk', hs, ht⟩ :=
      alike_operation settings caching call store' c c' hc hc'
    have hs' : (call.operation settings).run ⟨_, c⟩ = (reply, ⟨store', k⟩) := hs
    have ht' : (call.operation { settings with caching := caching }).run ⟨_, c'⟩ =
      (reply, ⟨store', k'⟩) := ht
    simp only [Session.turn, hs', ht']
    exact ⟨trivial, ⟨caching, rfl⟩, rfl, hk, hk'⟩
  | reconfigure new caching => exact ⟨rfl, ⟨caching, rfl⟩, rfl, hc, hc'⟩

theorem Session.SameButCaching.run {s t : Session} (h : s.SameButCaching t) {as bs : List Turn}
    (hab : List.Forall₂ Turn.SameButCaching as bs) :
    (s.run as).1 = (t.run bs).1 ∧ (s.run as).2.SameButCaching (t.run bs).2 := by
  induction hab generalizing s t with
  | nil => exact ⟨rfl, h⟩
  | cons hturn _ ih =>
    obtain ⟨hreply, hnext⟩ := h.turn hturn
    obtain ⟨hreplies, hlast⟩ := ih hnext
    exact ⟨by simp only [Session.run, hreply, hreplies], hlast⟩

end Service
end Rulebook
