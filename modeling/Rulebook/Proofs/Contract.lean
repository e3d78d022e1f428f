import Rulebook.Service.Session
set_option autoImplicit false

/-!
Contracts of dialogues: what is promised of their accesses as long as the answers are as assumed. Contracts
compose along a dialogue. Where every answer is as assumed, every access is as promised and so is the
result, whatever accesses of others come in between.
-/

namespace Rulebook

structure Contract where
  promises : Access → Prop
  assumes : (access : Access) → access.Answer → Prop

namespace Dialogue

variable {α β : Type} {C : Contract}

/-- While answers are as assumed, accesses are as promised, and the result is in `Q`. -/
def Meets (C : Contract) (Q : α → Prop) : Dialogue α → Prop
  | done a => Q a
  | ask access next =>
    C.promises access ∧ ∀ answer, C.assumes access answer → (next answer).Meets C Q

theorem Meets.bind {Q : α → Prop} {R : β → Prop} {d : Dialogue α} {f : α → Dialogue β}
    (hd : d.Meets C Q) (hf : ∀ a, Q a → (f a).Meets C R) : (d.bind f).Meets C R := by
  induction d with
  | done a => exact hf a hd
  | ask access next ih => exact ⟨hd.1, fun answer hanswer => ih answer (hd.2 answer hanswer)⟩

/-- A run without others in between, under an invariant that keeps the answers as assumed. -/
theorem Meets.run {Q : α → Prop} {I : Shared → Prop}
    (hstep : ∀ access s, C.promises access → I s →
      C.assumes access (access.perform s).1 ∧ I (access.perform s).2)
    {d : Dialogue α} (hd : d.Meets C Q) {s : Shared} (hs : I s) :
    Q (d.run s).1 ∧ I (d.run s).2 := by
  induction d generalizing s with
  | done a => exact ⟨hd, hs⟩
  | ask access next ih =>
    obtain ⟨hanswer, hs'⟩ := hstep access s hd.1 hs
    exact ih _ (hd.2 _ hanswer) hs'

end Dialogue

namespace Operation

variable {α β : Type} {C : Contract}

def Meets (C : Contract) (Q : Except Error α → Prop) (o : Operation α) : Prop :=
  Dialogue.Meets C Q (ExceptT.run o)

/-- Nothing is promised of the result. -/
def Keeps (C : Contract) (o : Operation α) : Prop := o.Meets C fun _ => True

theorem meets_settle {Q : Except Error α → Prop} {e : Except Error α} (h : Q e) :
    (settle e).Meets C Q := h

theorem meets_ask {access : Access} {Q : Except Error access.Answer → Prop}
    (hp : C.promises access) (h : ∀ answer, C.assumes access answer → Q (.ok answer)) :
    (ask access).Meets C Q := ⟨hp, h⟩

theorem Meets.bind {Q : Except Error α → Prop} {R : Except Error β → Prop} {o : Operation α}
    {f : α → Operation β} (ho : o.Meets C Q) (hok : ∀ a, Q (.ok a) → (f a).Meets C R)
    (herror : ∀ e, Q (.error e) → R (.error e)) : (o >>= f).Meets C R := by
  refine Dialogue.Meets.bind ho fun r hr => ?_
  cases r with
  | ok a => exact hok a hr
  | error e => exact herror e hr

theorem Meets.tryCatch {Q R : Except Error α → Prop} {o : Operation α} {f : Error → Operation α}
    (ho : o.Meets C Q) (hok : ∀ a, Q (.ok a) → R (.ok a))
    (herror : ∀ e, Q (.error e) → (f e).Meets C R) : (tryCatch o f).Meets C R := by
  refine Dialogue.Meets.bind ho fun r hr => ?_
  cases r with
  | ok a => exact hok a hr
  | error e => exact herror e hr

theorem keeps_settle (e : Except Error α) : (settle e).Keeps C := meets_settle trivial

theorem keeps_pure (a : α) : (pure a : Operation α).Keeps C := keeps_settle (.ok a)

theorem keeps_throw (e : Error) : (throw e : Operation α).Keeps C := keeps_settle (.error e)

theorem keeps_ask {access : Access} (hp : C.promises access) : (ask access).Keeps C :=
  meets_ask hp fun _ _ => trivial

theorem Keeps.bind {o : Operation α} {f : α → Operation β} (ho : o.Keeps C)
    (hf : ∀ a, (f a).Keeps C) : (o >>= f).Keeps C :=
  Meets.bind ho (fun a _ => hf a) fun _ _ => trivial

theorem Keeps.map {o : Operation α} (ho : o.Keeps C) (f : α → β) : (f <$> o).Keeps C := by
  rw [← bind_pure_comp]
  exact ho.bind fun a => keeps_pure (f a)

/-- The result, if there is one, is in `Q`. -/
def Gives (Q : α → Prop) (r : Except Error α) : Prop := ∀ a, r = .ok a → Q a

theorem meets_pure {Q : α → Prop} {a : α} (h : Q a) : (pure a : Operation α).Meets C (Gives Q) := by
  refine meets_settle (e := .ok a) fun b hb => ?_
  cases hb
  exact h

theorem meets_throw {Q : α → Prop} (e : Error) : (throw e : Operation α).Meets C (Gives Q) :=
  meets_settle (e := .error e) fun b hb => by cases hb

/-- One result after the other. -/
theorem Meets.andThen {Q : α → Prop} {R : β → Prop} {o : Operation α} {f : α → Operation β}
    (ho : o.Meets C (Gives Q)) (hf : ∀ a, Q a → (f a).Meets C (Gives R)) :
    (o >>= f).Meets C (Gives R) :=
  ho.bind (fun a ha => hf a (ha a rfl)) fun e _ b hb => by cases hb

theorem meets_mapM {f : α → Operation β} {Q : β → Prop} (hf : ∀ a, (f a).Meets C (Gives Q))
    (as : List α) : (as.mapM f).Meets C (Gives fun bs => ∀ b ∈ bs, Q b) := by
  induction as with
  | nil => exact meets_pure (by simp)
  | cons a as ih =>
    rw [List.mapM_cons]
    exact (hf a).andThen fun b hb => ih.andThen fun bs hbs =>
      meets_pure (List.forall_mem_cons.2 ⟨hb, hbs⟩)

theorem keeps_mapM {f : α → Operation β} (hf : ∀ a, (f a).Keeps C) (as : List α) :
    (as.mapM f).Keeps C := by
  induction as with
  | nil => exact keeps_pure []
  | cons a as ih =>
    rw [List.mapM_cons]
    exact (hf a).bind fun b => ih.bind fun bs => keeps_pure (b :: bs)

end Operation

/-- The store stays as it is. -/
def Contract.leavesStore : Contract := ⟨fun access => ∀ s, (access.perform s).2.store = s.store,
  fun _ _ => True⟩

theorem Operation.Keeps.store_eq {α : Type} {o : Operation α} (h : o.Keeps Contract.leavesStore)
    (s : Shared) : (o.run s).2.store = s.store :=
  (Dialogue.Meets.run (I := fun t => t.store = s.store)
    (fun _ t hp ht => ⟨trivial, (hp t).trans ht⟩) h rfl).2

/-! ### The contracts of the service -/

/-- Looking rules up is always right, keeping one where it is what its text spells. -/
structure Contract.Reads (C : Contract) : Prop where
  find : ∀ identifier, C.promises (.find identifier)
  lookup : ∀ text, C.promises (.lookup text)
  keep : ∀ text rule, Rule.read text = .ok rule → C.promises (.keep text rule)

/-- What holds of every rule that is read, looked up, found or combined is promised of what is stored. -/
structure Contract.Handles (C : Contract) (P : Rule → Prop) : Prop extends C.Reads where
  insert : ∀ name text rule, P rule → C.promises (.insert name text rule)
  spelled : ∀ text rule, Rule.read text = .ok rule → P rule
  looked : ∀ text rule, C.assumes (.lookup text) (some rule) → P rule
  found : ∀ identifier r, C.assumes (.find identifier) (some r) → P r.rule
  combined : ∀ (s : Settings) op rules rule, (∀ r ∈ rules, P r) →
    Service.combination s op rules = .ok rule → P rule

theorem Contract.Reads.handles {C : Contract} (h : C.Reads)
    (hi : ∀ name text rule, C.promises (.insert name text rule)) : C.Handles fun _ => True where
  toReads := h
  insert name text rule _ := hi name text rule
  spelled _ _ _ := trivial
  looked _ _ _ := trivial
  found _ _ _ := trivial
  combined _ _ _ _ _ _ := trivial

theorem Contract.leavesStore_reads : Contract.leavesStore.Reads :=
  ⟨fun _ _ => rfl, fun _ _ => rfl, fun _ _ _ _ => rfl⟩

namespace Service

open Operation

variable {C : Contract} {P : Rule → Prop}

/-- Reading through the cache ends in what the cache holds or in what the text spells. -/
theorem meets_readCached (h : C.Reads) (text : Text) {Q : Except Error Rule → Prop}
    (hfound : ∀ rule, C.assumes (.lookup text) (some rule) → Q (.ok rule))
    (hread : Q (Rule.read text)) : (readCached text).Meets C Q := by
  refine ⟨h.lookup text, fun answer hanswer => ?_⟩
  cases answer with
  | some rule => exact hfound rule hanswer
  | none =>
    refine Meets.bind (meets_settle rfl : (settle (Rule.read text)).Meets C (· = Rule.read text))
      ?_ ?_
    · intro rule hr
      rw [← hr] at hread
      exact ⟨h.keep text rule hr.symm, fun _ _ => hread⟩
    · intro e he
      rwa [he]

theorem keeps_find (h : C.Reads) (identifier : Text) : (find identifier).Keeps C := by
  refine (keeps_ask (h.find identifier)).bind fun answer => ?_
  cases answer with
  | some record => exact keeps_pure record
  | none => exact keeps_throw _

theorem keeps_read (h : C.Reads) (s : Settings) (text : Text) : (read s text).Keeps C := by
  unfold read
  split
  · exact meets_readCached h text (fun _ _ => trivial) trivial
  · exact keeps_settle _

theorem keeps_resolve (h : C.Reads) (s : Settings) (reference : Text) :
    (resolve s reference).Keeps C := by
  refine (keeps_ask (h.find reference)).bind fun answer => ?_
  cases answer with
  | some record => exact keeps_pure record.rule
  | none => exact (keeps_read h s reference).tryCatch (fun _ _ => trivial) fun e _ => keeps_throw _

theorem meets_read (h : C.Handles P) (s : Settings) (text : Text) :
    (read s text).Meets C (Gives P) := by
  have hread : Gives P (Rule.read text) := h.spelled text
  unfold read
  split
  · refine meets_readCached h.toReads text (fun rule hrule => ?_) hread
    rintro _ ⟨⟩
    exact h.looked text rule hrule
  · exact meets_settle hread

theorem meets_resolve (h : C.Handles P) (s : Settings) (reference : Text) :
    (resolve s reference).Meets C (Gives P) := by
  refine ⟨h.find reference, fun answer hanswer => ?_⟩
  cases answer with
  | some record => exact meets_pure (h.found reference record hanswer)
  | none =>
    exact (meets_read h s reference).tryCatch (fun _ hrule => hrule) fun e _ => meets_throw _

theorem keeps_create (h : C.Handles P) (s : Settings) (q : CreateRequest) :
    (create s q).Keeps C := by
  unfold create
  cases q.complete? with
  | none => exact keeps_throw _
  | some p =>
    exact (meets_read h s p.2).bind (fun rule hrule =>
      (keeps_ask (h.insert p.1 (some p.2) rule (hrule rule rfl))).bind fun answer =>
        keeps_settle answer) fun _ _ => trivial

theorem keeps_storeDrawn (h : C.Handles P) (s : Settings) (draws : Draws) {rule : Rule} (hr : P rule)
    (attempt more : Nat) : (storeDrawn s draws rule attempt more).Keeps C := by
  induction more generalizing attempt with
  | zero => exact (keeps_ask (h.insert _ none rule hr)).bind fun answer => keeps_settle answer
  | succ more ih =>
    refine (keeps_ask (h.insert _ none rule hr)).bind fun answer => ?_
    split
    · exact ih (attempt + 1)
    · exact keeps_settle answer

theorem keeps_combine (h : C.Handles P) (s : Settings) (draws : Draws) (q : CombineRequest) :
    (combine s draws q).Keeps C := by
  refine (keeps_settle _).bind fun op =>
    (meets_mapM (meets_resolve h s) q.references).bind (fun rules hrules => ?_) fun _ _ => trivial
  have hcombined : Gives P (combination s op rules) :=
    fun rule hrule => h.combined s op rules rule (hrules rules rfl) hrule
  exact (meets_settle hcombined).bind
    (fun rule hrule => keeps_storeDrawn h s draws (hrule rule rfl) 0 _) fun _ _ => trivial

theorem keeps_getTree (h : C.Reads) (identifier : Text) : (getTree identifier).Keeps C :=
  (keeps_find h identifier).bind fun record => keeps_pure record.rule

theorem keeps_evaluate (h : C.Reads) (q : EvaluateRequest) : (evaluate q).Keeps C := by
  refine Keeps.bind ?_ fun rule => keeps_settle _
  cases q.subject with
  | tree w => exact keeps_settle _
  | reference t => exact keeps_getTree h t

theorem keeps_delete (h : C.Reads) (hr : ∀ id, C.promises (.remove id)) (identifier : Text) :
    (delete identifier).Keeps C := by
  refine (keeps_find h identifier).bind fun record => (keeps_ask (hr record.id)).bind fun answer => ?_
  cases answer with
  | some removed => exact keeps_pure removed
  | none => exact keeps_throw _

theorem keeps_operation (h : C.Handles P) (hc : C.promises .clear) {c : Call}
    (hr : ∀ identifier, c = .delete identifier → ∀ id, C.promises (.remove id)) (s : Settings) :
    (c.operation s).Keeps C := by
  cases c with
  | create q => exact (keeps_create h s q).map _
  | combine draws q => exact (keeps_combine h s draws q).map _
  | evaluate q => exact (keeps_evaluate h.toReads q).map _
  | getTree identifier => exact (keeps_getTree h.toReads identifier).map _
  | delete identifier => exact (keeps_delete h.toReads (hr identifier rfl) identifier).map _
  | read text => exact (keeps_read h.toReads s text).map _
  | clearCache => exact (keeps_ask hc).map _

end Service
end Rulebook
