import Rulebook.Proofs.CombinedNames
import Rulebook.Proofs.Permanence
set_option autoImplicit false

/-!
The name that a combined rule gets. With valid settings all drawn names are valid, so each attempt to store the
rule comes down to whether a name is taken, and the first that is not is the name of the rule.
-/

namespace Rulebook

namespace Draws

theorem isAlpha_letter (i : Fin 52) : (letter i).isAlpha = true := by
  decide +revert

@[simp] theorem length_letters (draws : Draws) (attempt count : Nat) :
    (draws.letters attempt count).length = count := by
  simp [letters]

theorem all_letters (draws : Draws) (attempt count : Nat) :
    (draws.letters attempt count).all Char.isAlpha = true := by
  simp [letters, isAlpha_letter]

end Draws

namespace Service

open Operation

variable {s : Settings} {σ : Shared}

/-! ### One attempt -/

theorem check_drawnName (hs : s.check = some (.ok ())) (draws : Draws) (attempt : Nat) :
    Name.check (drawnName s draws attempt) = .ok () :=
  (Settings.check_eq_ok_iff_names.1 hs).2 _ (draws.length_letters ..) (draws.all_letters ..)

/-- A combined rule as it is stored next. -/
def combinedRecord (store : Store) (name : Text) (rule : Rule) : Record :=
  ⟨store.lastId + 1, name, none, rule⟩

/-- What keeps a rule from being stored under a valid name is that the name is taken. -/
theorem insert_valid_cases (h : σ.store.Consistent) {name : Text} (hname : Name.check name = .ok ())
    (rule : Rule) :
    (name ∈ σ.store.names ∧
      (Access.insert name none rule).perform σ = (.error (.duplicateName name), σ)) ∨
    (name ∉ σ.store.names ∧ ∃ t, σ.store.Gains (combinedRecord σ.store name rule) t ∧
      (Access.insert name none rule).perform σ =
        (.ok (combinedRecord σ.store name rule), { σ with store := t })) := by
  by_cases htaken : name ∈ σ.store.names
  · exact .inl ⟨htaken, Access.perform_insert_taken h htaken none rule⟩
  · obtain ⟨t, hinsert, -⟩ := h.insert_free hname htaken none rule
    refine .inr ⟨htaken, t, (h.gains hinsert).1, ?_⟩
    simp only [Access.perform, hinsert, combinedRecord]

/-! ### All attempts -/

/-- A rule goes under the first of these names that is free. If all are taken, it is the last one that is told,
and nothing is stored. -/
def TakesFirstFree (names : List Text) (rule : Rule) (before : Store)
    (done : Except Error Record × Shared) : Prop :=
  match names.find? fun name => !before.names.contains name with
  | some name =>
    done.1 = .ok (combinedRecord before name rule) ∧
      before.Gains (combinedRecord before name rule) done.2.store
  | none =>
    (∃ name, names.getLast? = some name ∧ done.1 = .error (.duplicateName name)) ∧
      done.2.store = before

/-- A name that is taken can go before the others. -/
theorem TakesFirstFree.cons {name : Text} {names : List Text} {rule : Rule} {before : Store}
    {done : Except Error Record × Shared} (h : TakesFirstFree names rule before done)
    (htaken : name ∈ before.names) (hne : names ≠ []) :
    TakesFirstFree (name :: names) rule before done := by
  obtain ⟨other, names, rfl⟩ := List.exists_cons_of_ne_nil hne
  unfold TakesFirstFree at h ⊢
  rwa [List.find?_cons_of_neg (by simpa using htaken), List.getLast?_cons_cons]

theorem takesFirstFree_cons_free {name : Text} {names : List Text} {rule : Rule}
    (hfree : name ∉ σ.store.names) {t : Store}
    (ht : σ.store.Gains (combinedRecord σ.store name rule) t) :
    TakesFirstFree (name :: names) rule σ.store
      (.ok (combinedRecord σ.store name rule), { σ with store := t }) := by
  unfold TakesFirstFree
  rw [List.find?_cons_of_pos (by simpa using hfree)]
  exact ⟨rfl, ht⟩

theorem takesFirstFree_storeDrawn (hs : s.check = some (.ok ())) (h : σ.store.Consistent)
    (draws : Draws) (rule : Rule) (attempt more : Nat) :
    TakesFirstFree ((List.range' attempt (more + 1)).map (drawnName s draws)) rule σ.store
      ((storeDrawn s draws rule attempt more).run σ) := by
  induction more generalizing attempt with
  | zero =>
    rw [storeDrawn, run_ask_bind]
    obtain ⟨htaken, hinsert⟩ | ⟨hfree, t, ht, hinsert⟩ :=
      insert_valid_cases h (check_drawnName hs draws attempt) rule
    · rw [hinsert]
      simp [TakesFirstFree, htaken]
    · rw [hinsert]
      exact takesFirstFree_cons_free hfree ht
  | succ more ih =>
    rw [storeDrawn, run_ask_bind, List.range'_succ, List.map_cons]
    obtain ⟨htaken, hinsert⟩ | ⟨hfree, t, ht, hinsert⟩ :=
      insert_valid_cases h (check_drawnName hs draws attempt) rule
    · rw [hinsert]
      exact (ih (attempt + 1)).cons htaken (by simp)
    · rw [hinsert]
      exact takesFirstFree_cons_free hfree ht

/-- It fails in no other case than that all names are taken. -/
theorem TakesFirstFree.taken_of_error {names : List Text} {rule : Rule} {before : Store}
    {done : Except Error Record × Shared} (h : TakesFirstFree names rule before done) {e : Error}
    (he : done.1 = .error e) : ∀ name ∈ names, name ∈ before.names := by
  unfold TakesFirstFree at h
  split at h
  · cases he.symm.trans h.1
  · rename_i hnone
    simpa using hnone

/-- Told by the number of the attempt. -/
theorem TakesFirstFree.of_range {name : Nat → Text} {attempts : Nat} {rule : Rule} {before : Store}
    {done : Except Error Record × Shared}
    (h : TakesFirstFree ((List.range (attempts + 1)).map name) rule before done) :
    (∀ i ≤ attempts, (∀ j < i, name j ∈ before.names) → name i ∉ before.names →
      done.1 = .ok (combinedRecord before (name i) rule) ∧
        before.Gains (combinedRecord before (name i) rule) done.2.store) ∧
    ((∀ i ≤ attempts, name i ∈ before.names) →
      done.1 = .error (.duplicateName (name attempts)) ∧ done.2.store = before) := by
  unfold TakesFirstFree at h
  refine ⟨fun i hi htaken hfree => ?_, fun htaken => ?_⟩
  · have hfirst : ((List.range (attempts + 1)).map name).find? (fun name => !before.names.contains name) =
        some (name i) := by
      rw [List.find?_map, Option.map_eq_some_iff]
      refine ⟨i, List.find?_range_eq_some.2 ⟨?_, ?_, ?_⟩, rfl⟩
      · simpa using hfree
      · simpa using Nat.lt_succ_of_le hi
      · simpa using htaken
    simpa only [hfirst] using h
  · have hnone : ((List.range (attempts + 1)).map name).find? (fun name => !before.names.contains name) =
        none := by
      simpa [Nat.lt_succ_iff] using htaken
    simp only [hnone] at h
    obtain ⟨⟨last, hlast, hresult⟩, hstore⟩ := h
    rw [List.range_succ, List.map_append, List.map_singleton, List.getLast?_concat] at hlast
    cases hlast
    exact ⟨hresult, hstore⟩

/-! ### What is combined -/

/-- References that are resolved one by one are resolved together. -/
theorem mapM_meaning_of_resolve (hc : σ.cache.Sound) {references : List Text} {rules : List Rule}
    (h : List.Forall₂ (fun t rule => ((resolve s t).run σ).1 = .ok rule) references rules) :
    references.mapM σ.store.meaning = .ok rules := by
  induction h with
  | nil => rfl
  | cons ht _ ih =>
    rw [result_resolve hc] at ht
    rw [List.mapM_cons, ht, ih]
    rfl

theorem takesFirstFree_combine (hs : s.check = some (.ok ())) (h : σ.Reachable) (draws : Draws)
    {q : CombineRequest} {rule : Rule} (hcombined : combined s σ.store q = .ok rule) :
    TakesFirstFree ((List.range Draws.maxAttempts).map (drawnName s draws)) rule σ.store
      ((combine s draws q).run σ) := by
  obtain ⟨c', -, hrun⟩ := run_combine_eq s draws q σ.store h.sound
  have hstored : (combine s draws q).run σ =
      (storeDrawn s draws rule 0 (Draws.maxAttempts - 1)).run ⟨σ.store, c'⟩ := by
    rw [hcombined] at hrun
    exact hrun
  rw [hstored, List.range_eq_range']
  exact @takesFirstFree_storeDrawn s ⟨σ.store, c'⟩ hs h.consistent draws rule 0 _

/-- In any state, with valid settings and whatever is drawn: what can be combined is stored without a text
under the first of sixteen drawn names that is free. Its id is greater than all that were given out before, and
the other records stay as they are. If all the names are taken, nothing is stored, and the last one is told.
None is ever found invalid. -/
theorem combine_takes_first_free (hs : s.check = some (.ok ())) (h : σ.Reachable) (draws : Draws)
    {q : CombineRequest} {op : Connective} {rules : List Rule} {rule : Rule}
    (hop : operatorOf q = .ok op)
    (hrules : List.Forall₂ (fun t rule => ((resolve s t).run σ).1 = .ok rule) q.references rules)
    (hrule : s.policy.combine op rules = .ok rule) :
    let name := drawnName s draws
    let done := (combine s draws q).run σ
    (∀ i, ∃ letters : Text, name i = s.affix ++ letters ∧ letters.length = s.letterCount ∧
      letters.all Char.isAlpha = true) ∧
    (∀ i < 16, (∀ j < i, name j ∈ σ.store.names) → name i ∉ σ.store.names →
      ∃ r : Record, done.1 = .ok r ∧ r = ⟨σ.store.lastId + 1, name i, none, rule⟩ ∧
        σ.store.Gains r done.2.store ∧
        ∀ history, Replays Shared.empty history σ → ∀ a ∈ inserted history, a.id < r.id) ∧
    ((∀ i < 16, name i ∈ σ.store.names) →
      done.1 = .error (.duplicateName (name 15)) ∧ done.2.store = σ.store) ∧
    ∀ e, done.1 = .error e → e = .duplicateName (name 15) ∧ ∀ i < 16, name i ∈ σ.store.names := by
  intro name done
  have hcombined : combined s σ.store q = .ok rule := by
    rw [combined, hop, mapM_meaning_of_resolve h.sound hrules]
    simp only [combination, hrule, bind, Except.bind]
  have hdone := takesFirstFree_combine hs h draws hcombined
  obtain ⟨hfirst, hnone⟩ := hdone.of_range
  have hexhausted (htaken : ∀ i < 16, name i ∈ σ.store.names) :
      done.1 = .error (.duplicateName (name 15)) ∧ done.2.store = σ.store :=
    hnone fun i hi => htaken i (Nat.lt_succ_of_le hi)
  refine ⟨fun i => ⟨_, rfl, draws.length_letters .., draws.all_letters ..⟩, fun i hi htaken hfree => ?_,
    hexhausted, fun e he => ?_⟩
  · obtain ⟨hresult, hgains⟩ := hfirst i (Nat.le_of_lt_succ hi) htaken hfree
    refine ⟨_, hresult, rfl, hgains, fun history hhistory a ha => ?_⟩
    exact Nat.lt_succ_of_le (hhistory.recorded.id_le a ha)
  · have htaken (i : Nat) (hi : i < 16) : name i ∈ σ.store.names :=
      hdone.taken_of_error he _ (List.mem_map_of_mem (List.mem_range.2 hi))
    have hsame := he.symm.trans (hexhausted htaken).1
    cases hsame
    exact ⟨rfl, htaken⟩

/-- One rule is stored under a name that may be drawn. A name with other letters is free; if no others are
drawn, nothing is stored. -/
theorem combine_takes_first_free_collision :
    let s : Settings := { Settings.standard with caching := false }
    let σ := (Session.run ⟨s, Shared.empty⟩
      [.call (.create ⟨some "combinedaaaa".toList, some "x='y'".toList⟩)]).2.shared
    let q : CombineRequest := ⟨["z='w'".toList, "combinedaaaa".toList], some "OR".toList⟩
    let same : Draws := fun _ _ => 0
    let other : Draws := fun attempt _ => if attempt = 0 then 0 else 1
    let rule : Rule :=
      .join .or (.condition ⟨['z'], .equal, .string ['w']⟩) (.condition ⟨['x'], .equal, .string ['y']⟩)
    ((combine s other q).run σ).1 = .ok ⟨2, "combinedbbbb".toList, none, rule⟩ ∧
      σ.store.Gains ⟨2, "combinedbbbb".toList, none, rule⟩ ((combine s other q).run σ).2.store ∧
      ((combine s same q).run σ).1 = .error (.duplicateName "combinedaaaa".toList) ∧
      ((combine s same q).run σ).2.store = σ.store := by
  intro s σ q same other rule
  have hs : s.check = some (.ok ()) := Settings.check_eq_ok_iff.2 (by decide)
  have hreachable : σ.Reachable := Session.reachable_run .empty _
  let r : Record :=
    ⟨1, "combinedaaaa".toList, some "x='y'".toList, .condition ⟨['x'], .equal, .string ['y']⟩⟩
  have hread : Rule.read "x='y'".toList = .ok r.rule := rfl
  obtain ⟨hstore, hlist, hlast⟩ : σ.store.Consistent ∧ σ.store.toList = [r] ∧ σ.store.lastId = 1 :=
    Session.run_create rfl rfl hread rfl
  have hnames : σ.store.names = ["combinedaaaa".toList] := by rw [Store.names, hlist]; rfl
  have hz : ((resolve s "z='w'".toList).run σ).1 = .ok (.condition ⟨['z'], .equal, .string ['w']⟩) :=
    (result_resolve hreachable.sound s _).trans (hstore.meaning_of_read rfl)
  have hx : ((resolve s "combinedaaaa".toList).run σ).1 =
      .ok (.condition ⟨['x'], .equal, .string ['y']⟩) := by
    have hfound : σ.store.find? "combinedaaaa".toList = some r :=
      hstore.find?_eq_some_iff.2 ⟨by simp [hlist], by decide⟩
    rw [run_resolve hfound]
  have hrules : List.Forall₂ (fun t rule => ((resolve s t).run σ).1 = .ok rule) q.references
      [.condition ⟨['z'], .equal, .string ['w']⟩, .condition ⟨['x'], .equal, .string ['y']⟩] :=
    .cons hz (.cons hx .nil)
  have hrule : s.policy.combine .or
      [.condition ⟨['z'], .equal, .string ['w']⟩, .condition ⟨['x'], .equal, .string ['y']⟩] =
        .ok rule := by
    simp only [s, rule]
    cbv
  have hop : operatorOf q = .ok .or := rfl
  have htaken {name : Text} (hname : name = "combinedaaaa".toList) : name ∈ σ.store.names := by
    rw [hnames, hname]
    exact List.mem_singleton_self _
  have hfree : drawnName s other 1 ∉ σ.store.names := by
    rw [hnames]
    exact fun hmem => absurd (List.mem_singleton.1 hmem) (by decide)
  obtain ⟨-, hfirst, -⟩ := combine_takes_first_free hs hreachable other hop hrules hrule
  obtain ⟨-, -, hnone, -⟩ := combine_takes_first_free hs hreachable same hop hrules hrule
  obtain ⟨r, hresult, rfl, hgains, -⟩ := hfirst 1 (by decide)
    (fun j hj => htaken (by rw [Nat.lt_one_iff.1 hj]; rfl)) hfree
  rw [hlast] at hresult hgains
  exact ⟨hresult, hgains, hnone fun i _ => htaken rfl⟩

end Service
end Rulebook
