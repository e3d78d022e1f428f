import Rulebook.Proofs.Addressing
import Rulebook.Proofs.Parsing
import Rulebook.Proofs.Reachable
set_option autoImplicit false

/-!
What references mean in a combination. The text of a rule has a comparator in it, and a name or an id has
none, so that no text is both a rule and a reference to a stored one. A reference that finds nothing is
taken as the text of a rule if it has a comparator, and as a missing name if it has none.
-/

namespace Rulebook

/-! ### Comparators in texts -/

namespace Text

theorem mem_trimStart {t : Text} {c : Char} (hc : c ∈ t) (hb : isBlank c = false) :
    c ∈ t.trimStart := by
  rw [← List.takeWhile_append_dropWhile (p := isBlank) (l := t), List.mem_append] at hc
  obtain hc | hc := hc
  · rw [List.mem_takeWhile_imp hc] at hb
    cases hb
  · exact hc

/-- Trimming takes nothing but blanks. -/
theorem mem_trim {t : Text} {c : Char} (hc : c ∈ t) (hb : isBlank c = false) : c ∈ t.trim := by
  have hstart := List.mem_reverse.2 (mem_trimStart hc hb)
  exact List.mem_reverse.2 (mem_trimStart hstart hb)

end Text

namespace Service

theorem hasComparator_iff {t : Text} :
    hasComparator t = true ↔ ∃ c ∈ t, c = '<' ∨ c = '>' ∨ c = '=' ∨ c = '!' := by
  simp [hasComparator, or_assoc]

theorem hasComparator_mono {s t : Text} (hsub : s ⊆ t) (h : hasComparator s = true) :
    hasComparator t = true := by
  obtain ⟨c, hc, hmark⟩ := hasComparator_iff.1 h
  exact hasComparator_iff.2 ⟨c, hsub hc, hmark⟩

theorem hasComparator_trim {t : Text} (h : hasComparator t = true) : hasComparator t.trim = true := by
  obtain ⟨c, hc, hmark⟩ := hasComparator_iff.1 h
  have hb : Text.isBlank c = false := by
    obtain rfl | rfl | rfl | rfl := hmark <;> decide
  exact hasComparator_iff.2 ⟨c, Text.mem_trim hc hb, hmark⟩

/-- Characters of a class without comparators make a text without comparators. -/
theorem hasComparator_eq_false {p : Char → Bool} (hp : ['<', '>', '=', '!'].any p = false) {t : Text}
    (h : t.all p = true) : hasComparator t = false := by
  rw [Bool.eq_false_iff]
  intro hcomparator
  obtain ⟨c, hc, hmark⟩ := hasComparator_iff.1 hcomparator
  exact List.any_eq_false.1 hp c (by simpa using hmark) (List.all_eq_true.1 h c hc)

theorem hasComparator_of_symbol {w : Text} {k : Comparator} (h : Comparator.ofSymbol? w = some k) :
    hasComparator w = true := by
  obtain rfl | ⟨rfl, -⟩ := Token.spelling_of_comparator h
  · cases k <;> decide
  · decide

end Service

namespace Rule

open Service

theorem Phrase.exists_comparator {k : Category} {n : Nat} {ts : List Token} {r : Rule}
    (h : Phrase k n ts r) : ∃ t ∈ ts, ∃ c, t.kind = .comparator c := by
  induction h with
  | comparison hc =>
    cases hc with
    | mk _ hk _ => exact ⟨_, by simp, _, hk⟩
  | parentheses _ _ _ ih =>
    obtain ⟨t, ht, hk⟩ := ih
    exact ⟨t, by simp [ht], hk⟩
  | primary _ ih => exact ih
  | not _ _ ih =>
    obtain ⟨t, ht, hk⟩ := ih
    exact ⟨t, by simp [ht], hk⟩
  | operand _ ih => exact ih
  | join _ _ _ ih _ =>
    obtain ⟨t, ht, hk⟩ := ih
    exact ⟨t, by simp [ht], hk⟩

/-- Every rule compares something. -/
theorem hasComparator_of_read {t : Text} {r : Rule} (h : Rule.read t = .ok r) :
    hasComparator t = true := by
  have hread : Rule.ofText t = .ok r := by
    unfold Rule.read at h
    split at h
    · cases h
      assumption
    · cases h
  obtain ⟨ts, ht, ⟨⟨n, -, hphrase⟩, -⟩⟩ := ofText_eq_ok_iff.1 hread
  obtain ⟨token, hmem, c, hk⟩ := hphrase.exists_comparator
  have hlexeme := Token.tokenize_lexeme ht token hmem
  rw [hk] at hlexeme
  exact hasComparator_mono (Token.tokenize_subset ht token hmem) (hasComparator_of_symbol hlexeme)

/-- A failure to read is never that a rule is not found. -/
theorem read_ne_ruleNotFound (t reference : Text) : Rule.read t ≠ .error (.ruleNotFound reference) := by
  unfold Rule.read
  split <;> simp

end Rule

/-! ### What a reference comes to -/

namespace Store

open Service

variable {s : Store} {t : Text} {r : Record}

/-- Neither names nor ids have comparators in them, blanks around them or not. -/
theorem Consistent.not_hasComparator (h : s.Consistent) (hf : s.find? t = some r) :
    hasComparator t = false := by
  have htrim : hasComparator t.trim = false := by
    obtain ⟨hr, hmeans⟩ := h.find?_eq_some_iff.1 hf
    split at hmeans
    · rename_i hdigits
      rw [Text.isDigits, Bool.and_eq_true] at hdigits
      exact hasComparator_eq_false rfl hdigits.2
    · obtain ⟨-, -, hchars, -⟩ := Name.check_eq_ok_iff.1 (h.valid (h.mem_toList.1 hr))
      rw [hmeans] at hchars
      exact hasComparator_eq_false rfl hchars
  rw [Bool.eq_false_iff] at htrim ⊢
  exact mt hasComparator_trim htrim

/-- A stored rule that is found, or the rule of the text if there is a comparator in it. -/
def meaning (s : Store) (reference : Text) : Except Error Rule :=
  match s.find? reference with
  | some r => .ok r.rule
  | none => if hasComparator reference then Rule.read reference else .error (.ruleNotFound reference)

theorem meaning_of_find? (hf : s.find? t = some r) : s.meaning t = .ok r.rule := by
  rw [meaning, hf]

theorem meaning_of_not_found (hf : s.find? t = none) :
    s.meaning t = if hasComparator t then Rule.read t else .error (.ruleNotFound t) := by
  rw [meaning, hf]

/-- What spells a rule means that rule, whatever is stored. -/
theorem Consistent.meaning_of_read (h : s.Consistent) {rule : Rule} (hr : Rule.read t = .ok rule) :
    s.meaning t = .ok rule := by
  have hcomparator := Rule.hasComparator_of_read hr
  cases hf : s.find? t with
  | some r =>
    rw [h.not_hasComparator hf] at hcomparator
    cases hcomparator
  | none => rw [meaning_of_not_found hf, if_pos hcomparator, hr]

end Store

namespace Service

open Operation

/-- Failures to read are told as they are, or, without a comparator, as a missing rule. -/
theorem missing_read (t : Text) :
    (tryCatch (Rule.read t) fun e => throw (missing t e)) =
      if hasComparator t then Rule.read t else .error (.ruleNotFound t) := by
  cases hr : Rule.read t with
  | ok rule =>
    rw [if_pos (Rule.hasComparator_of_read hr)]
    rfl
  | error e =>
    by_cases hc : hasComparator t = true
    · rw [if_pos hc]
      simp only [missing, hc, if_true]
      rfl
    · rw [if_neg hc]
      simp only [missing, hc, Bool.false_eq_true, if_false]
      rfl

theorem comesTo_resolve (s : Settings) (t : Text) (store : Store) :
    (resolve s t).ComesTo store (store.meaning t) := by
  intro c hc
  cases hf : store.find? t with
  | some r =>
    rw [Store.meaning_of_find? hf]
    exact ⟨c, hc, run_resolve hf s⟩
  | none =>
    have hread := (comesTo_read s t store).tryCatch fun e =>
      comesTo_settle store (.error (missing t e))
    obtain ⟨c', hc', hrun⟩ := hread c hc
    refine ⟨c', hc', ?_⟩
    rw [resolve, run_ask_bind]
    simp only [Access.perform, hf]
    rw [Store.meaning_of_not_found hf, ← missing_read]
    exact hrun

/-- The rule that a request combines over a store, or why there is none. -/
def combined (s : Settings) (store : Store) (q : CombineRequest) : Except Error Rule := do
  let op ← operatorOf q
  let rules ← q.references.mapM store.meaning
  combination s op rules

/-- Combining comes to a rule, and then stores it. -/
theorem run_combine_eq (s : Settings) (draws : Draws) (q : CombineRequest) (store : Store) {c : Cache}
    (hc : c.Sound) : ∃ c' : Cache, c'.Sound ∧
      (combine s draws q).run ⟨store, c⟩ =
        (settle (combined s store q) >>= fun rule =>
          storeDrawn s draws rule 0 (Draws.maxAttempts - 1)).run ⟨store, c'⟩ := by
  let first : Operation Rule := do
    let op ← settle (operatorOf q)
    let rules ← q.references.mapM (resolve s)
    settle (combination s op rules)
  have hfirst : first.ComesTo store (combined s store q) :=
    (comesTo_settle store _).bind fun op =>
      (comesTo_mapM (fun t => comesTo_resolve s t store) q.references).bind fun rules =>
        comesTo_settle store _
  have hcombine : combine s draws q =
      first >>= fun rule => storeDrawn s draws rule 0 (Draws.maxAttempts - 1) := by
    simp only [first, combine, bind_assoc]
  rw [hcombine]
  exact hfirst.run_bind _ hc

/-- What fails to come to a rule leaves the store as it is. -/
theorem run_combine_error {s : Settings} {σ : Shared} (hc : σ.cache.Sound) {q : CombineRequest}
    {e : Error} (he : combined s σ.store q = .error e) (draws : Draws) :
    ((combine s draws q).run σ).1 = .error e ∧ ((combine s draws q).run σ).2.store = σ.store := by
  obtain ⟨c', -, hrun⟩ := run_combine_eq s draws q σ.store hc
  rw [hrun, he]
  exact ⟨rfl, rfl⟩

/-- What comes to a rule stores it under the first drawn name if that is free. -/
theorem run_combine_free {s : Settings} {σ : Shared} (hc : σ.cache.Sound) (h : σ.store.Consistent)
    {q : CombineRequest} {rule : Rule} (hq : combined s σ.store q = .ok rule) (draws : Draws)
    (hname : Name.check (drawnName s draws 0) = .ok ())
    (hfree : drawnName s draws 0 ∉ σ.store.names) :
    ∃ t c, (combine s draws q).run σ =
        (.ok ⟨σ.store.lastId + 1, drawnName s draws 0, none, rule⟩, ⟨t, c⟩) ∧ t.Consistent ∧
      t.toList = σ.store.toList ++ [⟨σ.store.lastId + 1, drawnName s draws 0, none, rule⟩] := by
  obtain ⟨c', -, hrun⟩ := run_combine_eq s draws q σ.store hc
  obtain ⟨t, hinsert, ht, hlist, -⟩ :=
    Access.perform_insert_free (s := ⟨σ.store, c'⟩) h hname hfree none rule
  refine ⟨t, c', hrun.trans ?_, ht, hlist⟩
  have hattempts : Draws.maxAttempts - 1 = 14 + 1 := rfl
  rw [hq, run_bind, run_settle]
  dsimp only
  rw [hattempts, storeDrawn, run_ask_bind, hinsert]
  rfl

theorem combined_of_meaning {s : Settings} {store : Store} {t : Text} {rule : Rule}
    (ht : store.meaning t = .ok rule) (operator : Option Text) (before after : List Text) :
    combined s store ⟨before ++ t :: after, operator⟩ = (do
      let op ← operatorOf ⟨[], operator⟩
      let left ← before.mapM store.meaning
      let right ← after.mapM store.meaning
      combination s op (left ++ rule :: right)) := by
  have hop : operatorOf ⟨before ++ t :: after, operator⟩ = operatorOf ⟨[], operator⟩ := rfl
  rw [combined, hop]
  simp only [List.mapM_append, List.mapM_cons, ht, bind_assoc, pure_bind]
  rfl

/-- A reference that means a rule stands for this rule. -/
theorem combine_of_meaning {s : Settings} {σ : Shared} (hc : σ.cache.Sound) {t : Text} {rule : Rule}
    (ht : σ.store.meaning t = .ok rule) (draws : Draws) (operator : Option Text)
    (before after : List Text) :
    ((combine s draws ⟨before ++ t :: after, operator⟩).run σ).1 =
        ((combineWith s draws operator before rule after).run σ).1 ∧
      ((combine s draws ⟨before ++ t :: after, operator⟩).run σ).2.store =
        ((combineWith s draws operator before rule after).run σ).2.store := by
  let first : Operation Rule := do
    let op ← settle (operatorOf ⟨[], operator⟩)
    let left ← before.mapM (resolve s)
    let right ← after.mapM (resolve s)
    settle (combination s op (left ++ rule :: right))
  have hmeans (t : Text) := comesTo_resolve s t σ.store
  have hfirst : first.ComesTo σ.store (combined s σ.store ⟨before ++ t :: after, operator⟩) := by
    rw [combined_of_meaning ht]
    exact (comesTo_settle _ _).bind fun op => (comesTo_mapM hmeans before).bind fun left =>
      (comesTo_mapM hmeans after).bind fun right => comesTo_settle _ _
  have hwith : combineWith s draws operator before rule after =
      first >>= fun rule => storeDrawn s draws rule 0 (Draws.maxAttempts - 1) := by
    simp only [first, combineWith, bind_assoc]
  obtain ⟨c', hc', hrun⟩ := run_combine_eq s draws ⟨before ++ t :: after, operator⟩ σ.store hc
  obtain ⟨k', hk', hrun'⟩ := hfirst.run_bind
    (fun rule => storeDrawn s draws rule 0 (Draws.maxAttempts - 1)) hc
  rw [← hwith] at hrun'
  -- Both go on to store one rule over one store, and the caches do not matter to that.
  obtain ⟨reply, store, _, _, -, -, hleft, hright⟩ :=
    (alike_settle (combined s σ.store ⟨before ++ t :: after, operator⟩)).bind
      (fun rule => alike_storeDrawn s s.caching draws rule 0 (Draws.maxAttempts - 1))
      σ.store c' k' hc' hk'
  have hleft' := hrun.trans hleft
  have hright' := hrun'.trans hright
  rw [hleft', hright']
  exact ⟨rfl, rfl⟩

/-! ### References are not ambiguous -/

/-- How a text is taken in this state where a rule is referred to: for a stored rule, for the rule that
it spells, or for neither, but never for both. -/
structure Referring (s : Settings) (σ : Shared) (t : Text) : Prop where
  exclusive : ∀ r rule, σ.store.find? t = some r → Rule.read t ≠ .ok rule
  stored : ∀ r, σ.store.find? t = some r → ((resolve s t).run σ).1 = .ok r.rule
  spelled : ∀ rule, Rule.read t = .ok rule → ((resolve s t).run σ).1 = .ok rule
  /-- What spells a rule stands for it in a combination. -/
  contributes : ∀ rule, Rule.read t = .ok rule → ∀ draws operator before after,
    ((combine s draws ⟨before ++ t :: after, operator⟩).run σ).1 =
        ((combineWith s draws operator before rule after).run σ).1 ∧
      ((combine s draws ⟨before ++ t :: after, operator⟩).run σ).2.store =
        ((combineWith s draws operator before rule after).run σ).2.store
  unstored : σ.store.find? t = none →
    ((resolve s t).run σ).1 = if hasComparator t then Rule.read t else .error (.ruleNotFound t)
  missing_iff : σ.store.find? t = none →
    ((∃ reference, ((resolve s t).run σ).1 = .error (.ruleNotFound reference)) ↔
      ∀ c ∈ ['<', '>', '=', '!'], c ∉ t)
  /-- The first reference that fails is what the combination fails with. -/
  fails : ∀ e, ((resolve s t).run σ).1 = .error e → ∀ draws operator before after op rules,
    operatorOf ⟨[], operator⟩ = .ok op → before.mapM σ.store.meaning = .ok rules →
    ((combine s draws ⟨before ++ t :: after, operator⟩).run σ).1 = .error e ∧
      ((combine s draws ⟨before ++ t :: after, operator⟩).run σ).2.store = σ.store

theorem result_resolve {σ : Shared} (hc : σ.cache.Sound) (s : Settings) (t : Text) :
    ((resolve s t).run σ).1 = σ.store.meaning t := by
  obtain ⟨c', -, hrun⟩ := comesTo_resolve s t σ.store σ.cache hc
  exact congrArg Prod.fst hrun

theorem combined_of_error {s : Settings} {store : Store} {t : Text} {e : Error}
    (ht : store.meaning t = .error e) {operator : Option Text} {before after : List Text}
    {op : Connective} {rules : List Rule} (hop : operatorOf ⟨[], operator⟩ = .ok op)
    (hbefore : before.mapM store.meaning = .ok rules) :
    combined s store ⟨before ++ t :: after, operator⟩ = .error e := by
  have hop' : operatorOf ⟨before ++ t :: after, operator⟩ = .ok op := hop
  rw [combined, hop']
  simp only [List.mapM_append, List.mapM_cons, hbefore, ht]
  rfl

theorem meaning_missing_iff {store : Store} {t : Text} (hf : store.find? t = none) :
    (∃ reference, store.meaning t = .error (.ruleNotFound reference)) ↔
      ∀ c ∈ ['<', '>', '=', '!'], c ∉ t := by
  rw [Store.meaning_of_not_found hf]
  cases hcomparator : hasComparator t with
  | true =>
    obtain ⟨c, hc, hmark⟩ := hasComparator_iff.1 hcomparator
    refine ⟨fun ⟨reference, h⟩ => absurd h (Rule.read_ne_ruleNotFound t reference), fun h => ?_⟩
    exact absurd hc (h c (by simpa using hmark))
  | false =>
    refine ⟨fun _ c hmark hc => ?_, fun _ => ⟨t, rfl⟩⟩
    rw [hasComparator_iff.2 ⟨c, hc, by simpa using hmark⟩] at hcomparator
    cases hcomparator

/-- In no state is a text a reference to a stored rule and the text of a rule. -/
theorem references_unambiguous {σ : Shared} (h : σ.Reachable) (s : Settings) (t : Text) :
    Referring s σ t := by
  have hmeans := result_resolve h.sound s t
  have hspelled (rule : Rule) (hr : Rule.read t = .ok rule) := h.consistent.meaning_of_read hr
  refine ⟨fun r rule hf hr => ?_, fun r hf => ?_, fun rule hr => ?_, fun rule hr => ?_, fun hf => ?_,
    fun hf => ?_, fun e he draws operator before after op rules hop hbefore => ?_⟩
  · have hcomparator := Rule.hasComparator_of_read hr
    rw [h.consistent.not_hasComparator hf] at hcomparator
    cases hcomparator
  · rw [hmeans, Store.meaning_of_find? hf]
  · rw [hmeans, hspelled rule hr]
  · exact combine_of_meaning h.sound (hspelled rule hr)
  · rw [hmeans, Store.meaning_of_not_found hf]
  · rw [hmeans, meaning_missing_iff hf]
  · rw [hmeans] at he
    exact run_combine_error h.sound (combined_of_error he hop hbefore) draws

/-- One rule is stored. Its name with blanks around it means it and spells nothing; the text that it was
read from means the rule that it spells; another name means nothing. -/
theorem references_unambiguous_stored :
    let settings : Settings := { Settings.standard with caching := false }
    let σ := (Session.run ⟨settings, Shared.empty⟩
      [.call (.create ⟨some "big".toList, some "x='y'".toList⟩)]).2.shared
    let rule : Rule := .condition ⟨['x'], .equal, .string ['y']⟩
    (∀ rule, Rule.read " big ".toList ≠ .ok rule) ∧
      ((resolve settings " big ".toList).run σ).1 = .ok rule ∧
      ((resolve settings "x='y'".toList).run σ).1 = .ok rule ∧
      ∃ reference, ((resolve settings "bigger".toList).run σ).1 = .error (.ruleNotFound reference) := by
  intro settings σ rule
  have hreachable : σ.Reachable := Session.reachable_run .empty _
  have hreferring (t : Text) : Referring settings σ t := references_unambiguous hreachable settings t
  have hread : Rule.read "x='y'".toList = .ok rule := rfl
  obtain ⟨hstore, hlist, -⟩ : σ.store.Consistent ∧
      σ.store.toList = [⟨1, "big".toList, some "x='y'".toList, rule⟩] ∧ _ :=
    Session.run_create rfl rfl hread rfl
  have hfound : σ.store.find? " big ".toList = some ⟨1, "big".toList, some "x='y'".toList, rule⟩ :=
    hstore.find?_eq_some_iff.2 ⟨by simp [hlist], by decide⟩
  have hother : σ.store.find? "bigger".toList = none := by
    refine Option.eq_none_iff_forall_ne_some.2 fun r hr => ?_
    obtain ⟨hmem, hname⟩ := hstore.find?_eq_some_iff.1 hr
    rw [hlist, List.mem_singleton] at hmem
    subst hmem
    exact absurd hname (by decide)
  exact ⟨fun other => (hreferring _).exclusive _ other hfound, (hreferring _).stored _ hfound,
    (hreferring _).spelled _ hread, ((hreferring _).missing_iff hother).2 (by simp)⟩

end Service
end Rulebook
