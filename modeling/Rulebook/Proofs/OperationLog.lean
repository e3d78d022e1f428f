import Rulebook.Proofs.Caching
import Rulebook.Proofs.History
import Rulebook.Proofs.Path
set_option autoImplicit false

/-!
What the log of an operation says of its result: what a reference came to, what was stored, combined or
removed.
-/

namespace Rulebook.Service

open Operation

/-- How a reference comes to a rule: a record is found, or none is and the text spells the rule, be it
read anew or found in the cache. -/
inductive Resolution (reference : Text) : List Event → Rule → Prop where
  | stored (r : Record) : Resolution reference [⟨.find reference, some r⟩] r.rule
  | parsed {log : List Event} {rule : Rule} (hread : Rule.read reference = .ok rule)
      (hlog : ∀ e ∈ log, e.access = .lookup reference ∨ e.access = .keep reference rule) :
      Resolution reference (⟨.find reference, none⟩ :: log) rule

/-- References resolved one after the other. -/
inductive Resolutions : List Text → List Event → List Rule → Prop where
  | nil : Resolutions [] [] []
  | cons {reference : Text} {references : List Text} {log rest : List Event} {rule : Rule}
      {rules : List Rule} (h : Resolution reference log rule)
      (hrest : Resolutions references rest rules) :
      Resolutions (reference :: references) (log ++ rest) (rule :: rules)

/-- A rule combined of what the references came to, each by itself, and stored under the first drawn name
that is not taken. -/
inductive Combined (s : Settings) (draws : Draws) (q : CombineRequest) (rule : Rule) (r : Record) :
    List Event → Prop where
  | intro {op : Connective} {rules : List Rule} {resolved taken : List Event} {last : Nat}
      (hop : operatorOf q = .ok op) (hresolved : Resolutions q.references resolved rules)
      (hrule : combination s op rules = .ok rule)
      (htaken : ∀ e ∈ taken, ∃ i name,
        e = ⟨.insert (drawnName s draws i) none rule, .error (.duplicateName name)⟩) :
      Combined s draws q rule r
        (resolved ++ taken ++ [⟨.insert (drawnName s draws last) none rule, .ok r⟩])

theorem Combined.exists_insert {s : Settings} {draws : Draws} {q : CombineRequest} {rule : Rule}
    {r : Record} {log : List Event} (h : Combined s draws q rule r log) :
    ∃ earlier name, log = earlier ++ [⟨.insert name none rule, .ok r⟩] := by
  cases h
  exact ⟨_, _, rfl⟩

/-- The lookups in the log found what texts spell. -/
def Truthful (log : List Event) : Prop :=
  ∀ e ∈ log, Contract.caching.assumes e.access e.answer

variable {log : List Event}

theorem read_yields {s : Settings} {text : Text} {rule : Rule} (h : (read s text).Yields log (.ok rule))
    (ht : Truthful log) :
    Rule.read text = .ok rule ∧
      ∀ e ∈ log, e.access = .lookup text ∨ e.access = .keep text rule := by
  unfold read at h
  split at h
  · obtain ⟨answer, rest, rfl, hrest⟩ := Yields.of_ask_bind h
    cases answer with
    | some found =>
      obtain ⟨rfl, hr⟩ := Yields.of_settle hrest
      cases hr
      exact ⟨ht _ List.mem_cons_self, by simp⟩
    | none =>
      obtain ⟨spelled, before, after, rfl, hbefore, hafter⟩ := Yields.of_bind hrest
      obtain ⟨rfl, hread⟩ := Yields.of_settle hbefore
      obtain ⟨_, last, rfl, hlast⟩ := Yields.of_ask_bind hafter
      obtain ⟨rfl, hr⟩ := Yields.of_settle hlast
      cases hr
      exact ⟨hread.symm, by simp⟩
  · obtain ⟨rfl, hr⟩ := Yields.of_settle h
    exact ⟨hr.symm, by simp⟩

theorem resolve_yields {s : Settings} {reference : Text} {rule : Rule}
    (h : (resolve s reference).Yields log (.ok rule)) (ht : Truthful log) :
    Resolution reference log rule := by
  obtain ⟨answer, rest, rfl, hrest⟩ := Yields.of_ask_bind h
  cases answer with
  | some r =>
    obtain ⟨rfl, hr⟩ := Yields.of_settle hrest
    cases hr
    exact .stored r
  | none =>
    obtain ⟨hread, hlog⟩ :=
      read_yields (Yields.of_tryCatch hrest) fun e he => ht e (List.mem_cons_of_mem _ he)
    exact .parsed hread hlog

theorem mapM_resolve_yields {s : Settings} {references : List Text} {rules : List Rule}
    (h : (references.mapM (resolve s)).Yields log (.ok rules)) (ht : Truthful log) :
    Resolutions references log rules := by
  induction references generalizing log rules with
  | nil =>
    obtain ⟨rfl, hr⟩ := Yields.of_settle h
    cases hr
    exact .nil
  | cons reference references ih =>
    rw [List.mapM_cons] at h
    obtain ⟨rule, first, after, rfl, hfirst, hafter⟩ := Yields.of_bind h
    obtain ⟨others, rest, last, rfl, hrest, hlast⟩ := Yields.of_bind hafter
    obtain ⟨rfl, hr⟩ := Yields.of_settle hlast
    cases hr
    rw [List.append_nil] at ht ⊢
    exact .cons (resolve_yields hfirst fun e he => ht e (List.mem_append_left _ he))
      (ih hrest fun e he => ht e (List.mem_append_right _ he))

/-- Names that are taken, and then one that is not. -/
theorem storeDrawn_yields {s : Settings} {draws : Draws} {rule : Rule} {attempt more : Nat}
    {r : Record} (h : (storeDrawn s draws rule attempt more).Yields log (.ok r)) :
    ∃ taken last, log = taken ++ [⟨.insert (drawnName s draws last) none rule, .ok r⟩] ∧
      ∀ e ∈ taken, ∃ i name,
        e = ⟨.insert (drawnName s draws i) none rule, .error (.duplicateName name)⟩ := by
  induction more generalizing attempt log with
  | zero =>
    obtain ⟨answer, rest, rfl, hrest⟩ := Yields.of_ask_bind h
    obtain ⟨rfl, rfl⟩ := Yields.of_settle hrest
    exact ⟨[], attempt, rfl, by simp⟩
  | succ more ih =>
    obtain ⟨answer, rest, rfl, hrest⟩ := Yields.of_ask_bind h
    split at hrest
    · rename_i name
      obtain ⟨taken, last, rfl, htaken⟩ := ih hrest
      refine ⟨_ :: taken, last, rfl, fun e he => ?_⟩
      obtain rfl | he := List.mem_cons.1 he
      · exact ⟨attempt, name, rfl⟩
      · exact htaken e he
    · obtain ⟨rfl, rfl⟩ := Yields.of_settle hrest
      exact ⟨[], attempt, rfl, by simp⟩

theorem combine_yields {s : Settings} {draws : Draws} {q : CombineRequest} {r : Record}
    (h : (combine s draws q).Yields log (.ok r)) (ht : Truthful log) :
    ∃ rule, Combined s draws q rule r log := by
  obtain ⟨op, before, after, rfl, hbefore, hafter⟩ := Yields.of_bind h
  obtain ⟨rfl, hop⟩ := Yields.of_settle hbefore
  obtain ⟨rules, resolved, after, rfl, hresolved, hcombined⟩ := Yields.of_bind hafter
  obtain ⟨rule, before, after, rfl, hbefore, hstored⟩ := Yields.of_bind hcombined
  obtain ⟨rfl, hrule⟩ := Yields.of_settle hbefore
  obtain ⟨taken, last, rfl, htaken⟩ := storeDrawn_yields hstored
  have hresolutions := mapM_resolve_yields hresolved fun e he => ht e (by simp [he])
  have hlog : Combined s draws q rule r
      (resolved ++ taken ++ [⟨.insert (drawnName s draws last) none rule, .ok r⟩]) :=
    .intro hop.symm hresolutions hrule.symm htaken
  exact ⟨rule, by simpa using hlog⟩

theorem create_yields {s : Settings} {q : CreateRequest} {r : Record}
    (h : (create s q).Yields log (.ok r)) :
    ∃ earlier name text rule, log = earlier ++ [⟨.insert name text rule, .ok r⟩] := by
  unfold create at h
  split at h
  · cases (Dialogue.Path.of_done h).2
  · obtain ⟨rule, earlier, after, rfl, -, hafter⟩ := Yields.of_bind h
    obtain ⟨answer, rest, rfl, hrest⟩ := Yields.of_ask_bind hafter
    obtain ⟨rfl, rfl⟩ := Yields.of_settle hrest
    exact ⟨earlier, _, _, rule, rfl⟩

/-- A delete that has its result has found a record and removed one with the same id, and one that has
none has removed nothing. -/
theorem delete_path {s : Settings} {t : Text} {d : Dialogue (Except Error Reply)}
    (h : Dialogue.Path (ExceptT.run ((Call.delete t).operation s)) log d) :
    (∃ found r, log = [⟨.find t, some found⟩, ⟨.remove found.id, some r⟩] ∧
      d = .done (.ok (.record r))) ∨
    removed log = [] ∧ ∀ reply, d ≠ .done (.ok reply) := by
  obtain ⟨rfl, rfl⟩ | ⟨answer, rest, rfl, hrest⟩ := Dialogue.Path.of_ask h
  · exact .inr ⟨rfl, fun _ hd => by cases hd⟩
  · cases answer with
    | none =>
      obtain ⟨rfl, rfl⟩ := Dialogue.Path.of_done hrest
      exact .inr ⟨rfl, fun _ hd => by cases hd⟩
    | some found =>
      obtain ⟨rfl, rfl⟩ | ⟨answer, last, rfl, hlast⟩ := Dialogue.Path.of_ask hrest
      · exact .inr ⟨rfl, fun _ hd => by cases hd⟩
      · cases answer with
        | none =>
          obtain ⟨rfl, rfl⟩ := Dialogue.Path.of_done hlast
          exact .inr ⟨rfl, fun _ hd => by cases hd⟩
        | some r =>
          obtain ⟨rfl, rfl⟩ := Dialogue.Path.of_done hlast
          exact .inl ⟨found, r, rfl, rfl⟩

/-- No record is removed. -/
def removesNothing : Contract := ⟨fun access => ∀ id, access ≠ .remove id, fun _ _ => True⟩

theorem removesNothing_reads : removesNothing.Reads where
  find _ _ h := by cases h
  lookup _ _ h := by cases h
  keep _ _ _ _ h := by cases h

theorem removed_eq_nil (h : ∀ e ∈ log, removesNothing.promises e.access) : removed log = [] := by
  refine List.filterMap_eq_nil_iff.2 fun e he => ?_
  have hpromise := h e he
  unfold Event.removed?
  split
  · exact absurd rfl (hpromise _)
  · rfl

end Rulebook.Service
