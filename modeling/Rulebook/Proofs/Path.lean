import Rulebook.Proofs.Contract
import Rulebook.Service.Schedule
set_option autoImplicit false

/-!
The path of a dialogue: the accesses it has made with their answers, whoever came in between, and how it
goes on. The path of an operation that has its result splits along the operation.
-/

namespace Rulebook

open Service (Event)

namespace Dialogue

variable {α β : Type}

/-- With these accesses and answers the dialogue has come so far. -/
inductive Path : Dialogue α → List Event → Dialogue α → Prop where
  | refl (d : Dialogue α) : Path d [] d
  | step {access : Access} {next : access.Answer → Dialogue α} {answer : access.Answer}
      {log : List Event} {d : Dialogue α} (h : Path (next answer) log d) :
      Path (ask access next) (⟨access, answer⟩ :: log) d

namespace Path

theorem snoc {d : Dialogue α} {log : List Event} {access : Access}
    {next : access.Answer → Dialogue α} (h : Path d log (ask access next)) (answer : access.Answer) :
    Path d (log ++ [⟨access, answer⟩]) (next answer) := by
  generalize he : ask access next = e at h
  induction h with
  | refl d =>
    subst he
    exact .step (.refl _)
  | step _ ih => exact .step (ih he)

theorem of_done {a : α} {log : List Event} {d : Dialogue α} (h : Path (done a) log d) :
    log = [] ∧ d = done a := by
  cases h
  exact ⟨rfl, rfl⟩

theorem of_ask {access : Access} {next : access.Answer → Dialogue α} {log : List Event}
    {d : Dialogue α} (h : Path (ask access next) log d) :
    log = [] ∧ d = ask access next ∨
      ∃ answer rest, log = ⟨access, answer⟩ :: rest ∧ Path (next answer) rest d := by
  cases h with
  | refl => exact .inl ⟨rfl, rfl⟩
  | step h => exact .inr ⟨_, _, rfl, h⟩

theorem of_bind {d : Dialogue α} {f : α → Dialogue β} {log : List Event} {b : β}
    (h : Path (d.bind f) log (done b)) :
    ∃ a before after, log = before ++ after ∧ Path d before (done a) ∧ Path (f a) after (done b) := by
  induction d generalizing log with
  | done a => exact ⟨a, [], log, rfl, .refl _, h⟩
  | ask access next ih =>
    obtain ⟨-, hd⟩ | ⟨answer, rest, rfl, hrest⟩ := of_ask h
    · cases hd
    · obtain ⟨a, before, after, rfl, hbefore, hafter⟩ := ih answer hrest
      exact ⟨a, _ :: before, after, rfl, .step hbefore, hafter⟩

/-- As long as the answers were as assumed, the accesses were as promised, and so are those to come. -/
theorem meets {C : Contract} {Q : α → Prop} {d e : Dialogue α} {log : List Event}
    (h : Path d log e) (hd : d.Meets C Q) (hlog : ∀ x ∈ log, C.assumes x.access x.answer) :
    (∀ x ∈ log, C.promises x.access) ∧ e.Meets C Q := by
  induction h with
  | refl d => exact ⟨by simp, hd⟩
  | step _ ih =>
    obtain ⟨hpast, hrest⟩ := ih (hd.2 _ (hlog _ List.mem_cons_self))
      fun x hx => hlog x (List.mem_cons_of_mem _ hx)
    refine ⟨fun x hx => ?_, hrest⟩
    obtain rfl | hx := List.mem_cons.1 hx
    · exact hd.1
    · exact hpast x hx

end Path
end Dialogue

namespace Operation

variable {α β : Type} {log : List Event}

/-- With these accesses and answers the operation has come to its result. -/
def Yields (o : Operation α) (log : List Event) (r : Except Error α) : Prop :=
  Dialogue.Path (ExceptT.run o) log (.done r)

theorem Yields.of_settle {e r : Except Error α} (h : (settle e).Yields log r) : log = [] ∧ r = e := by
  obtain ⟨hlog, hr⟩ := Dialogue.Path.of_done h
  cases hr
  exact ⟨hlog, rfl⟩

theorem Yields.of_ask_bind {access : Access} {f : access.Answer → Operation β} {r : Except Error β}
    (h : (ask access >>= f).Yields log r) :
    ∃ answer rest, log = ⟨access, answer⟩ :: rest ∧ (f answer).Yields rest r := by
  obtain ⟨-, hd⟩ | h := Dialogue.Path.of_ask h
  · cases hd
  · exact h

theorem Yields.of_bind {o : Operation α} {f : α → Operation β} {b : β}
    (h : (o >>= f).Yields log (.ok b)) :
    ∃ a before after, log = before ++ after ∧ o.Yields before (.ok a) ∧
      (f a).Yields after (.ok b) := by
  obtain ⟨r, before, after, hlog, hbefore, hafter⟩ := Dialogue.Path.of_bind h
  cases r with
  | ok a => exact ⟨a, before, after, hlog, hbefore, hafter⟩
  | error e => cases (Dialogue.Path.of_done hafter).2

theorem Yields.of_map {o : Operation α} {f : α → β} {b : β} (h : (f <$> o).Yields log (.ok b)) :
    ∃ a, b = f a ∧ o.Yields log (.ok a) := by
  rw [← bind_pure_comp] at h
  obtain ⟨a, before, after, hlog, hbefore, hafter⟩ := h.of_bind
  obtain ⟨rfl, hb⟩ := Yields.of_settle hafter
  rw [List.append_nil] at hlog
  cases hb
  exact ⟨a, rfl, hlog ▸ hbefore⟩

/-- A failure that is only replaced by another one is no result. -/
theorem Yields.of_tryCatch {o : Operation α} {f : Error → Error} {a : α}
    (h : (tryCatch o fun e => throw (f e)).Yields log (.ok a)) : o.Yields log (.ok a) := by
  obtain ⟨r, before, after, rfl, hbefore, hafter⟩ := Dialogue.Path.of_bind h
  cases r with
  | ok b =>
    obtain ⟨rfl, hb⟩ := Dialogue.Path.of_done hafter
    cases hb
    rwa [List.append_nil]
  | error e => cases (Dialogue.Path.of_done hafter).2

end Operation
end Rulebook
