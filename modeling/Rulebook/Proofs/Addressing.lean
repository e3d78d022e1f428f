import Rulebook.Proofs.Contract
import Rulebook.Proofs.NumberText
import Rulebook.Proofs.Runs
set_option autoImplicit false

/-!
How stored rules are addressed. A rule is found by its id and, unless its name begins or ends with a
space, by its name; an identifier that finds a rule makes every operation act on that rule alone. A name
with a space at an end is looked up without it, and then means another rule or none.
-/

namespace Rulebook

open Decimal (allDigits_ofNat ofNat_ne_nil)

/-! ### Blanks at the ends -/

namespace Text

theorem trimStart_suffix (t : Text) : t.trimStart <:+ t := List.dropWhile_suffix _

theorem trimStart_eq_self_iff {t : Text} : t.trimStart = t ↔ ∀ c ∈ t.head?, isBlank c = false := by
  cases t with
  | nil => simp [trimStart]
  | cons c t =>
    cases hc : isBlank c with
    | false => simp [trimStart, hc]
    | true =>
      have hne : trimStart (c :: t) ≠ c :: t := by
        intro he
        have hle : (trimStart (c :: t)).length ≤ t.length := by
          simpa [trimStart, hc] using (trimStart_suffix t).length_le
        rw [he, List.length_cons] at hle
        omega
      simp [hne, hc]

theorem trimEnd_eq_reverse (t : Text) : t.trimEnd = (trimStart t.reverse).reverse := rfl

theorem trimEnd_eq_self_iff {t : Text} : t.trimEnd = t ↔ ∀ c ∈ t.getLast?, isBlank c = false := by
  rw [trimEnd_eq_reverse, List.reverse_eq_iff, trimStart_eq_self_iff, List.head?_reverse]

theorem trim_eq_self_iff {t : Text} :
    t.trim = t ↔
      (∀ c ∈ t.head?, isBlank c = false) ∧ (∀ c ∈ t.getLast?, isBlank c = false) := by
  rw [← trimStart_eq_self_iff, ← trimEnd_eq_self_iff]
  constructor
  · intro h
    have hend : t.trimStart.trimEnd.length ≤ t.trimStart.length := by
      simpa [trimEnd_eq_reverse] using (trimStart_suffix (List.reverse t.trimStart)).length_le
    have hstart : t.trimStart = t := by
      refine (trimStart_suffix t).eq_of_length_le ?_
      rw [trim] at h
      rwa [h] at hend
    exact ⟨hstart, by rwa [trim, hstart] at h⟩
  · rintro ⟨hstart, hend⟩
    rw [trim, hstart, hend]

end Text

namespace Name

theorem isBlank_eq {c : Char} (h : isNameChar c = true) : Text.isBlank c = decide (c = ' ') :=
  Token.ascii_of_forall
    (P := fun c => isNameChar c = true → Text.isBlank c = decide (c = ' ')) (by decide) (toNat_lt h) h

/-- A space begins or ends it. -/
def Padded (name : Text) : Prop := name.head? = some ' ' ∨ name.getLast? = some ' '

instance (name : Text) : Decidable (Padded name) := inferInstanceAs (Decidable (_ ∨ _))

theorem trim_eq_self_iff {name : Text} (h : check name = .ok ()) :
    name.trim = name ↔ ¬Padded name := by
  obtain ⟨-, -, hchars, -⟩ := check_eq_ok_iff.1 h
  have hend {o : Option Char} (ho : ∀ c ∈ o, c ∈ name) :
      (∀ c ∈ o, Text.isBlank c = false) ↔ o ≠ some ' ' := by
    cases o with
    | none => simp
    | some c => simp [isBlank_eq (List.all_eq_true.1 hchars c (ho c rfl))]
  rw [Text.trim_eq_self_iff, hend fun c hc => List.mem_of_mem_head? hc,
    hend fun c hc => List.mem_of_mem_getLast? hc, Padded, not_or]

end Name

namespace Text

theorem isDigits_ofNat (n : Nat) : (ofNat n).isDigits = true := by
  have hdigits : (ofNat n).all Char.isDigit = true := List.all_eq_true.2 (allDigits_ofNat n)
  simp [isDigits, ofNat_ne_nil, hdigits]

theorem trim_ofNat (n : Nat) : (ofNat n).trim = ofNat n := by
  have hdigit {c : Char} (hc : c ∈ ofNat n) : isBlank c = false :=
    Token.not_isBlank (.inr (.inl (allDigits_ofNat n c hc)))
  exact trim_eq_self_iff.2 ⟨fun c hc => hdigit (List.mem_of_mem_head? hc),
    fun c hc => hdigit (List.mem_of_mem_getLast? hc)⟩

end Text

/-! ### What an identifier finds -/

namespace Store

/-- The digits of an id mean the record with this id, if a word holds it. -/
theorem find?_ofNat (s : Store) (id : Nat) :
    s.find? (Text.ofNat id) = if id < 2 ^ idBits then s.byId? id else none := by
  simp only [find?, Text.trim_ofNat, Text.isDigits_ofNat, Text.digitsToNat_ofNat, if_true]

theorem Consistent.find?_ofNat {s : Store} (h : s.Consistent) {r : Record} (hr : r ∈ s.toList)
    (hfits : r.id < 2 ^ idBits) : s.find? (Text.ofNat r.id) = some r := by
  rw [Store.find?_ofNat, if_pos hfits, h.mem_toList.1 hr]

/-- A record is found by its name if no space is at an end of it; else only if the digits in it happen to
be the id. -/
theorem Consistent.find?_name {s : Store} (h : s.Consistent) {r : Record} (hr : r ∈ s.toList) :
    s.find? r.name = some r ↔
      ¬Name.Padded r.name ∨
        r.name.trim.isDigits = true ∧ r.id = r.name.trim.digitsToNat ∧ r.id < 2 ^ idBits := by
  have hvalid := h.valid (h.mem_toList.1 hr)
  rw [h.find?_eq_some_iff, ← Name.trim_eq_self_iff hvalid]
  by_cases hdigits : r.name.trim.isDigits = true
  · -- A name of digits alone is not valid, so that these have spaces beside them.
    have hne : r.name.trim ≠ r.name := by
      intro he
      rw [he, Text.isDigits, (Name.check_eq_ok_iff.1 hvalid).2.2.2, Bool.and_false] at hdigits
      cases hdigits
    simp [hdigits, hr, hne]
  · simp [hdigits, hr, eq_comm]

end Store

/-! ### What operations do with a found rule -/

namespace Service

open Operation

variable {s : Shared} {t : Text} {r : Record}

/-- What combining comes to where one of the references means a rule: the others are resolved, and the
rule stands between theirs. -/
def combineWith (settings : Settings) (draws : Draws) (operator : Option Text)
    (before : List Text) (rule : Rule) (after : List Text) : Operation Record := do
  let op ← settle (operatorOf ⟨[], operator⟩)
  let left ← before.mapM (resolve settings)
  let right ← after.mapM (resolve settings)
  let combined ← settle (combination settings op (left ++ rule :: right))
  storeDrawn settings draws combined 0 (Draws.maxAttempts - 1)

/-- The references before it may fill the cache, but they leave the store as it is. -/
theorem run_combine (hf : s.store.find? t = some r) (settings : Settings) (draws : Draws)
    (operator : Option Text) (before after : List Text) :
    (combine settings draws ⟨before ++ t :: after, operator⟩).run s =
      (combineWith settings draws operator before r.rule after).run s := by
  unfold combine combineWith
  have hop : operatorOf ⟨before ++ t :: after, operator⟩ = operatorOf ⟨[], operator⟩ := rfl
  rw [hop, run_bind, run_bind]
  cases operatorOf ⟨[], operator⟩ with
  | error e => rfl
  | ok op =>
    simp only [run_settle, List.mapM_append, List.mapM_cons, bind_assoc, pure_bind]
    rw [run_bind, run_bind]
    have hstore := (keeps_mapM (keeps_resolve Contract.leavesStore_reads settings) before).store_eq s
    rw [← hstore] at hf
    cases ((before.mapM (resolve settings)).run s).1 with
    | error e => rfl
    | ok left =>
      dsimp only
      rw [run_bind, run_resolve hf]

/-- A stored rule is found by its id, and by its name unless a space is at an end of that. Whatever
identifier finds it, every operation acts on it and on no other rule. -/
theorem acts_on_found {s : Shared} (h : s.store.Reached) {r : Record} (hr : r ∈ s.store.toList) :
    (r.id < 2 ^ Store.idBits → s.store.find? (Text.ofNat r.id) = some r) ∧
    (s.store.find? r.name = some r ↔
      ¬Name.Padded r.name ∨
        r.name.trim.isDigits = true ∧ r.id = r.name.trim.digitsToNat ∧ r.id < 2 ^ Store.idBits) ∧
    (∀ t, s.store.find? t = some r →
      (getTree t).run s = (.ok r.rule, s) ∧
      (∀ d, (evaluate ⟨.reference t, d⟩).run s = (r.rule.judge d, s)) ∧
      (∀ settings draws operator before after,
        (combine settings draws ⟨before ++ t :: after, operator⟩).run s =
          (combineWith settings draws operator before r.rule after).run s) ∧
      ∃ store, (delete t).run s = (.ok r, { s with store := store }) ∧
        store.toList = s.store.toList.filter fun a => a ≠ r) := by
  have hs := h.consistent
  refine ⟨hs.find?_ofNat hr, hs.find?_name hr, fun t hf => ?_⟩
  exact ⟨run_getTree hf, run_evaluate hf, run_combine hf, run_delete hs hf⟩

/-- Two rules whose names differ in a space at the start: the one without it is found by its name, and
removed by it. -/
theorem acts_on_found_twin :
    let rule : Rule := .condition ⟨['x'], .equal, .string ['y']⟩
    let us : List Update := [.insert "a".toList none rule, .insert " a".toList none (.not rule)]
    let s : Shared := ⟨(Update.run Store.update Store.empty us).2, Cache.empty⟩
    let first : Record := ⟨1, "a".toList, none, rule⟩
    s.store.find? "a".toList = some first ∧ s.store.find? (Text.ofNat 1) = some first ∧
      ∃ store, (delete "a".toList).run s = (.ok first, { s with store := store }) ∧
        store.toList = s.store.toList.filter fun a => a ≠ first := by
  intro rule us s first
  have hlist : s.store.toList = [first, ⟨2, " a".toList, none, .not rule⟩] := Store.run_toList us
  have hr : first ∈ s.store.toList := by simp [hlist]
  obtain ⟨hid, hname, hacts⟩ := acts_on_found (s := s) ⟨us, rfl⟩ hr
  have hfind := hname.2 (.inl (by decide))
  exact ⟨hfind, hid (by decide), (hacts _ hfind).2.2.2⟩

/-- The name of the second rule means the first one, which is then the one removed. -/
theorem padded_name_removes_another :
    let rule : Rule := .condition ⟨['x'], .equal, .string ['y']⟩
    let us : List Update := [.insert "a".toList none rule, .insert " a".toList none (.not rule)]
    let s : Shared := ⟨(Update.run Store.update Store.empty us).2, Cache.empty⟩
    let first : Record := ⟨1, "a".toList, none, rule⟩
    let second : Record := ⟨2, " a".toList, none, .not rule⟩
    s.store.toList = [first, second] ∧ s.store.find? second.name = some first ∧
      ((delete second.name).run s).1 = .ok first ∧
      ((delete second.name).run s).2.store.toList = [second] := by
  intro rule us s first second
  have hs : s.store.Consistent := (Store.run_ledger us).2
  have hlist : s.store.toList = [first, second] := Store.run_toList us
  have hfind : s.store.find? second.name = some first :=
    hs.find?_eq_some_iff.2 ⟨by simp [hlist], by decide⟩
  obtain ⟨store, hdelete, hleft⟩ := run_delete hs hfind
  refine ⟨hlist, hfind, by rw [hdelete], ?_⟩
  rw [hdelete]
  exact hleft.trans (by rw [hlist]; decide)

end Service
end Rulebook
