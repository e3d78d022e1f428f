import Rulebook.Proofs.JsonText
import Rulebook.Service.Request
set_option autoImplicit false

/-!
A wire tree and its JSON. The two encoders agree, and a tree that is nested within the limit is read
from its text alone or as the subject of a request.
-/

namespace Rulebook

namespace Wire

def levels : Wire → Nat
  | bare _ => 1
  | onLeft _ w | onRight _ w => w.levels + 1
  | both _ l r => max l.levels r.levels + 1

theorem levels_ofRule (r : Rule) : (ofRule r).levels = r.depth := by
  induction r <;> simp [ofRule, levels, Rule.depth, *]

theorem toJson_ofRule (r : Rule) : (ofRule r).toJson = r.toJson := by
  have hname (s : Rule) : (labelOf s).type.name = s.typeName := by
    cases s <;> rfl
  have hlabel (s : Rule) (children : List (String × Json)) :
      labelJson (labelOf s) children = s.nodeJson children := by
    rw [labelJson, hname]
    rfl
  induction r <;> simp only [ofRule, toJson, Rule.toJson, *]

theorem levels_pos (w : Wire) : 0 < w.levels := by
  cases w <;> simp [levels]

theorem exists_node (w : Wire) : ∃ s left right, w = node s left right := by
  cases w with
  | bare s => exact ⟨s, none, none, rfl⟩
  | onLeft s l => exact ⟨s, some l, none, rfl⟩
  | onRight s r => exact ⟨s, none, some r, rfl⟩
  | both s l r => exact ⟨s, some l, some r, rfl⟩

theorem levels_node_le {s : Label} {left right : Option Wire} {room : Nat}
    (h : (node s left right).levels ≤ room + 1) :
    (∀ w ∈ left, w.levels ≤ room) ∧ ∀ w ∈ right, w.levels ≤ room := by
  cases left <;> cases right <;> simp [node, levels] at h ⊢ <;> omega

def childMembers (left right : Option Json) : List (String × Json) :=
  (left.map fun j => ("left", j)).toList ++ (right.map fun j => ("right", j)).toList

theorem mem_childMembers {left right : Option Wire} {m : String × Json}
    (h : m ∈ childMembers (left.map toJson) (right.map toJson)) :
    ∃ w, (w ∈ left ∨ w ∈ right) ∧ m.2 = w.toJson := by
  simp only [childMembers, Option.map_map, List.mem_append, Option.mem_toList,
    Option.map_eq_some_iff] at h
  obtain ⟨w, hw, rfl⟩ | ⟨w, hw, rfl⟩ := h
  · exact ⟨w, .inl hw, rfl⟩
  · exact ⟨w, .inr hw, rfl⟩

theorem toJson_node (s : Label) (left right : Option Wire) : (node s left right).toJson =
    labelJson s (childMembers (left.map toJson) (right.map toJson)) := by
  cases left <;> cases right <;> rfl

/-! ### The JSON of a tree is well formed -/

theorem proper_labelJson (s : Label) {children : List (String × Json)}
    (h : ∀ m ∈ children, m.2.Proper) : (labelJson s children).Proper := by
  refine .object ?_
  simp only [List.mem_map, List.mem_cons]
  rintro m ⟨n, rfl | rfl | hn, rfl⟩
  · exact .string _
  · exact .string _
  · exact h n hn

theorem proper_toJson (w : Wire) : w.toJson.Proper := by
  induction w <;> exact proper_labelJson _ (by simp [*])

theorem sound_labelJson (s : Label) {room : Nat} {children : List (String × Json)}
    (h : ∀ m ∈ children, m.2.sound room = true) :
    (labelJson s children).sound (room + 1) = true := by
  have htext (t : Text) : (Json.ofText t).sound room = true := by
    cases room <;> rfl
  simpa [labelJson, Json.record, Json.sound, htext] using h

theorem sound_toJson {w : Wire} {room : Nat} (h : w.levels ≤ room) :
    w.toJson.sound room = true := by
  induction room generalizing w with
  | zero => exact absurd w.levels_pos (Nat.not_lt.2 h)
  | succ room ih =>
    obtain ⟨s, left, right, rfl⟩ := w.exists_node
    obtain ⟨hl, hr⟩ := levels_node_le h
    rw [toJson_node]
    refine sound_labelJson s fun m hm => ?_
    obtain ⟨w, hw, hm⟩ := mem_childMembers hm
    rw [hm]
    exact ih (hw.elim (hl w) (hr w))

/-! ### A tree reads back from its JSON -/

theorem fields?_labelJson (s : Label) (left right : Option Json) :
    (labelJson s (childMembers left right)).fields? fieldNames 2 =
      some [some (.ofText s.type.name), some (.ofText s.value), left, right] := by
  cases left <;> cases right <;>
    simp [labelJson, Json.record, childMembers, Json.fields?, fieldNames, List.lookup_cons]

theorem ofJson?_name (room : Nat) (t : NodeType) :
    NodeType.ofJson? room (.ofText t.name) = some t := by
  cases t <;> rfl

/-- A tree is never written as null. -/
theorem childOf?_toJson {read : Json → Option Wire} {child : Option Wire}
    (h : ∀ w ∈ child, read w.toJson = some w) :
    ofJson?.childOf? read (child.map toJson) = some child := by
  cases child with
  | none => rfl
  | some w =>
    have hw := h w rfl
    obtain ⟨s, left, right, rfl⟩ := w.exists_node
    rw [toJson_node] at hw
    simp only [Option.map_some, toJson_node, labelJson, Json.record, ofJson?.childOf?] at hw ⊢
    rw [hw]
    rfl

theorem ofJson?_toJson {w : Wire} {room : Nat} (h : w.levels ≤ room) :
    ofJson? room w.toJson = some w := by
  induction room generalizing w with
  | zero => exact absurd w.levels_pos (Nat.not_lt.2 h)
  | succ room ih =>
    obtain ⟨s, left, right, rfl⟩ := w.exists_node
    obtain ⟨hl, hr⟩ := levels_node_le h
    have hleft := childOf?_toJson fun w hw => ih (hl w hw)
    have hright := childOf?_toJson fun w hw => ih (hr w hw)
    rw [toJson_node]
    simp only [ofJson?, fields?_labelJson, ofJson?_name]
    simp [hleft, hright, Json.ofText, Json.text?]

theorem read?_toJson {w : Wire} (h : w.levels ≤ Json.maxNesting) :
    (Json.read? w.toJson.text).bind (ofJson? Json.maxNesting) = some w := by
  rw [Json.read?_text w.proper_toJson]
  exact ofJson?_toJson h

end Wire

/-! ### A tree as the subject of a request -/

theorem Subject.ofJson?_toJson {w : Wire} {room : Nat} (h : w.levels ≤ room) :
    Subject.ofJson? room w.toJson = some (.tree w) := by
  rw [Subject.ofJson?, if_pos (Wire.sound_toJson h), Wire.ofJson?_toJson (Nat.le_succ_of_le h)]

namespace EvaluateRequest

def subjectKey : Text := "ast".toList

def dataKey : Text := "data".toList

/-- A request that holds a tree under its key, whatever else it holds. -/
theorem ofJson?_of_fields {j : Json} {w : Wire} {data : Option Json} {d : Data}
    (hw : w.levels < Json.maxNesting)
    (hj : j.fields? [subjectKey, dataKey] 1 = some [some w.toJson, data])
    (hd : Json.fieldOr (Data.ofList []) data? data = some d) :
    ofJson? j = some ⟨.tree w, d⟩ := by
  have hsubject : Subject.ofJson? (Json.maxNesting - 1) w.toJson = some (.tree w) :=
    Subject.ofJson?_toJson (Nat.le_pred_of_lt hw)
  unfold ofJson?
  rw [subjectKey, dataKey] at hj
  simp only [hj, hsubject, hd]
  rfl

def body (before after : List (Option Text × Json)) (subject : Json) : Json :=
  .object (before ++ (some subjectKey, subject) :: after)

/-- What else is in a body: members of other names, of which at most one is the data record. -/
structure Frame (before after : List (Option Text × Json)) (d : Data) : Prop where
  proper : ∀ m ∈ before ++ after, m.2.Proper
  named : ∀ m ∈ before ++ after, m.1.isSome = true ∧ m.1 ≠ some subjectKey
  once : ((before ++ after).filter fun m => m.1 == some dataKey).length ≤ 1
  data : Json.fieldOr (Data.ofList []) data? ((before ++ after).lookup (some dataKey)) = some d

theorem Frame.fields?_body {before after : List (Option Text × Json)} {d : Data}
    (h : Frame before after d) (subject : Json) :
    (body before after subject).fields? [subjectKey, dataKey] 1 =
      some [some subject, (before ++ after).lookup (some dataKey)] := by
  have hkeys : (some subjectKey == some dataKey) = false := by decide
  have hkeys' : (some dataKey == some subjectKey) = false := by decide
  have hall : (before ++ (some subjectKey, subject) :: after).all (fun m => m.1.isSome) = true := by
    simp only [List.all_append, List.all_cons, Bool.and_eq_true, List.all_eq_true]
    exact ⟨fun m hm => (h.named m (by simp [hm])).1, rfl, fun m hm => (h.named m (by simp [hm])).1⟩
  have hother : ∀ m ∈ before ++ after, (m.1 == some subjectKey) = false :=
    fun m hm => beq_eq_false_iff_ne.2 (h.named m hm).2
  have hsubject : (before ++ (some subjectKey, subject) :: after).filter
      (fun m => m.1 == some subjectKey) = [(some subjectKey, subject)] := by
    have hbefore : before.filter (fun m => m.1 == some subjectKey) = [] :=
      List.filter_eq_nil_iff.2 fun m hm => by simp [hother m (by simp [hm])]
    have hafter : after.filter (fun m => m.1 == some subjectKey) = [] :=
      List.filter_eq_nil_iff.2 fun m hm => by simp [hother m (by simp [hm])]
    rw [List.filter_append, List.filter_cons_of_pos (by simp), hbefore, hafter]
    rfl
  have hdata : (before ++ (some subjectKey, subject) :: after).filter
      (fun m => m.1 == some dataKey) = (before ++ after).filter fun m => m.1 == some dataKey := by
    rw [List.filter_append, List.filter_cons_of_neg (by simp [hkeys]), List.filter_append]
  have hread : (before ++ (some subjectKey, subject) :: after).lookup (some subjectKey) =
      some subject := by
    have hnone : before.lookup (some subjectKey) = none :=
      List.lookup_eq_none_iff.2 fun m hm => by
        have hne := (h.named m (by simp [hm])).2
        simp [Ne.symm hne]
    rw [List.lookup_append, hnone, List.lookup_cons_self]
    rfl
  have hrest : (before ++ (some subjectKey, subject) :: after).lookup (some dataKey) =
      (before ++ after).lookup (some dataKey) := by
    rw [List.lookup_append, List.lookup_append, List.lookup_cons, hkeys']
  simp only [body, Json.fields?, hall, List.all_cons, hsubject, hdata, List.map_cons, hread, hrest]
  simpa using h.once

theorem Frame.proper_body {before after : List (Option Text × Json)} {d : Data}
    (h : Frame before after d) {subject : Json} (hs : subject.Proper) :
    (body before after subject).Proper := by
  refine .object fun m hm => ?_
  simp only [List.mem_append, List.mem_cons] at hm
  obtain hm | rfl | hm := hm
  · exact h.proper m (by simp [hm])
  · exact hs
  · exact h.proper m (by simp [hm])

theorem Frame.read?_body {before after : List (Option Text × Json)} {d : Data}
    (h : Frame before after d) {w : Wire} (hw : w.levels < Json.maxNesting) :
    (Json.read? (body before after w.toJson).text).bind ofJson? = some ⟨.tree w, d⟩ := by
  rw [Json.read?_text (h.proper_body w.proper_toJson)]
  exact ofJson?_of_fields hw (h.fields?_body w.toJson) h.data

end EvaluateRequest
end Rulebook
