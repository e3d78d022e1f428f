import Rulebook.Proofs.CombinedVerdict
import Rulebook.Proofs.RuleText
import Rulebook.Proofs.WireJson
set_option autoImplicit false

/-!
Every rule that decoding, reading and combining can return travels unchanged, as a wire tree, as JSON
text of its own and within the body of a request. One that is too deep is refused on arrival.
-/

namespace Rulebook

namespace Rule

/-- The comparisons are canonical, and the foreign operators stand for nothing else. -/
def Decodable : Rule → Prop
  | condition c => c.Canonical
  | join _ l r => l.Decodable ∧ r.Decodable
  | not r => r.Decodable
  | foreign o => Wire.meaning o = .foreign
  | foreignLeft o r | foreignRight o r => Wire.meaning o = .foreign ∧ r.Decodable
  | foreignBoth o l r => Wire.meaning o = .foreign ∧ l.Decodable ∧ r.Decodable

/-- What decoding, reading and combining can return. -/
inductive Obtainable : Rule → Prop
  | decoded {w : Wire} {r : Rule} : w.toRule = .ok r → Obtainable r
  | parsed {t : Text} {r : Rule} : Rule.ofText t = .ok r → Obtainable r
  | combined {policy : FlattenPolicy} {op : Connective} {rules : List Rule} {r : Rule} :
      (∀ s ∈ rules, Obtainable s) → policy.combine op rules = .ok r → Obtainable r

theorem Canonical.decodable {r : Rule} (h : r.Canonical) : r.Decodable := by
  induction r with
  | condition c => exact h
  | join op l r ihl ihr => exact ⟨ihl h.1, ihr h.2⟩
  | not r ih => exact ih h
  | _ => exact h.elim

def IsChild (c r : Rule) : Prop := c ∈ r.left? ∨ c ∈ r.right?

theorem isCondition_of_isChild {c r : Rule} (h : c.IsChild r) : r.isCondition = false := by
  cases r <;> first | rfl | simp [IsChild, left?, right?] at h

theorem depth_lt_of_isChild {c r : Rule} (h : c.IsChild r) : c.depth < r.depth := by
  cases r <;> simp [IsChild, left?, right?, depth] at h ⊢ <;> grind

theorem Decodable.child {c r : Rule} (h : r.Decodable) (hc : c.IsChild r) : c.Decodable := by
  cases r <;> simp [IsChild, left?, right?] at hc <;> grind [Decodable]

theorem exists_deepest_child {r : Rule} (h : 1 < r.depth) :
    ∃ c : Rule, c.IsChild r ∧ c.depth + 1 = r.depth := by
  cases r with
  | condition c => simp [depth] at h
  | foreign o => simp [depth] at h
  | not r => exact ⟨r, .inl rfl, rfl⟩
  | foreignLeft o r => exact ⟨r, .inl rfl, rfl⟩
  | foreignRight o r => exact ⟨r, .inr rfl, rfl⟩
  | join op l r =>
    rcases Nat.le_total l.depth r.depth with hle | hle
    · exact ⟨r, .inr rfl, by rw [depth, Nat.max_eq_right hle]⟩
    · exact ⟨l, .inl rfl, by rw [depth, Nat.max_eq_left hle]⟩
  | foreignBoth op l r =>
    rcases Nat.le_total l.depth r.depth with hle | hle
    · exact ⟨r, .inr rfl, by rw [depth, Nat.max_eq_right hle]⟩
    · exact ⟨l, .inl rfl, by rw [depth, Nat.max_eq_left hle]⟩

theorem depth_pos (r : Rule) : 0 < r.depth := by
  cases r <;> simp [depth]

end Rule

namespace Wire

open Rule (maxDepth)

@[simp] theorem meaning_word (op : Connective) : meaning op.word = .connective op := by
  cases op <;> rfl

theorem checkLevel_of_le {level : Nat} (h : level ≤ maxDepth) : checkLevel level = .ok () :=
  if_neg (Nat.not_lt.2 h)

theorem le_of_checkLevel {level : Nat} {u : Unit} (h : checkLevel level = .ok u) :
    level ≤ maxDepth := by
  unfold checkLevel at h
  split at h
  · cases h
  · omega

theorem decode_of_lt {level : Nat} (h : maxDepth < level) (w : Wire) :
    w.decode level = .error (.malformedTree .tooDeep) := by
  have hcheck : checkLevel level = .error (.malformedTree .tooDeep) := if_pos h
  cases w <;> simp only [decode, hcheck] <;> rfl

/-! ### Decoding undoes encoding -/

theorem decode_node {level : Nat} (h : level ≤ maxDepth) (value : Text)
    (left right : Option Wire) : (node ⟨.operator, value⟩ left right).decode level = (do
      let l ← left.mapM (decode (level + 1))
      let r ← right.mapM (decode (level + 1))
      assemble value l r) := by
  have hcheck := checkLevel_of_le h
  cases left <;> cases right <;> simp [node, decode, checkOperator, hcheck] <;> rfl

theorem ofRule_node {r : Rule} (h : r.isCondition = false) :
    ofRule r = node ⟨.operator, r.value⟩ (r.left?.map ofRule) (r.right?.map ofRule) := by
  cases r <;> first | rfl | cases h

theorem assemble_foreign {value : Text} (h : meaning value = .foreign) (l r : Option Rule) :
    assemble value l r = .ok (Rule.foreignOf value l r) := by
  simp [assemble, h]

theorem assemble_value {r : Rule} (h : r.Decodable) (hc : r.isCondition = false) :
    assemble r.value r.left? r.right? = .ok r := by
  cases r with
  | condition c => cases hc
  | join op l r => simp [assemble, Rule.value, Rule.left?, Rule.right?]
  | not r => rfl
  | foreign o => exact assemble_foreign h none none
  | foreignLeft o l => exact assemble_foreign h.1 (some l) none
  | foreignRight o r => exact assemble_foreign h.1 none (some r)
  | foreignBoth o l r => exact assemble_foreign h.1 (some l) (some r)

theorem mapM_decode_ok {child : Option Rule} {level : Nat}
    (h : ∀ c ∈ child, (ofRule c).decode level = .ok c) :
    (child.map ofRule).mapM (decode level) = .ok child := by
  cases child with
  | none => rfl
  | some c => simp [h c rfl]

theorem mapM_decode_error {child : Option Rule} {level : Nat} {e : Error} {c : Rule}
    (hc : c ∈ child) (h : (ofRule c).decode level = .error e) :
    (child.map ofRule).mapM (decode level) = .error e := by
  obtain rfl := Option.mem_def.1 hc
  simp [h]

/-- A rule no deeper than its level leaves room for is decoded from what it is encoded to. -/
theorem decode_ofRule {r : Rule} (h : r.Decodable) {level : Nat}
    (hl : level + r.depth ≤ maxDepth + 1) : (ofRule r).decode level = .ok r := by
  induction hn : r.depth using Nat.strongRecOn generalizing r level with
  | ind n ih =>
    have hpos := r.depth_pos
    have hlevel : level ≤ maxDepth := by omega
    cases hc : r.isCondition with
    | true =>
      cases r with
      | condition c =>
        have hread : readOperand c.text = .ok (.condition c) := by
          rw [readOperand, Condition.ofText_text h]
        simp only [ofRule, decode, checkLevel_of_le hlevel]
        exact hread
      | _ => cases hc
    | false =>
      have hchild : ∀ c : Rule, c.IsChild r → (ofRule c).decode (level + 1) = .ok c := by
        intro c hcr
        have hlt := Rule.depth_lt_of_isChild hcr
        exact ih c.depth (by omega) (h.child hcr) (by omega) rfl
      rw [ofRule_node hc, decode_node hlevel, mapM_decode_ok fun c hl => hchild c (.inl hl),
        mapM_decode_ok fun c hr => hchild c (.inr hr)]
      exact assemble_value h hc

theorem decode_tooDeep {r : Rule} (h : r.Decodable) {level : Nat}
    (hl : maxDepth + 1 < level + r.depth) :
    (ofRule r).decode level = .error (.malformedTree .tooDeep) := by
  induction hn : r.depth using Nat.strongRecOn generalizing r level with
  | ind n ih =>
    by_cases hlevel : maxDepth < level
    · exact decode_of_lt hlevel _
    · obtain ⟨deepest, hd, hdepth⟩ := Rule.exists_deepest_child (show 1 < r.depth by omega)
      have herror : (ofRule deepest).decode (level + 1) = .error (.malformedTree .tooDeep) :=
        ih deepest.depth (by omega) (h.child hd) (by omega) rfl
      rw [ofRule_node (Rule.isCondition_of_isChild hd), decode_node (Nat.not_lt.1 hlevel)]
      obtain hleft | hright := hd
      · rw [mapM_decode_error hleft herror]
        rfl
      · by_cases hfit : ∀ l ∈ r.left?, level + 1 + l.depth ≤ maxDepth + 1
        · rw [mapM_decode_ok fun l hl => decode_ofRule (h.child (.inl hl)) (hfit l hl),
            mapM_decode_error hright herror]
          rfl
        · obtain ⟨l, hl, hdeep⟩ : ∃ l ∈ r.left?, maxDepth + 1 < level + 1 + l.depth := by
            simpa using hfit
          have hlt := Rule.depth_lt_of_isChild (.inl hl)
          rw [mapM_decode_error hl (ih l.depth (by omega) (h.child (.inl hl)) hdeep rfl)]
          rfl

/-! ### What decoding returns -/

/-- Decodable, and no deeper than a level leaves room for. -/
def Fits (level : Nat) (r : Rule) : Prop := r.Decodable ∧ level + r.depth ≤ maxDepth + 1

theorem fits_foreignOf {value : Text} {level : Nat} (hm : meaning value = .foreign)
    (hlevel : level ≤ maxDepth) {l r : Option Rule} (hl : ∀ c ∈ l, Fits (level + 1) c)
    (hr : ∀ c ∈ r, Fits (level + 1) c) : Fits level (Rule.foreignOf value l r) := by
  cases l <;> cases r <;>
    simp [Fits, Rule.foreignOf, Rule.Decodable, Rule.depth, hm] at hl hr ⊢ <;> grind

theorem fits_assemble {value : Text} {level : Nat} (hlevel : level ≤ maxDepth)
    {l r : Option Rule} {s : Rule} (hl : ∀ c ∈ l, Fits (level + 1) c)
    (hr : ∀ c ∈ r, Fits (level + 1) c) (h : assemble value l r = .ok s) : Fits level s := by
  unfold assemble at h
  split at h
  · cases h
    obtain ⟨hl, hdl⟩ := hl _ rfl
    obtain ⟨hr, hdr⟩ := hr _ rfl
    refine ⟨⟨hl, hr⟩, ?_⟩
    rw [Rule.depth]
    omega
  · cases h
  · cases h
    obtain ⟨hl, hdl⟩ := hl _ rfl
    refine ⟨hl, ?_⟩
    rw [Rule.depth]
    omega
  · cases h
  · rename_i hm
    cases h
    exact fits_foreignOf hm hlevel hl hr

theorem fits_readOperand {value : Text} {level : Nat} (hlevel : level ≤ maxDepth) {r : Rule}
    (h : readOperand value = .ok r) : Fits level r := by
  unfold readOperand at h
  split at h
  · rename_i hc
    cases h
    exact ⟨Rule.conditionCanonical_of_ofText hc, Nat.succ_le_succ hlevel⟩
  · cases h

theorem fits_decode {w : Wire} {level : Nat} {r : Rule} (h : w.decode level = .ok r) :
    Fits level r := by
  induction w generalizing level r with
  | bare s =>
    obtain ⟨_, hcheck, h⟩ := Rule.ok_of_bind h
    have hlevel := le_of_checkLevel hcheck
    split at h
    · exact fits_readOperand hlevel h
    · exact fits_assemble hlevel (by simp) (by simp) h
  | onLeft s w ih =>
    obtain ⟨_, hcheck, h⟩ := Rule.ok_of_bind h
    obtain ⟨_, -, h⟩ := Rule.ok_of_bind h
    obtain ⟨left, hleft, h⟩ := Rule.ok_of_bind h
    exact fits_assemble (le_of_checkLevel hcheck) (by simpa using ih hleft) (by simp) h
  | onRight s w ih =>
    obtain ⟨_, hcheck, h⟩ := Rule.ok_of_bind h
    obtain ⟨_, -, h⟩ := Rule.ok_of_bind h
    obtain ⟨right, hright, h⟩ := Rule.ok_of_bind h
    exact fits_assemble (le_of_checkLevel hcheck) (by simp) (by simpa using ih hright) h
  | both s l r ihl ihr =>
    obtain ⟨_, hcheck, h⟩ := Rule.ok_of_bind h
    obtain ⟨_, -, h⟩ := Rule.ok_of_bind h
    obtain ⟨left, hleft, h⟩ := Rule.ok_of_bind h
    obtain ⟨right, hright, h⟩ := Rule.ok_of_bind h
    exact fits_assemble (le_of_checkLevel hcheck) (by simpa using ihl hleft)
      (by simpa using ihr hright) h

/-- Exactly the decodable rules that are not too deep can be returned. -/
theorem obtainable_iff {r : Rule} : r.Obtainable ↔ Fits 1 r := by
  constructor
  · intro h
    induction h with
    | decoded h => exact fits_decode h
    | parsed h =>
      obtain ⟨hc, hd⟩ := Rule.canonical_of_ofText h
      exact ⟨hc.decodable, by omega⟩
    | combined hs h ih =>
      obtain ⟨inputs, rfl, rfl, hd⟩ := FlattenPolicy.combine_eq_ok h
      have hkeep := FlattenPolicy.join_keeps (P := Rule.Decodable) (fun _ _ _ => Iff.rfl)
      exact ⟨hkeep _ _ inputs fun r hr => (ih r hr).1, by omega⟩
  · rintro ⟨h, hd⟩
    exact .decoded (decode_ofRule h hd)

/-- Whatever can be returned travels unchanged as a tree, as a text and as the subject of a request,
and a canonical rule that is too deep is refused. -/
theorem round_trip_of_obtainable :
    (∀ r : Rule, r.Obtainable →
      (ofRule r).toRule = .ok r ∧
      r.toJson.text = (ofRule r).toJson.text ∧
      (Json.read? r.toJson.text).bind (ofJson? Json.maxNesting) = some (ofRule r) ∧
      (∀ before after d, EvaluateRequest.Frame before after d →
        (Json.read? (EvaluateRequest.body before after r.toJson).text).bind
          EvaluateRequest.ofJson? = some ⟨.tree (ofRule r), d⟩) ∧
      Json.ReadsBack r.toJson ∧
      (∀ t j data d, Json.read? t = some j →
        j.fields? [EvaluateRequest.subjectKey, EvaluateRequest.dataKey] 1 =
          some [some r.toJson, data] →
        Json.fieldOr (Data.ofList []) EvaluateRequest.data? data = some d →
        (Json.read? t).bind EvaluateRequest.ofJson? = some ⟨.tree (ofRule r), d⟩)) ∧
    (∀ r : Rule, r.Canonical → maxDepth < r.depth →
      (ofRule r).toRule = .error (.malformedTree .tooDeep)) := by
  constructor
  · intro r hr
    obtain ⟨h, hd⟩ := obtainable_iff.1 hr
    have hlevels : (ofRule r).levels < Json.maxNesting := by
      rw [levels_ofRule]
      simp only [maxDepth, Json.maxNesting] at hd ⊢
      omega
    rw [← toJson_ofRule]
    refine ⟨decode_ofRule h hd, rfl, read?_toJson (Nat.le_of_lt hlevels), ?_,
      Json.readsBack (proper_toJson _), ?_⟩
    · intro before after d hframe
      exact hframe.read?_body hlevels
    · intro t j data d ht hj hd
      rw [ht]
      exact EvaluateRequest.ofJson?_of_fields hlevels hj hd
  · intro r h hd
    exact decode_tooDeep h.decodable (by omega)

/-- A foreign operator of quotes and controls, in a body with an empty record and in one without. -/
theorem round_trip_of_obtainable_foreign :
    let a : Rule := .condition ⟨['a'], .equal, .string "ü\t'".toList⟩
    let r : Rule := .foreignBoth "x\"or\\\n".toList a (.not a)
    let empty : Data := Data.ofList []
    let after : List (Option Text × Json) := [(some "data".toList, .object [])]
    let deep : Rule := Nat.repeat .not 100 a
    (ofRule r).toRule = .ok r ∧ r.toJson.text = (ofRule r).toJson.text ∧
      (Json.read? r.toJson.text).bind (ofJson? Json.maxNesting) = some (ofRule r) ∧
      (Json.read? (EvaluateRequest.body [] after r.toJson).text).bind EvaluateRequest.ofJson? =
        some ⟨.tree (ofRule r), empty⟩ ∧
      (Json.read? ('[' :: r.toJson.text ++ [']'])).bind EvaluateRequest.ofJson? =
        some ⟨.tree (ofRule r), empty⟩ ∧
      (ofRule deep).toRule = .error (.malformedTree .tooDeep) := by
  intro a r empty after deep
  obtain ⟨htravels, hdeep⟩ := round_trip_of_obtainable
  have hr : r.Obtainable := .decoded (w := ofRule r) rfl
  have hframe : EvaluateRequest.Frame [] after empty :=
    ⟨by simpa [after] using .object (by simp), by decide, by decide, rfl⟩
  obtain ⟨htree, htext, hread, hbody, -, hrequest⟩ := htravels r hr
  have hproper : r.toJson.Proper := toJson_ofRule r ▸ proper_toJson (ofRule r)
  have hlist := Json.read?_text (j := .array [r.toJson]) (.array (by simpa using hproper))
  exact ⟨htree, htext, hread, hbody [] after empty hframe, hrequest _ _ none empty hlist rfl rfl,
    hdeep deep (Rule.conditionCanonical_of_ofText (t := "a = \"ü\t'\"".toList) rfl) (by decide)⟩

end Wire
end Rulebook
