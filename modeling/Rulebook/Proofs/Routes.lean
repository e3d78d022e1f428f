import Mathlib.Data.List.Forall2
import Rulebook.Host.Engine
import Rulebook.Host.Handle
import Rulebook.Proofs.Addressing
import Rulebook.Proofs.HostMapping
import Rulebook.Proofs.JsonNumber
import Rulebook.Proofs.StoredRules
set_option autoImplicit false

/-!
The ways of evaluating a stored rule. By its id, as a tree of the wire, in the body of a request, or as a
handle or a mapping of the host, it has one verdict on a record, or one failure, and comes back unchanged.
In a body the record is the one that its numerals are read as, which is exact for short ones only.
-/

namespace Rulebook

open Rule (maxDepth)

/-! ### A record in the body of a request -/

namespace EvaluateRequest

/-- Members that are read as these entries. -/
def Carries (members : List (Option Text × Json)) (entries : List (Text × Value)) : Prop :=
  List.Forall₂ (fun m e => m.1 = some e.1 ∧ m.2.Proper ∧ Value.ofJson? m.2 = some e.2) members entries

theorem Carries.data? {members : List (Option Text × Json)} {entries : List (Text × Value)}
    (h : Carries members entries) : data? (.object members) = some (Data.ofList entries) := by
  have hentries : members.mapM entry? = some entries := by
    induction h with
    | nil => rfl
    | cons hm _ ih =>
      obtain ⟨hname, -, hvalue⟩ := hm
      simp [hname, hvalue, ih, entry?]
  rw [EvaluateRequest.data?, hentries]
  rfl

theorem Carries.frame {members : List (Option Text × Json)} {entries : List (Text × Value)}
    (h : Carries members entries) :
    Frame [] [(some dataKey, .object members)] (Data.ofList entries) where
  proper := by
    have hproper : ∀ m ∈ members, m.2.Proper := by
      induction h with
      | nil => simp
      | cons hm _ ih => exact List.forall_mem_cons.2 ⟨hm.2.1, ih⟩
    simpa using .object hproper
  named := by
    have hne : dataKey ≠ subjectKey := by decide
    simpa using hne
  once := by simp
  data := by
    rw [List.nil_append, List.lookup_cons_self]
    exact h.data?

end EvaluateRequest

/-! ### The routes -/

open Host (Engine Object) in
/-- What the host gets of a stored rule: a handle by the id, from the handle a mapping that reads as the
tree of the wire, and from any of the three the verdict on a record. -/
structure Host.Serves (e : Engine) (r : Record) : Prop where
  handle : e.call "get_rule_tree".toList [.text (Text.ofNat r.id)] = (.ok (.tree r.rule), e)
  mapping : send (.tree r.rule) "to_dict".toList [] = .ok (ruleObject r.rule) ∧
    (ruleObject r.rule).toWire maxDepth = .ok (Wire.ofRule r.rule)
  evaluate : ∀ (data : Object) (d : Data), data.toData = .ok d →
    send (.tree r.rule) "evaluate".toList [data] =
      (raised (r.rule.judge d)).map fun v => .boolean v.result
  evaluateRule : ∀ (data : Object) (d : Data), data.toData = .ok d →
    ∀ name ∈ ["evaluate_rule".toList, "evaluate_rule_async".toList],
    ∀ ast ∈ [.tree r.rule, .text (Text.ofNat r.id), ruleObject r.rule],
      e.call name [ast, data] = ((raised (r.rule.judge d)).map (Object.verdict e.verdictsGiven),
        { e with verdictsGiven := e.verdictsGiven + 1 })

namespace Service

/-- Whichever way a stored rule is evaluated, the verdict or the failure is that of the rule itself, and the
tree that comes back is the rule. -/
structure Agrees (σ : Shared) (r : Record) : Prop where
  getTree : (getTree (Text.ofNat r.id)).run σ = (.ok r.rule, σ)
  byId : ∀ d, (evaluate ⟨.reference (Text.ofNat r.id), d⟩).run σ = (r.rule.judge d, σ)
  byTree : ∀ d, (evaluate ⟨.tree (Wire.ofRule r.rule), d⟩).run σ = (r.rule.judge d, σ)
  /-- Any body that holds the JSON of the rule and a record. -/
  byBody : ∀ t j data d, Json.read? t = some j →
    j.fields? [EvaluateRequest.subjectKey, EvaluateRequest.dataKey] 1 =
      some [some r.rule.toJson, data] →
    Json.fieldOr (Data.ofList []) EvaluateRequest.data? data = some d →
    ∃ q, (Json.read? t).bind EvaluateRequest.ofJson? = some q ∧
      (evaluate q).run σ = (r.rule.judge d, σ)
  /-- The body with members that are read as given entries. -/
  byEntries : ∀ members entries, EvaluateRequest.Carries members entries →
    ∃ q, (Json.read? (EvaluateRequest.body [] [(some EvaluateRequest.dataKey, .object members)]
        r.rule.toJson).text).bind EvaluateRequest.ofJson? = some q ∧
      (evaluate q).run σ = (r.rule.judge (Data.ofList entries), σ)
  byHost : ∀ e : Host.Engine, e.shared = σ → e.settings.isSome = true → Host.Serves e r

theorem run_evaluate_tree {r : Rule} (h : r.Storable) (d : Data) (σ : Shared) :
    (evaluate ⟨.tree (Wire.ofRule r), d⟩).run σ = (r.judge d, σ) := by
  have hdecode : (Wire.ofRule r).toRule = .ok r := by
    have hdepth := h.depth_le
    exact Wire.decode_ofRule h.canonical.decodable (by omega)
  have hsubject : subjectRule (.tree (Wire.ofRule r)) = Operation.settle (.ok r) := by
    rw [subjectRule, hdecode]
  rw [evaluate, hsubject]
  rfl

theorem levels_lt {r : Rule} (h : r.Storable) : (Wire.ofRule r).levels < Json.maxNesting := by
  rw [Wire.levels_ofRule]
  exact Nat.lt_of_le_of_lt h.depth_le (by decide)

end Service

namespace Host

open Service

variable {e : Engine} {r : Record}

theorem whenReady_eq (h : e.settings.isSome = true) (go : Settings → Engine.Outcome) :
    ∃ s, e.whenReady go = go s := by
  obtain ⟨s, hs⟩ := Option.isSome_iff_exists.1 h
  refine ⟨s, ?_⟩
  simp only [Engine.whenReady, Engine.ready, hs]

theorem perform_eq {α : Type} {o : Operation α} {a : Except Error α} (h : o.run e.shared = (a, e.shared))
    (out : α → Object) : e.perform o out = ((raised a).map out, e) := by
  rw [Engine.perform, h]

theorem run_evaluateRule {ast data : Object} {target : Target} {d : Data} {v : Except Error Verdict}
    (hast : ast.toTarget = .ok target) (hdata : data.toData = .ok d)
    (hv : (Engine.judge target d).run e.shared = (v, e.shared)) :
    e.evaluateRule ast data = ((raised v).map (Object.verdict e.verdictsGiven),
      { e with verdictsGiven := e.verdictsGiven + 1 }) := by
  unfold Engine.evaluateRule
  simp only [hast, hdata, bind, Except.bind]
  exact perform_eq (e := { e with verdictsGiven := e.verdictsGiven + 1 }) hv _

/-- A handle, an id and a mapping come to the same judgement. -/
theorem exists_target (hr : r.rule.Storable) (hf : e.shared.store.find? (Text.ofNat r.id) = some r)
    {ast : Object} (hast : ast ∈ [.tree r.rule, .text (Text.ofNat r.id), ruleObject r.rule]) (d : Data) :
    ∃ target, ast.toTarget = .ok target ∧
      (Engine.judge target d).run e.shared = (r.rule.judge d, e.shared) := by
  simp only [List.mem_cons, List.not_mem_nil, or_false] at hast
  obtain rfl | rfl | rfl := hast
  · exact ⟨.rule r.rule, rfl, rfl⟩
  · exact ⟨.subject (.reference (Text.ofNat r.id)), rfl, run_evaluate hf d⟩
  · refine ⟨.subject (.tree (Wire.ofRule r.rule)), ?_, run_evaluate_tree hr d e.shared⟩
    have htarget : (ruleObject r.rule).toTarget = (do
        let w ← (ruleObject r.rule).toWire maxDepth
        .ok (.subject (.tree w))) := by
      cases r.rule <;> rfl
    rw [htarget, toWire_ruleObject hr.depth_le]
    rfl

theorem serves (hr : r.rule.Storable) (hf : e.shared.store.find? (Text.ofNat r.id) = some r)
    (hready : e.settings.isSome = true) : Serves e r where
  handle := by
    have hcall : e.call "get_rule_tree".toList [.text (Text.ofNat r.id)] =
        e.whenReady fun _ => e.perform (getTree (Text.ofNat r.id)) .tree := rfl
    obtain ⟨s, hs⟩ := whenReady_eq hready fun _ => e.perform (getTree (Text.ofNat r.id)) .tree
    rw [hcall, hs, perform_eq (run_getTree hf)]
    rfl
  mapping := ⟨rfl, toWire_ruleObject hr.depth_le⟩
  evaluate data d hd := by
    have hsend : send (.tree r.rule) "evaluate".toList [data] = evaluateTree r.rule data := rfl
    rw [hsend, evaluateTree, hd]
    rfl
  evaluateRule data d hd name hname ast hast := by
    obtain ⟨target, htarget, hjudge⟩ := exists_target hr hf hast d
    have hcall : e.call name [ast, data] = e.whenReady fun _ => e.evaluateRule ast data := by
      simp only [List.mem_cons, List.not_mem_nil, or_false] at hname
      obtain rfl | rfl := hname <;> rfl
    obtain ⟨s, hs⟩ := whenReady_eq hready fun _ => e.evaluateRule ast data
    rw [hcall, hs, run_evaluateRule htarget hd hjudge]

end Host

namespace Service

theorem agrees {σ : Shared} (h : σ.Settled) {r : Record} (hr : r ∈ σ.store.toList)
    (hid : r.id < 2 ^ Store.idBits) : Agrees σ r := by
  have hrule := h.storable r hr
  have hlevels := levels_lt hrule
  have hf := h.consistent.find?_ofNat hr hid
  have hevaluate (d : Data) := run_evaluate_tree hrule d σ
  refine ⟨run_getTree hf, run_evaluate hf, hevaluate, ?_, ?_, ?_⟩
  · intro t j data d ht hj hd
    rw [← Wire.toJson_ofRule] at hj
    exact ⟨_, by rw [ht]; exact EvaluateRequest.ofJson?_of_fields hlevels hj hd, hevaluate d⟩
  · intro members entries hcarries
    rw [← Wire.toJson_ofRule]
    exact ⟨_, hcarries.frame.read?_body hlevels, hevaluate _⟩
  · rintro e rfl hready
    exact Host.serves hrule hf hready

/-- In every session all routes to a stored rule agree, and no record of entries is out of reach of the
host. A body of JSON says what its numerals are read as; short ones are read as the numbers they spell. -/
theorem routes_agree :
    (∀ (s : Settings) (turns : List Turn),
      let σ := (Session.run ⟨s, Shared.empty⟩ turns).2.shared
      ∀ r ∈ σ.store.toList, r.id < 2 ^ Store.idBits → Agrees σ r) ∧
    (∀ entries, (Host.dataObject entries).toData = .ok (Data.ofList entries)) ∧
    (∀ n : Json.Numeral, n.Proper → n.Short →
      Value.ofJson? (.number n) = (Number.ofText? n.text).map .number) := by
  refine ⟨fun s turns r hr hid => ?_, Host.toData_dataObject, fun n hn hshort => ?_⟩
  · exact agrees (Session.settled Shared.settled_empty turns) hr hid
  · rw [hshort.ofText?_text hn]
    rfl

/-- A rule with a denial, by its id, as a tree and as a mapping, and a numeral with a fraction. -/
theorem routes_agree_denial :
    let settings : Settings := { Settings.standard with caching := false }
    let text := "x='y' AND NOT z='y'".toList
    let σ := (Session.run ⟨settings, Shared.empty⟩ [.call (.create ⟨some ['r'], some text⟩)]).2.shared
    let rule : Rule := .join .and (.condition ⟨['x'], .equal, .string ['y']⟩)
      (.not (.condition ⟨['z'], .equal, .string ['y']⟩))
    let entries : List (Text × Value) := [(['x'], .string ['y']), (['z'], .boolean false)]
    let e : Host.Engine := ⟨σ, some settings, false, 0, 0⟩
    let n : Json.Numeral := ⟨true, ['2'], ['5'], none⟩
    (evaluate ⟨.reference (Text.ofNat 1), Data.ofList entries⟩).run σ = (.ok ⟨true, rule⟩, σ) ∧
      (evaluate ⟨.tree (Wire.ofRule rule), Data.ofList entries⟩).run σ = (.ok ⟨true, rule⟩, σ) ∧
      (e.call "evaluate_rule".toList [Host.ruleObject rule, Host.dataObject entries]).1 =
        .ok (.verdict 0 ⟨true, rule⟩) ∧
      Value.ofJson? (.number n) = (Number.ofText? "-2.5".toList).map .number := by
  intro settings text σ rule entries e n
  obtain ⟨hagree, hdata, hshort⟩ := routes_agree
  have hread : Rule.read text = .ok rule := rfl
  have hlist : σ.store.toList = [⟨1, ['r'], some text, rule⟩] :=
    (Session.run_create rfl rfl hread rfl).2.1
  have hjudge : rule.judge (Data.ofList entries) = .ok ⟨true, rule⟩ := rfl
  have h := hagree settings [.call (.create ⟨some ['r'], some text⟩)] ⟨1, ['r'], some text, rule⟩
    (by rw [hlist]; simp) (by decide)
  have hid := h.byId (Data.ofList entries)
  have htree := h.byTree (Data.ofList entries)
  have hhost := (h.byHost e rfl rfl).evaluateRule _ _ (hdata entries) "evaluate_rule".toList (by simp)
    (Host.ruleObject rule) (by simp)
  rw [hjudge] at hid htree hhost
  have hproper : n.Proper := Json.Numeral.proper_of_digits (by decide) (by decide) rfl rfl
  exact ⟨hid, htree, by rw [hhost]; rfl, hshort n hproper ⟨rfl, by decide, by decide⟩⟩

/-- A rule with the literal 31.245270191439438 meets that number: true where the number itself is passed,
false where its digits are passed in JSON, though these are the digits that the number is written with. -/
theorem body_differs :
    let n : Json.Numeral := ⟨false, "31".toList, "245270191439438".toList, none⟩
    let settings : Settings := { Settings.standard with caching := false }
    let text := "a == 31.245270191439438".toList
    ∃ x : Number, Number.ofText? n.text = some x ∧ x.text = n.text ∧
      let rule : Rule := .condition ⟨['a'], .equal, .number x⟩
      let σ := (Session.run ⟨settings, Shared.empty⟩
        [.call (.create ⟨some ['r'], some text⟩)]).2.shared
      σ.store.toList = [⟨1, ['r'], some text, rule⟩] ∧
      rule.judge (Data.ofList [(['a'], .number x)]) = .ok ⟨true, rule⟩ ∧
      ∃ q, (Json.read? (EvaluateRequest.body []
          [(some EvaluateRequest.dataKey, .object [(some ['a'], .number n)])]
          rule.toJson).text).bind EvaluateRequest.ofJson? = some q ∧
        (evaluate q).run σ = (.ok ⟨false, rule⟩, σ) := by
  intro n settings text
  obtain ⟨x, hx⟩ : ∃ x, Number.ofText? n.text = some x := Option.isSome_iff_exists.1 (by decide +kernel)
  obtain ⟨y, hy⟩ : ∃ y, n.toNumber? = some y := Option.isSome_iff_exists.1 (by decide +kernel)
  have hfinite : x.isFinite = true := by
    have h : (Number.ofText? n.text).map Number.isFinite = some true := by decide +kernel
    rw [hx] at h
    exact Option.some.inj h
  have hwritten : x.text = n.text := by
    have h : (Number.ofText? n.text).map Number.text = some n.text := by decide +kernel
    rw [hx] at h
    exact Option.some.inj h
  have hapart : y.equal x = false := by
    have h : (n.toNumber?.bind fun y => (Number.ofText? n.text).map y.equal) = some false := by
      decide +kernel
    rw [hx, hy] at h
    exact Option.some.inj h
  refine ⟨x, hx, hwritten, ?_⟩
  intro rule σ
  have hword : Token.Lexeme .identifier ['a'] :=
    Token.lexeme_identifier (Token.isWord_of_all (by decide) (by decide)) rfl
  have hrule : rule.Storable := ⟨⟨hword, hfinite⟩, by simp [rule, Rule.depth, maxDepth]⟩
  have htext : rule.text = text := by
    simp only [rule, Rule.text, Condition.text, Value.literal, Value.text, hwritten]
    rfl
  have hread : Rule.read text = .ok rule := by
    rw [Rule.read, ← htext, Rule.ofText_text hrule.canonical hrule.depth_le]
  have hproper : n.Proper := Json.Numeral.proper_of_digits (by decide) (by decide) rfl rfl
  have hcarries : EvaluateRequest.Carries [(some ['a'], .number n)] [(['a'], .number y)] :=
    .cons ⟨rfl, .number hproper, by simp [Value.ofJson?, hy]⟩ .nil
  have hjudge (z : Number) : rule.judge (Data.ofList [(['a'], .number z)]) =
      .ok ⟨z.equal x, rule⟩ := by
    have hlookup : Data.ofList [(['a'], .number z)] ['a'] = some (.number z) := by
      simp [Data.ofList]
    simp only [rule, Rule.judge, Rule.evaluate, Condition.evaluate, hlookup]
    rfl
  have hsame := hjudge x
  have hbody := run_evaluate_tree hrule (Data.ofList [(['a'], .number y)]) σ
  rw [Number.equal_self hfinite] at hsame
  rw [hjudge y, hapart] at hbody
  refine ⟨(Session.run_create rfl rfl hread rfl).2.1, hsame, _, ?_, hbody⟩
  rw [← Wire.toJson_ofRule]
  exact hcarries.frame.read?_body (levels_lt hrule)

end Service
end Rulebook
