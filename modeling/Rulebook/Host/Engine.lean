import Rulebook.Host.Argument
set_option autoImplicit false

/-!
The functions that the engine offers to the host. Declared parameters are converted first; then most
functions need an initialized engine; rules, data and settings are converted after that.
-/

namespace Rulebook.Host

/-- What the functions share: the rules and the cache, the settings once there are some, and whether
logging was set up. Names of combined rules and verdicts are numbered. -/
structure Engine where
  shared : Shared
  settings : Option Settings
  logging : Bool
  namesDrawn : Nat
  verdictsGiven : Nat

namespace Engine

def fresh : Engine := ⟨Shared.empty, none, false, 0, 0⟩

abbrev Outcome := Except Exception Object × Engine

def notInitialized : Exception :=
  ⟨.runtimeError, some "Engine not initialized. Call init_engine() first.".toList⟩

def ready (e : Engine) : Except Exception Settings :=
  match e.settings with
  | some s => .ok s
  | none => .error notInitialized

inductive Call where
  | initEngine (config : Object)
  | isInitialized
  | initLogging
  | createRule (name text : Text)
  | combineRules (references : List Text) (operator : Text)
  | evaluateRule (ast data : Object)
  | getRuleTree (identifier : Text)
  | deleteRule (identifier : Text)
  | parseRule (text : Text)
  | clearCache

/-- The call that a name and arguments make. Classes cannot be called. -/
def callOf (name : Text) (args : List Object) : Except Exception Call :=
  match String.ofList name, args with
  | "init_engine", [] => .ok (.initEngine .nothing)
  | "init_engine", [config] => .ok (.initEngine config)
  | "is_engine_initialized", [] => .ok .isInitialized
  | "init_logging", [] => .ok .initLogging
  | "init_logging", [.nothing] => .ok .initLogging
  | "init_logging", [filter] => do
    let _ ← filter.toText
    .ok .initLogging
  | "create_rule", [name, text] => do .ok (.createRule (← name.toText) (← text.toText))
  | "combine_rules", [rules, op] => do .ok (.combineRules (← rules.toTexts) (← op.toText))
  | "evaluate_rule", [ast, data] => .ok (.evaluateRule ast data)
  | "evaluate_rule_async", [ast, data] => .ok (.evaluateRule ast data)
  | "get_rule_tree", [identifier] => do .ok (.getRuleTree (← identifier.toText))
  | "delete_rule", [identifier] => do .ok (.deleteRule (← identifier.toText))
  | "parse_rule", [text] => do .ok (.parseRule (← text.toText))
  | "clear_parse_cache", [] => .ok .clearCache
  | name, _ =>
    if functionNames.contains name then .error (.bare .typeError) else .error (.bare .attributeError)
where
  functionNames : List String :=
    ["init_engine", "is_engine_initialized", "init_logging", "create_rule", "combine_rules",
      "evaluate_rule", "evaluate_rule_async", "get_rule_tree", "delete_rule", "parse_rule",
      "clear_parse_cache", "RuleTree", "Verdict"]

def perform {α : Type} (e : Engine) (o : Operation α) (out : α → Object) : Outcome :=
  let (r, shared) := o.run e.shared
  ((raised r).map out, { e with shared := shared })

def whenReady (e : Engine) (go : Settings → Outcome) : Outcome :=
  match e.ready with
  | .ok s => go s
  | .error x => (.error x, e)

def configured (config : Object) : Except Exception Settings :=
  match config with
  | .nothing => .ok Settings.standard
  | o => do
    let s ← o.toSettings
    checkSettings s

/-- Refused settings leave the engine as it was. -/
def initEngine (e : Engine) (config : Object) : Outcome :=
  match configured config with
  | .error x => (.error x, e)
  | .ok s => (.ok .nothing, { e with settings := some s, logging := e.logging || s.logFilter.isSome })

def judge (target : Target) (d : Data) : Operation Verdict :=
  match target with
  | .rule r => Operation.settle (r.judge d)
  | .subject s => Service.evaluate ⟨s, d⟩

def evaluateRule (e : Engine) (ast data : Object) : Outcome :=
  let arguments : Except Exception (Target × Data) := do
    let target ← ast.toTarget
    let d ← data.toData
    .ok (target, d)
  match arguments with
  | .error x => (.error x, e)
  | .ok (target, d) =>
    { e with verdictsGiven := e.verdictsGiven + 1 }.perform (judge target d)
      (Object.verdict e.verdictsGiven)

def combineRules (e : Engine) (s : Settings) (q : CombineRequest) : Outcome :=
  { e with namesDrawn := e.namesDrawn + 1 }.perform
    (Service.combine s (Draws.numbered e.namesDrawn) q) recordObject

/-- Rules can be read before there are settings, and the cache then serves. -/
def read (e : Engine) (text : Text) : Operation Rule :=
  match e.settings with
  | some s => Service.read s text
  | none => Service.readCached text

def run (e : Engine) : Call → Outcome
  | .initEngine config => e.initEngine config
  | .isInitialized => (.ok (.boolean e.settings.isSome), e)
  | .initLogging => (.ok (.boolean !e.logging), { e with logging := true })
  | .createRule name text => e.whenReady fun s =>
    e.perform (Service.create s ⟨some name, some text⟩) recordObject
  | .combineRules references operator => e.whenReady fun s =>
    e.combineRules s ⟨references, some operator⟩
  | .evaluateRule ast data => e.whenReady fun _ => e.evaluateRule ast data
  | .getRuleTree identifier => e.whenReady fun _ => e.perform (Service.getTree identifier) .tree
  | .deleteRule identifier => e.whenReady fun _ =>
    e.perform (Service.delete identifier) recordObject
  | .parseRule text => e.perform (e.read text) .tree
  | .clearCache => e.perform (Operation.ask .clear) fun _ => .nothing

def call (e : Engine) (name : Text) (args : List Object) : Outcome :=
  match callOf name args with
  | .error x => (.error x, e)
  | .ok c => e.run c

end Engine
end Rulebook.Host
