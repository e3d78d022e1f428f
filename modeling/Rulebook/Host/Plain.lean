import Rulebook.Host.Object
set_option autoImplicit false

/-!
What the host itself does with any object: its truth, its equality with another one, its text, and the
form in which it stands inside a collection.
-/

namespace Rulebook.Host

/-- A boolean counts as 0 or 1. -/
def Object.whole? : Object → Option Int
  | .boolean b => some (if b then 1 else 0)
  | .integer i => some i
  | _ => none

/-- A number equals a whole number only if it is that number exactly. -/
def equalsWhole (n : Number) (i : Int) : Bool :=
  n.isFinite && n.rank? == some (i * 2 ^ Number.unitBits)

/-- Zeros, empty texts and collections, and nothing are false; all else is true but a verdict, which is
as its result. -/
def Object.truth : Object → Bool
  | .nothing => false
  | .boolean b => b
  | .integer i => i != 0
  | .float n => !n.equal (Number.zero false)
  | .text t | .bytes t => !t.isEmpty
  | .list items | .tuple items => !items.isEmpty
  | .mapping entries => !entries.isEmpty
  | .bundle _ | .tree _ => true
  | .verdict _ v => v.result

mutual

/-- Trees are equal as rules, verdicts only as the same object, mappings in any order. -/
def Object.same : Object → Object → Bool
  | .nothing, p => match p with
    | .nothing => true
    | _ => false
  | .boolean b, p => match p with
    | .float n => equalsWhole n (if b then 1 else 0)
    | p => p.whole? == some (if b then 1 else 0)
  | .integer i, p => match p with
    | .float n => equalsWhole n i
    | p => p.whole? == some i
  | .float n, p => match p with
    | .float m => n.equal m
    | p => (p.whole?.map (equalsWhole n)).getD false
  | .text t, p => p.text? == some t
  | .bytes t, p => match p with
    | .bytes u => t == u
    | _ => false
  | .list items, p => match p with
    | .list others => sameItems items others
    | _ => false
  | .tuple items, p => match p with
    | .tuple others => sameItems items others
    | _ => false
  | .mapping entries, p => match p with
    | .mapping others => entries.length == others.length && sameEntries entries others
    | _ => false
  | .bundle attributes, p => match p with
    | .bundle others => attributes.length == others.length && sameAttributes attributes others
    | _ => false
  | .tree r, p => match p with
    | .tree s => r.equal s
    | _ => false
  | .verdict i _, p => match p with
    | .verdict j _ => i == j
    | _ => false

def sameItems : List Object → List Object → Bool
  | [], others => others.isEmpty
  | o :: items, others => match others with
    | p :: others => o.same p && sameItems items others
    | [] => false

def sameEntries : List (Object × Object) → List (Object × Object) → Bool
  | [], _ => true
  | (key, value) :: entries, others =>
    (others.any fun e => key.same e.1 && value.same e.2) && sameEntries entries others

def sameAttributes : List (Text × Object) → List (Text × Object) → Bool
  | [], _ => true
  | (name, value) :: attributes, others =>
    (others.any fun a => name == a.1 && value.same a.2) && sameAttributes attributes others

end

def padded (width n : Nat) : Text :=
  let digits := Nat.toDigits 16 n
  List.replicate (width - digits.length) '0' ++ digits

def shownChar (quote c : Char) : Text :=
  if c = quote || c = '\\' then ['\\', c]
  else if c = '\n' then ['\\', 'n']
  else if c = '\r' then ['\\', 'r']
  else if c = '\t' then ['\\', 't']
  else if Text.isVisible c then [c]
  else if c.toNat < 0x100 then '\\' :: 'x' :: padded 2 c.toNat
  else if c.toNat < 0x10000 then '\\' :: 'u' :: padded 4 c.toNat
  else '\\' :: 'U' :: padded 8 c.toNat

/-- Single quotes, or double ones if they spare escapes. -/
def shownText (t : Text) : Text :=
  let quote := if t.contains '\'' && !t.contains '"' then '"' else '\''
  quote :: t.flatMap (shownChar quote) ++ [quote]

def treeText (r : Rule) : Text := "RuleTree(".toList ++ r.text ++ [')']

def verdictText (v : Verdict) : Text :=
  "Verdict(result=".toList ++ (Value.boolean v.result).text ++ ", tree=".toList ++ v.rule.text ++
    [')']

mutual

/-- An object as it stands inside a collection. Only what a call can have given has such a form here,
which floats, bytes and bundles are not. -/
def Object.shown? : Object → Option Text
  | .nothing => some "None".toList
  | .boolean b => some (if b then "True".toList else "False".toList)
  | .integer i => some ((if i < 0 then ['-'] else []) ++ Text.ofNat i.natAbs)
  | .text t => some (shownText t)
  | .list items => (shownItems? items).map fun parts => '[' :: parts ++ [']']
  | .tuple items => (shownItems? items).map fun parts =>
    '(' :: parts ++ if items.length == 1 then [',', ')'] else [')']
  | .mapping entries => (shownEntries? entries).map fun parts => '\x7b' :: parts ++ ['\x7d']
  | .tree r => some (treeText r)
  | .verdict _ v => some (verdictText v)
  | .float _ | .bytes _ | .bundle _ => none

def shownItems? : List Object → Option Text
  | [] => some []
  | [o] => o.shown?
  | o :: p :: items => do
    let first ← o.shown?
    let rest ← shownItems? (p :: items)
    some (first ++ ", ".toList ++ rest)

def shownEntries? : List (Object × Object) → Option Text
  | [] => some []
  | [(key, value)] => do
    let key ← key.shown?
    let value ← value.shown?
    some (key ++ ": ".toList ++ value)
  | (key, value) :: e :: entries => do
    let key ← key.shown?
    let value ← value.shown?
    let rest ← shownEntries? (e :: entries)
    some (key ++ ": ".toList ++ value ++ ", ".toList ++ rest)

end

/-- The text of an object: a text is its own, a tree that of its rule, any other object as shown. -/
def Object.written? : Object → Option Text
  | .text t => some t
  | .tree r => some r.text
  | o => o.shown?

end Rulebook.Host
