import Rulebook.Rule.Basic
set_option autoImplicit false

/-!
A rule drawn as an outline, one node a line, its children indented under it:

    └── AND
        ├── department == 'Sales'
        └── OR
            ├── age > 30
            └── experience > 5
-/

namespace Rulebook.Rule

/-- What stands before a node: only a last child closes its branch. -/
def branch (last : Bool) : Text := if last then "└── ".toList else "├── ".toList

def indent (last : Bool) : Text := if last then "    ".toList else "│   ".toList

def outlineLine (lead : Text) (last : Bool) (r : Rule) : Text :=
  lead ++ branch last ++ r.value ++ ['\n']

def outlineUnder (lead : Text) (last : Bool) : Rule → Text
  | condition c => outlineLine lead last (condition c)
  | foreign o => outlineLine lead last (foreign o)
  | not r => outlineLine lead last (not r) ++ r.outlineUnder (lead ++ indent last) true
  | foreignLeft o l =>
    outlineLine lead last (foreignLeft o l) ++ l.outlineUnder (lead ++ indent last) true
  | foreignRight o r =>
    outlineLine lead last (foreignRight o r) ++ r.outlineUnder (lead ++ indent last) true
  | join op l r =>
    outlineLine lead last (join op l r) ++ l.outlineUnder (lead ++ indent last) false ++
      r.outlineUnder (lead ++ indent last) true
  | foreignBoth o l r =>
    outlineLine lead last (foreignBoth o l r) ++ l.outlineUnder (lead ++ indent last) false ++
      r.outlineUnder (lead ++ indent last) true

/-- The root is drawn as a last child. -/
def outline (r : Rule) : Text := r.outlineUnder [] true

end Rulebook.Rule
