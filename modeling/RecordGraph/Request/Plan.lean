import RecordGraph.Document.Nesting
/-!
Plans: selections as they are executed. Fragments are spelled out as groups of selections for
objects of a type, and what the directives of a request leave out is gone.
-/

namespace RecordGraph

/-- A part of a plan. -/
inductive Plan where
  /-- A field, the key of its value in the response, and the plans for its value. -/
  | field (key name : String) (arguments : List (String × Literal)) (below : List Plan)
  /-- Plans for objects of a type, or for any object. -/
  | group (condition : Option String) (members : List Plan)
  deriving Inhabited

namespace Directive

/-- Whether the condition of a directive is met by the values given for variables. A condition that
is no truth value is not met. -/
def isMet (given : Entries WireValue) (literal : Literal) : Bool :=
  match literal.value (Entries.get? given) with
  | .ok (.bool b) => b
  | _ => false

/-- Whether a directive leaves out the selection it stands at. -/
def leavesOut (given : Entries WireValue) (d : Directive) : Bool :=
  match Entries.get? d.arguments "if" with
  | some literal =>
    if d.name = "skip" then isMet given literal
    else if d.name = "include" then !isMet given literal
    else false
  | none => false

end Directive

namespace Selection

/-- The directives of a selection. -/
def directives : Selection → List Directive
  | .field _ _ _ directives _ => directives
  | .spread _ directives => directives
  | .inline _ directives _ => directives

/-- Whether a selection is left out. -/
def isLeftOut (given : Entries WireValue) (s : Selection) : Bool :=
  s.directives.any (Directive.leavesOut given)

end Selection

namespace Document

/-- The plans for selections, down to a number of levels. -/
def plans (d : Document) (given : Entries WireValue) : Nat → List Selection → List Plan
  | 0, _ => []
  | levels + 1, selections =>
    (selections.filter fun s => !s.isLeftOut given).filterMap fun
      | .field label name arguments _ inner =>
        some (.field (Selection.responseKey label name) name arguments (plans d given levels inner))
      | .inline condition _ inner => some (.group condition (plans d given levels inner))
      | .spread name _ =>
        (d.fragment? name).map fun f =>
          .group (some f.condition) (plans d given levels f.selections)

end Document

end RecordGraph
