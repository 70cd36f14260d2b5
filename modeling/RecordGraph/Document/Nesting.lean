import RecordGraph.Document.Basic
/-!
Measures of selections with the fragments they refer to spelled out. Selections may refer to
fragments in circles, so every measure looks at a given number of levels only.
-/

namespace RecordGraph

/-- The field that asks for the name of the type. -/
def typeNameField : String := "__typename"

/-- How many levels of selections a document may have, fragments included. -/
def maxNesting : Nat := 33

namespace Document

/-- The selections of a fragment, none if there is no such fragment. -/
def fragmentSelections (d : Document) (name : String) : List Selection :=
  ((d.fragment? name).map Fragment.selections).getD []

/-- Whether selections have at most a number of levels. -/
def within (d : Document) : Nat → List Selection → Bool
  | 0, _ => false
  | levels + 1, selections =>
    selections.all fun
      | .field _ _ _ _ inner => inner.isEmpty || within d levels inner
      | .inline _ _ inner => within d levels inner
      | .spread name _ => (d.fragment? name).isNone || within d levels (d.fragmentSelections name)

/-- How many fields are asked for, names of types aside. -/
def fieldCount (d : Document) : Nat → List Selection → Nat
  | 0, _ => 0
  | levels + 1, selections =>
    (selections.map fun
      | .field _ name _ _ inner => if name = typeNameField then 0 else 1 + fieldCount d levels inner
      | .inline _ _ inner => fieldCount d levels inner
      | .spread name _ => fieldCount d levels (d.fragmentSelections name)).foldl (· + ·) 0

/-- How many fields stand inside each other, names of types aside. -/
def fieldDepth (d : Document) : Nat → List Selection → Nat
  | 0, _ => 0
  | levels + 1, selections =>
    (selections.map fun
      | .field _ name _ _ inner => if name = typeNameField then 0 else 1 + fieldDepth d levels inner
      | .inline _ _ inner => fieldDepth d levels inner
      | .spread name _ => fieldDepth d levels (d.fragmentSelections name)).foldl max 0

/-- Whether all operations have few enough levels. -/
def isShallow (d : Document) : Bool := d.operations.all fun o => d.within maxNesting o.selections

/-- The fields of all operations together. -/
def complexity (d : Document) : Nat :=
  (d.operations.map fun o => d.fieldCount maxNesting o.selections).foldl (· + ·) 0

/-- The depth of the deepest operation. -/
def depth (d : Document) : Nat :=
  (d.operations.map fun o => d.fieldDepth maxNesting o.selections).foldl max 0

end Document

end RecordGraph
