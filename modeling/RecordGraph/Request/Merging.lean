import RecordGraph.Document.Nesting
/-!
Whether the fields of a selection set that share a response key ask for the same. Only fields under
the same type condition are compared, and each fragment is looked at once.
-/

namespace RecordGraph

/-- A field that is selected, with the innermost condition around it. -/
structure SelectedField where
  condition : Option String
  key : String
  name : String
  arguments : List (String × Literal)

namespace SelectedField

/-- Whether two fields stand under the same key and condition. -/
def meets (a b : SelectedField) : Bool := a.condition == b.condition && a.key == b.key

/-- Whether two fields ask for the same. -/
def agrees (a b : SelectedField) : Bool :=
  a.name == b.name && a.arguments.length == b.arguments.length &&
    a.arguments.all fun (name, literal) =>
      match Entries.get? b.arguments name with
      | some other => literal.same other
      | none => false

/-- Whether each field agrees with the first one that it meets. -/
def consistent : List SelectedField → List SelectedField → Bool
  | _, [] => true
  | before, f :: rest =>
    (match before.find? f.meets with
      | some first => first.agrees f
      | none => true) && consistent (before ++ [f]) rest

end SelectedField

namespace Document

/-- The selected fields of selections under a condition, in order, and the fragments looked at so
far. Selections below the given depth are left out. -/
def gather (d : Document) :
    Nat → Option String → List String → List Selection → List SelectedField × List String
  | 0, _, seen, _ => ([], seen)
  | depth + 1, condition, seen, selections =>
    selections.foldl (fun (found, seen) selection =>
      match selection with
      | .field label name arguments _ _ =>
        (found ++ [⟨condition, Selection.responseKey label name, name, arguments⟩], seen)
      | .inline condition _ inner =>
        let (more, seen) := gather d depth condition seen inner
        (found ++ more, seen)
      | .spread name _ =>
        match d.fragment? name with
        | some fragment =>
          if seen.contains name then (found, seen)
          else
            let (more, seen) := gather d depth (some fragment.condition) (name :: seen)
              fragment.selections
            (found ++ more, seen)
        | none => (found, seen)) ([], seen)

/-- Whether the fields of a selection set can be merged. -/
def mergeable (d : Document) (selections : List Selection) : Bool :=
  SelectedField.consistent [] (d.gather maxNesting none [] selections).1

end Document

end RecordGraph
