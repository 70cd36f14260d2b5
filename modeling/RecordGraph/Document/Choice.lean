import RecordGraph.Document.Reader
/-!
Which operation of a document a request means. A request names one, unless there is only one; an
operation without a name cannot be named.
-/

namespace RecordGraph.Document

/-- The operation that a request means, if it means one. -/
def chosen? (d : Document) : Option String → Option Operation
  | some name => d.operations.find? fun o => o.name == some name
  | none =>
    match d.operations with
    | [only] => some only
    | _ => none

/-- The operation without a name, if there is one. -/
def nameless? (d : Document) : Option Operation := d.operations.find? fun o => o.name.isNone

/-- The kind of the operation that a request means. An operation without a name counts whatever name
is asked for; where there is no operation to count, it is a query. -/
def kindOf (text : String) (name : Option String) : OperationKind :=
  let operation := do
    let d ← read? text
    match d.nameless? with
    | some operation => operation
    | none => d.chosen? name
  (operation.map Operation.kind).getD .query

end RecordGraph.Document
