import RecordGraph.Document.Nesting
import RecordGraph.Schema.Table
/-!
The places of a document that the rules for requests look at, each with what the schema knows about
it. Sites are collected in one walk over all operations and fragments; a fragment is walked once, on
the type that it is meant for.
-/

namespace RecordGraph

/-- The definition that a place belongs to: an operation by its position, or a fragment. -/
inductive Scope where
  | operation (position : Nat)
  | fragment (name : String)
  deriving DecidableEq, Repr

/-- What is known about a place: the definition it belongs to and the type whose fields are
selected there, if the schema has it. -/
structure Standpoint where
  scope : Scope
  type : Option TypeDefinition

/-- A place in a document. -/
inductive Site where
  | field (here : Standpoint) (name : String) (arguments : List (String × Literal))
      (directives : List Directive) (selections : List Selection)
  /-- The request for the name of the type. -/
  | typeName (here : Standpoint)
  | spread (here : Standpoint) (fragment : String) (directives : List Directive)
  | inline (here : Standpoint) (condition : Option String) (directives : List Directive)
  | selectionSet (selections : List Selection)

namespace TypeTable

/-- The type below a field. -/
def below (t : TypeTable) (s : Standpoint) (field : String) : Standpoint :=
  { s with type := (s.type.bind fun type => type.field? field).bind fun f => t.core? f.type }

/-- The type below a condition. -/
def under (t : TypeTable) (s : Standpoint) : Option String → Standpoint
  | some name => { s with type := t.type? name }
  | none => s

mutual

/-- The sites of a selection. -/
def sites (t : TypeTable) (s : Standpoint) : Selection → List Site
  | .field _ name arguments directives selections =>
    if name = typeNameField then [.typeName s]
    else
      .field s name arguments directives selections :: .selectionSet selections ::
        siteList t (t.below s name) selections
  | .spread fragment directives => [.spread s fragment directives]
  | .inline condition directives selections =>
    .inline s condition directives :: .selectionSet selections ::
      siteList t (t.under s condition) selections

/-- The sites of selections, in order. -/
def siteList (t : TypeTable) (s : Standpoint) : List Selection → List Site
  | [] => []
  | selection :: rest => sites t s selection ++ siteList t s rest

end

/-- The sites of an operation. One whose root type does not exist has none. -/
def operationSites (t : TypeTable) (position : Nat) (o : Operation) : List Site :=
  match t.root? o.kind with
  | some root =>
    .selectionSet o.selections :: t.siteList ⟨.operation position, t.type? root⟩ o.selections
  | none => []

/-- The sites of a fragment. -/
def fragmentSites (t : TypeTable) (f : Fragment) : List Site :=
  .selectionSet f.selections ::
    t.siteList ⟨.fragment f.name, t.type? f.condition⟩ f.selections

/-- The sites of a document. -/
def documentSites (t : TypeTable) (d : Document) : List Site :=
  d.fragments.flatMap t.fragmentSites ++
    (d.operations.zipIdx.flatMap fun (o, position) => t.operationSites position o)

end TypeTable

end RecordGraph
