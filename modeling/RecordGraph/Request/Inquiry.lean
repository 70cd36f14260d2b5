import RecordGraph.Reach
import RecordGraph.Request.Site
/-!
A request as the rules see it: the document, the types of the schema and the variables given. From
the places of the document come its arguments, its directives, and what each of its definitions
refers to.
-/

namespace RecordGraph

/-- A request as the rules see it. -/
structure Inquiry where
  table : TypeTable
  document : Document
  /-- The values given for variables. -/
  given : Entries WireValue

/-- A list of arguments, and what is declared for it if its field or directive is known. -/
structure ArgumentSite where
  scope : Scope
  declared : Option (List InputDefinition)
  arguments : List (String × Literal)

/-- The directives that stand at one place. -/
structure DirectiveSite where
  scope : Scope
  location : DirectiveLocation
  directives : List Directive

/-- The input with a name among those declared. -/
def InputDefinition.find? (declared : List InputDefinition) (name : String) :
    Option InputDefinition :=
  declared.find? fun d => d.name == name

/-- The directive with a name. -/
def DirectiveDefinition.find? (name : String) : Option DirectiveDefinition :=
  SelfDescription.directives.find? fun d => d.name == name

/-- Where the directives of an operation stand. -/
def OperationKind.location : OperationKind → DirectiveLocation
  | .query => .query
  | .mutation => .mutation
  | .subscription => .subscription

namespace Operation

/-- The directives of an operation. Those of its variables count as standing at the operation. -/
def directiveSites (o : Operation) (position : Nat) : List DirectiveSite :=
  (o.declarations.map VariableDefinition.directives ++ [o.directives]).map fun ds =>
    ⟨.operation position, o.kind.location, ds⟩

end Operation

namespace Site

/-- The directives of a place. -/
def directiveSites : Site → List DirectiveSite
  | .field here _ _ ds _ => [⟨here.scope, .field, ds⟩]
  | .spread here _ ds => [⟨here.scope, .fragmentSpread, ds⟩]
  | .inline here _ ds => [⟨here.scope, .inlineFragment, ds⟩]
  | _ => []

/-- The field that a place selects, as the schema defines it. -/
def definition? : Site → Option FieldDefinition
  | .field here name _ _ _ => here.type.bind fun t => t.field? name
  | _ => none

/-- The arguments of a place. -/
def argumentSites (s : Site) : List ArgumentSite :=
  match s with
  | .field here _ arguments _ _ =>
    [⟨here.scope, s.definition?.map FieldDefinition.arguments, arguments⟩]
  | _ => []

/-- The fragment that a place within a definition refers to. -/
def spreadIn? (scope : Scope) : Site → Option String
  | .spread here name _ => if here.scope = scope then some name else none
  | _ => none

end Site

namespace DirectiveSite

/-- The arguments of the directives of a place. -/
def argumentSites (s : DirectiveSite) : List ArgumentSite :=
  s.directives.map fun d =>
    ⟨s.scope, (DirectiveDefinition.find? d.name).map DirectiveDefinition.arguments, d.arguments⟩

end DirectiveSite

namespace Inquiry

/-- The places of the document. -/
def sites (q : Inquiry) : List Site := q.table.documentSites q.document

/-- The operations with their positions. -/
def operations (q : Inquiry) : List (Operation × Nat) := q.document.operations.zipIdx

/-- All directives of the document. -/
def directiveSites (q : Inquiry) : List DirectiveSite :=
  (q.document.fragments.map fun f => ⟨.fragment f.name, .fragmentDefinition, f.directives⟩) ++
    (q.operations.flatMap fun (o, position) => o.directiveSites position) ++
    q.sites.flatMap Site.directiveSites

/-- All lists of arguments of the document. -/
def argumentSites (q : Inquiry) : List ArgumentSite :=
  q.sites.flatMap Site.argumentSites ++ q.directiveSites.flatMap DirectiveSite.argumentSites

/-- The arguments that are declared, with their declarations. -/
def declaredArguments (q : Inquiry) : List (Scope × InputDefinition × Literal) :=
  q.argumentSites.flatMap fun s =>
    s.arguments.filterMap fun (name, literal) =>
      (InputDefinition.find? (s.declared.getD []) name).map fun d => (s.scope, d, literal)

/-- The fragments that a definition refers to. -/
def spreads (q : Inquiry) (scope : Scope) : List String := q.sites.filterMap (Site.spreadIn? scope)

/-- The names of the fragments of the document. -/
def fragmentNames (q : Inquiry) : List String := q.document.fragments.map Fragment.name

/-- The fragments that a definition refers to, at any remove. -/
def reached (q : Inquiry) (scope : Scope) : List String :=
  reachable (fun name => q.spreads (.fragment name)) q.fragmentNames (q.spreads scope)

/-- An operation, by its position, and the fragments it refers to. -/
def extent (q : Inquiry) (position : Nat) : List Scope :=
  .operation position :: (q.reached (.operation position)).map Scope.fragment

/-- The variables used within an operation. -/
def usedVariables (q : Inquiry) (position : Nat) : List String :=
  let scopes := q.extent position
  (q.argumentSites.filter fun s => scopes.contains s.scope).flatMap fun s =>
    s.arguments.flatMap fun (_, literal) => literal.variableNames

end Inquiry

end RecordGraph
