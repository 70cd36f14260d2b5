import RecordGraph.Reach
import RecordGraph.Schema.Table
/-!
The types that a schema shows of itself: those that its roots and directives lead to, interfaces
that their objects implement, and the types that every schema has.
-/

namespace RecordGraph

namespace TypeDefinition

/-- The names of the types that a type leads to. -/
def references (t : TypeDefinition) : List String :=
  (t.fields.flatMap fun f => f.type.base :: f.arguments.map fun a => a.type.base) ++
    (t.inputFields.map fun f => f.type.base) ++
    match t with
    | .interface _ _ _ possible => possible
    | _ => []

/-- Whether a name is reserved for descriptions of the schema. -/
def isReserved (name : String) : Bool := name.startsWith "__"

/-- Whether every schema has the type with a name. -/
def isCommon (name : String) : Bool :=
  isReserved name || SelfDescription.scalars.any fun t => t.name == name

end TypeDefinition

namespace TypeTable

/-- The names that a name leads to. -/
def next (t : TypeTable) (name : String) : List String :=
  ((t.type? name).map TypeDefinition.references).getD []

/-- The names of all types, each once. -/
def names (t : TypeTable) : List String := (t.types.map TypeDefinition.name).eraseDups

/-- The names of the roots. -/
def roots (t : TypeTable) : List String :=
  t.query :: (t.mutation.toList ++ t.subscription.toList)

/-- The types of the arguments of directives. -/
def directiveTypes : List String :=
  SelfDescription.directives.flatMap fun d => d.arguments.map fun a => a.type.base

/-- The names of the types that roots and directives lead to. -/
def rooted (t : TypeTable) : List String := reachable t.next t.names (directiveTypes ++ t.roots)

/-- The names of the interfaces that some object among given names implements. -/
def interfacesAmong (t : TypeTable) (names : List String) : List String :=
  t.types.filterMap fun
    | .interface name _ _ possible => if possible.any names.contains then some name else none
    | _ => none

/-- The names of the types that are shown. -/
def visible (t : TypeTable) : List String :=
  let rooted := t.rooted
  let reached := reachable t.next t.names (rooted ++ t.interfacesAmong rooted)
  t.names.filter fun name => TypeDefinition.isCommon name || reached.contains name

end TypeTable

end RecordGraph
