import RecordGraph.Execute.Response
import RecordGraph.Schema.Visible
/-!
How a schema answers questions about itself. Everything that can be asked about has
facets, which are values, or lead to other things that are described.
-/

namespace RecordGraph

/-- Something that a schema describes. -/
inductive Described where
  | schema
  | type (type : TypeRef)
  | field (definition : FieldDefinition)
  | input (definition : InputDefinition)
  | member (name : String)
  | directive (definition : DirectiveDefinition)

/-- What is found under a name at something described. -/
inductive Facet where
  | value (value : WireValue)
  | one (thing : Option Described)
  | many (things : Option (List Described))

/-- The view of a schema on itself. -/
structure SelfView where
  table : TypeTable
  /-- The names of the types that are shown. -/
  visible : List String

namespace Facet

/-- A text, or null. -/
def text (text : Option String) : Facet :=
  .value ((text.map WireValue.string).getD .null)

/-- A truth value. -/
def truth (b : Bool) : Facet := .value (.bool b)

end Facet

namespace TypeDefinition

/-- The name of the kind of a type. -/
def kindName : TypeDefinition → String
  | .scalar .. => "SCALAR"
  | .enum .. => "ENUM"
  | .object .. => "OBJECT"
  | .interface .. => "INTERFACE"
  | .inputObject .. => "INPUT_OBJECT"

end TypeDefinition

namespace Described

/-- The name of the type in which something is described. -/
def typeName : Described → String
  | .schema => "__Schema"
  | .type _ => "__Type"
  | .field _ => "__Field"
  | .input _ => "__InputValue"
  | .member _ => "__EnumValue"
  | .directive _ => "__Directive"

/-- The description of a type by name. -/
def named (name : String) : Described := .type (.named name)

/-- Nothing that a schema describes is on its way out. -/
def notDeprecated : String → Facet
  | "isDeprecated" => .truth false
  | _ => .text none

/-- The facets of a field. -/
def ofField (f : FieldDefinition) : String → Facet
  | "name" => .text (some f.name)
  | "description" => .text f.description
  | "args" => .many (some (f.arguments.map .input))
  | "type" => .one (some (.type f.type))
  | other => notDeprecated other

/-- The facets of an argument or an input field. -/
def ofInput (i : InputDefinition) : String → Facet
  | "name" => .text (some i.name)
  | "description" => .text i.description
  | "type" => .one (some (.type i.type))
  | "defaultValue" => .text (i.default.map WireValue.text)
  | other => notDeprecated other

/-- The facets of a member of an enum. -/
def ofMember (name : String) : String → Facet
  | "name" => .text (some name)
  | other => notDeprecated other

/-- The facets of a directive. -/
def ofDirective (d : DirectiveDefinition) : String → Facet
  | "name" => .text (some d.name)
  | "description" => .text d.description
  | "locations" => .value (.list (d.locations.map fun l => .member l.text))
  | "args" => .many (some (d.arguments.map .input))
  | _ => .truth false

/-- The facets of a type around another one. -/
def ofWrapper (kind : String) (inner : TypeRef) : String → Facet
  | "kind" => .value (.member kind)
  | "ofType" => .one (some (.type inner))
  | _ => .text none

end Described

namespace SelfView

/-- The view of a schema with given types. -/
def ofTable (t : TypeTable) : SelfView := ⟨t, t.visible⟩

/-- Those of some types that are shown. -/
def shown (v : SelfView) (names : List String) : List Described :=
  (names.filter v.visible.contains).map Described.named

/-- The facets of a type with a definition. -/
def ofDefinition (v : SelfView) (t : TypeDefinition) : String → Facet
  | "kind" => .value (.member t.kindName)
  | "name" => .text (some t.name)
  | "description" => .text t.description
  | "fields" =>
    .many (if t.isComposite then
      some ((t.fields.filter fun f => !TypeDefinition.isReserved f.name).map .field) else none)
  | "interfaces" =>
    match t with
    | .object _ _ _ interfaces => .many (some (v.shown interfaces))
    | _ => .many none
  | "possibleTypes" =>
    match t with
    | .interface _ _ _ possible => .many (some (v.shown possible))
    | _ => .many none
  | "enumValues" =>
    match t with
    | .enum _ _ members => .many (some (members.map .member))
    | _ => .many none
  | "inputFields" =>
    match t with
    | .inputObject _ _ fields => .many (some (fields.map .input))
    | _ => .many none
  | "isOneOf" =>
    match t with
    | .inputObject .. => .truth false
    | _ => .text none
  | _ => .text none

/-- The facets of a type. -/
def ofType (v : SelfView) : TypeRef → String → Facet
  | .nonNull inner => Described.ofWrapper "NON_NULL" inner
  | .list element => Described.ofWrapper "LIST" element
  | .named name =>
    match v.table.type? name with
    | some t => v.ofDefinition t
    | none => fun _ => .text none

/-- Names in ascending order. -/
def sorted (names : List String) : List String := names.mergeSort fun a b => a ≤ b

/-- The directives of every schema by name. -/
def directives : List DirectiveDefinition :=
  SelfDescription.directives.mergeSort fun a b => a.name ≤ b.name

/-- The facets of the schema itself. -/
def ofSchema (v : SelfView) : String → Facet
  | "description" => .text (some "TODO")
  | "types" => .many (some ((sorted v.visible).map Described.named))
  | "queryType" => .one (some (.named v.table.query))
  | "mutationType" => .one (v.table.mutation.map Described.named)
  | "subscriptionType" => .one (v.table.subscription.map Described.named)
  | "directives" => .many (some (directives.map .directive))
  | _ => .text none

/-- What is found under a name at something described. -/
def facet (v : SelfView) (thing : Described) (name : String) : Facet :=
  if name = typeNameField then .text (some thing.typeName)
  else
    match thing with
    | .schema => v.ofSchema name
    | .type type => v.ofType type name
    | .field f => Described.ofField f name
    | .input i => Described.ofInput i name
    | .member m => Described.ofMember m name
    | .directive d => Described.ofDirective d name

/-- The type with a name, if it is shown. -/
def type? (v : SelfView) (name : String) : Option Described :=
  if v.visible.contains name then some (.named name) else none

end SelfView

namespace Facet

/-- The value of a facet, with what is answered for the things it leads to. -/
def answer (below : Described → Except String WireValue) : Facet → Except String WireValue
  | .value w => .ok w
  | .one none | .many none => .ok .null
  | .one (some thing) => below thing
  | .many (some things) => (things.mapM below).map .list

end Facet

namespace Plan

mutual

/-- The fields that a plan asks of something described; else the variable that has no value. -/
def described (v : SelfView) (lookUp : String → Option WireValue) :
    Plan → Described → Except String (List (String × WireValue))
  | .field key name arguments below => fun thing => do
    let _ ← Literal.fieldValues lookUp arguments
    let value ← (v.facet thing name).answer fun inner =>
      (describedAll v lookUp below inner).map WireValue.ofFields
    return [(key, value)]
  | .group condition members => fun thing =>
    if condition.all fun name => name == thing.typeName then describedAll v lookUp members thing
    else .ok []

/-- The fields that plans ask of something described. -/
def describedAll (v : SelfView) (lookUp : String → Option WireValue) :
    List Plan → Described → Except String (List (String × WireValue))
  | [] => fun _ => .ok []
  | plan :: rest => fun thing => do
    let fields ← described v lookUp plan thing
    let others ← describedAll v lookUp rest thing
    return fields ++ others

end

end Plan

end RecordGraph
