import RecordGraph.OperationKind
import RecordGraph.Schema.SelfDescription
/-!
The table of all types of a schema, against which requests are checked. A scalar of the model that
shares its name with one of every schema comes first.
-/

namespace RecordGraph

/-- All types of a schema by name, and its roots. -/
structure TypeTable where
  types : List TypeDefinition
  query : String
  mutation : Option String := none
  subscription : Option String := none

namespace WireArgument

/-- An argument as requests see it. -/
def definition (a : WireArgument) : InputDefinition := ⟨a.name, a.type, a.description, a.default⟩

end WireArgument

namespace InputField

/-- An input field as requests see it. -/
def definition (f : InputField) : InputDefinition := ⟨f.name, f.type, f.description, f.default⟩

end InputField

namespace WireField

/-- A field as requests see it. -/
def definition (f : WireField) : FieldDefinition :=
  ⟨f.name, f.type, f.description, f.arguments.map WireArgument.definition⟩

end WireField

namespace Model

/-- The objects of a model, in order. -/
def objects (m : Model) : List ObjectType :=
  m.types.values.filterMap fun
    | .object type => some type
    | _ => none

/-- Whether an object is the subscription root, whose fields are streams. -/
def isSubscription (m : Model) (type : ObjectType) : Bool := m.subscription == some type.name

/-- The names of the objects that implement an interface. -/
def implementing (m : Model) (interface : String) : List String :=
  (m.objects.filter fun type => !m.isSubscription type && type.interfaces.contains interface).map
    ObjectType.name

/-- The interfaces that requests see at an object. -/
def interfacesOf (m : Model) (type : ObjectType) : List String :=
  if m.isSubscription type then [] else type.interfaces.eraseDups

/-- A type of a model as requests see it. The scalars of every schema are not repeated. -/
def definition? (m : Model) : WireType → Option TypeDefinition
  | .scalar type =>
    if type.builtin then none
    else some (.scalar type.wireName type.description fun w => w.isNull || type.codec.accepts w)
  | .enum type => some (.enum type.name type.description type.members.eraseDups)
  | .object type =>
    some (.object type.name type.description (type.fields.map WireField.definition)
      (m.interfacesOf type))
  | .interface type =>
    some (.interface type.name type.description (type.fields.map WireField.definition)
      (m.implementing type.name))
  | .inputObject type =>
    some (.inputObject type.name type.description (type.fields.map InputField.definition))

/-- The types of a model as requests see them, in order. -/
def definitions (m : Model) : List TypeDefinition := m.types.values.filterMap m.definition?

end Model

namespace TypeTable

/-- Adds the fields that describe the schema to the query root. -/
def describeRoot (query : String) : TypeDefinition → TypeDefinition
  | .object name description fields interfaces =>
    .object name description
      (if name = query then fields ++ SelfDescription.rootFields else fields) interfaces
  | type => type

/-- The table of a model, with or without the types that describe it. -/
def ofModel (m : Model) (introspection : Bool) : TypeTable :=
  let types := m.definitions ++ SelfDescription.scalars
  { types :=
      if introspection then types.map (describeRoot m.query) ++ SelfDescription.types else types
    query := m.query, mutation := m.mutation, subscription := m.subscription }

/-- The type with a name. -/
def type? (t : TypeTable) (name : String) : Option TypeDefinition :=
  t.types.find? fun type => type.name == name

/-- The type at the core of a reference. -/
def core? (t : TypeTable) (type : TypeRef) : Option TypeDefinition := t.type? type.base

/-- The name of the root type of an operation. -/
def root? (t : TypeTable) : OperationKind → Option String
  | .query => some t.query
  | .mutation => t.mutation
  | .subscription => t.subscription

end TypeTable

end RecordGraph
