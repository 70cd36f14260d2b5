import RecordGraph.Registry
import RecordGraph.Casing
import RecordGraph.Host.Descriptor
import RecordGraph.Wire.TypeRef
/-!
The model of a schema: its wire types, which refer to each other by name only, and its roots. Fields
and arguments keep the host name they were made from, because wire names cannot always be turned
back.
-/

namespace RecordGraph

/-- An argument of a wire field. -/
structure WireArgument where
  name : String
  hostName : String
  description : Option String := none
  type : TypeRef
  default : Option WireValue := none

/-- Marks a field of a connection type: the name of its element type, and its resolver. -/
structure ConnectionBinding where
  elementType : String
  resolver : Option ConnectionResolver

/-- A field of an object or interface. -/
structure WireField where
  name : String
  hostName : String
  description : Option String := none
  type : TypeRef
  arguments : List WireArgument := []
  connection : Option ConnectionBinding := none

/-- A field of an input object. -/
structure InputField where
  name : String
  hostName : String
  description : Option String := none
  type : TypeRef
  default : Option WireValue := none

/-- A type whose fields clients may ask for. -/
structure ObjectType where
  name : String
  description : Option String := none
  fields : List WireField := []
  interfaces : List String := []

/-- Fields that several object types share. -/
structure InterfaceType where
  name : String
  description : Option String := none
  fields : List WireField := []

/-- A type whose fields clients may give. Without a loader its values are mappings. -/
structure InputObjectType where
  name : String
  description : Option String := none
  fields : List InputField := []
  loader : Option Loader := none

/-- A type of the wire. -/
inductive WireType where
  | scalar (type : ScalarType)
  | enum (type : EnumType)
  | object (type : ObjectType)
  | interface (type : InterfaceType)
  | inputObject (type : InputObjectType)

namespace WireType

/-- The name of a type on the wire. -/
def name : WireType → String
  | .scalar t => t.wireName
  | .enum t => t.name
  | .object t => t.name
  | .interface t => t.name
  | .inputObject t => t.name

/-- A word for the kind of a type. -/
def kind : WireType → String
  | .scalar _ => "scalar"
  | .enum _ => "enum"
  | .object _ => "object"
  | .interface _ => "interface"
  | .inputObject _ => "input object"

/-- The output fields of an object or interface. -/
def fields? : WireType → Option (List WireField)
  | .object t => some t.fields
  | .interface t => some t.fields
  | _ => none

end WireType

/-- A field whose wire name is its host name. -/
def WireField.plain (name : String) (type : TypeRef) : WireField :=
  { name := name, hostName := name, type := type }

/-- The argument of a field with a wire name. -/
def WireField.argument? (field : WireField) (name : String) : Option WireArgument :=
  field.arguments.find? fun argument => argument.name == name

/-- The complete result of building a schema. -/
structure Model where
  types : Registry WireType
  query : String
  mutation : Option String
  subscription : Option String
  casing : Casing

namespace Model

/-- The type with a name. -/
def type? (m : Model) (name : String) : Option WireType := m.types.get? name

/-- The field with a wire name of an object or interface. -/
def field? (m : Model) (type field : String) : Option WireField := do
  let type ← m.type? type
  let fields ← type.fields?
  fields.find? fun f => f.name == field

end Model

end RecordGraph
