import RecordGraph.Fault
import RecordGraph.Scalar.Codec
import RecordGraph.Scalar.Enum
/-!
Descriptions of host types. Records, enums and connection kinds stand in a catalogue under keys, and
field types refer to them by key, so that records may refer to each other and to themselves.
-/

namespace RecordGraph

/-- The type of a field or argument, in terms of the host. -/
inductive HostType where
  /-- A scalar by its host name. -/
  | scalar (hostName : String)
  /-- An enum by its key. -/
  | enum (key : String)
  | list (element : HostType)
  | optional (inner : HostType)
  /-- A record by its key. -/
  | record (key : String)
  /-- Pages of elements, by the key of the connection kind. -/
  | connection (kind : String) (element : HostType)
  /-- A type that is registered separately, by its name. -/
  | named (name : String)
  deriving DecidableEq, Repr, Inhabited

/-- An argument of a field. -/
structure Argument where
  name : String
  type : HostType
  description : Option String := none
  required : Bool := false
  /-- Arguments made of records must be declared as inputs. -/
  isInput : Bool := false
  default : Option Value := none

/-- A field of a record. -/
structure Field where
  /-- The host name, from which the wire name derives unless there is an alias. -/
  name : String
  type : HostType
  aliasName : Option String := none
  description : Option String := none
  default : Option Value := none
  /-- Left out of the input form of the record. -/
  readOnly : Bool := false
  /-- Left out of the output form of the record. -/
  inputOnly : Bool := false
  skip : Bool := false
  arguments : List Argument := []

/-- Builds the host value of an input from its decoded fields. -/
abbrev Loader := List (String × Value) → Except FieldError Value

/-- A record of the host. -/
structure Record where
  name : String
  description : Option String := none
  fields : List Field := []
  /-- The names of the interfaces that the record implements. -/
  interfaces : List String := []
  /-- Without a loader, input values of the record stay mappings. -/
  loader : Option Loader := none

/-- How a field of a connection type is answered. -/
inductive ConnectionResolver where
  /-- Counts the elements that the handler of the field gives, and cuts the page asked for. -/
  | page
  /-- A mapping of everything the resolver was told. -/
  | describe
  | handler (handler : Handler)

/-- A family of connection types that share extra fields and a resolver. -/
structure ConnectionKind where
  description : Option String := none
  /-- Fields of the generated connection type besides edges and page information. -/
  fields : List Field := []
  resolver : Option ConnectionResolver := none

/-- The described types of a host, by key. -/
structure Catalogue where
  records : Entries Record := []
  enums : Entries EnumType := []
  connections : Entries ConnectionKind := []

namespace HostType

/-- Whether a value may be absent. Only the outermost layer counts. -/
def isOptional : HostType → Bool
  | .optional _ => true
  | _ => false

/-- The type without the optional layers around it. -/
def stripOptional : HostType → HostType
  | .optional inner => stripOptional inner
  | type => type

/-- How many layers a type has. -/
def depth : HostType → Nat
  | .list element => element.depth + 1
  | .optional inner => inner.depth + 1
  | .connection _ element => element.depth + 1
  | _ => 1

/-- The name of a type for messages. Lists and optionals show as what they are, not as what they
hold. -/
def name (catalogue : Catalogue) : HostType → String
  | .scalar name | .named name => name
  | .enum key => ((Entries.get? catalogue.enums key).map EnumType.name).getD key
  | .record key => ((Entries.get? catalogue.records key).map Record.name).getD key
  | .connection _ element => element.name catalogue ++ "Connection"
  | .list _ => "List"
  | .optional _ => "Optional"

/-- The name of a type with its lists and optionals spelled out. -/
def text (catalogue : Catalogue) : HostType → String
  | .list element => "List(" ++ element.text catalogue ++ ")"
  | .optional inner => "Optional(" ++ inner.text catalogue ++ ")"
  | type => type.name catalogue

end HostType

namespace Field

/-- A field without a default whose type is not optional must always be present. -/
def isRequired (f : Field) : Bool := f.default.isNone && !f.type.isOptional

/-- Skipped fields and fields whose name starts with an underscore appear nowhere. -/
def isHidden (f : Field) : Bool := f.skip || f.name.toList.head? == some '_'

/-- The host name from which the wire name derives and under which the value is looked up. -/
def sourceName (f : Field) : String := f.aliasName.getD f.name

/-- Whether the field belongs to the output form of its record. -/
def inOutput (f : Field) : Bool := !f.isHidden && !f.inputOnly

/-- Whether the field belongs to the input form of its record. -/
def inInput (f : Field) : Bool := !f.isHidden && !f.readOnly

end Field

end RecordGraph
