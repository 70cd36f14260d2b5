import RecordGraph.Reach
import RecordGraph.Schema.Table
/-!
What a schema must satisfy before requests are answered: no reserved names, outputs and inputs in
their places, interfaces implemented, and no input object that can only be given with itself inside.
Objects are checked first, then input objects, then interfaces; the first fault counts.
-/

namespace RecordGraph

/-- Why a model is no valid schema. -/
inductive SchemaFault where
  /-- A field whose name is reserved for descriptions of the schema. -/
  | reservedField (type field : String)
  | reservedArgument (type field argument : String)
  /-- A field of a type that only input may have. -/
  | fieldOfInput (type field : String)
  /-- An argument of a type that only output may have. -/
  | argumentOfOutput (type field argument : String)
  | inputFieldOfOutput (type field : String)
  /-- A field of an interface that an object lacks. -/
  | missingField (type field interface : String)
  /-- A field whose type does not fit the one in the interface. -/
  | fieldMismatch (type field interface : String)
  | missingArgument (type field argument interface : String)
  | argumentMismatch (type field argument interface : String)
  /-- An input object that requires itself. -/
  | endlessInput (type : String)
  deriving DecidableEq, Repr

namespace SchemaFault

/-- A name path in quotes. -/
def quoted (parts : List String) : String := "\"" ++ ".".intercalate parts ++ "\""

/-- The complaint about a reserved name. -/
def reserved : String :=
  " must not have a name which begins with the characters \"__\" (two underscores)"

/-- The wording of a fault. -/
def message : SchemaFault → String
  | .reservedField type field => "Field " ++ quoted [type, field] ++ reserved
  | .reservedArgument type field argument =>
    "Argument " ++ quoted [type, field, argument] ++ reserved
  | .fieldOfInput type field => "Field " ++ quoted [type, field] ++ " must return a output type"
  | .argumentOfOutput type field argument =>
    "Argument " ++ quoted [type, field, argument] ++ " must accept a input type"
  | .inputFieldOfOutput type field =>
    "Field " ++ quoted [type, field] ++ " must accept a input type"
  | .missingField type field interface =>
    "Object " ++ quoted [type] ++ " requires field " ++ quoted [field] ++ " defined by interface " ++
      quoted [interface]
  | .fieldMismatch type field interface =>
    "Field " ++ quoted [type, field] ++ " is not sub-type of " ++ quoted [interface, field]
  | .missingArgument type field argument interface =>
    "Field " ++ quoted [type, field] ++ " requires argument " ++ quoted [argument] ++
      " defined by interface " ++ quoted [interface, field]
  | .argumentMismatch type field argument interface =>
    "Argument " ++ quoted [interface, field, argument] ++ " is not sub-type of " ++
      quoted [type, field, argument]
  | .endlessInput type =>
    quoted [type] ++ " references itself either directly or through referenced Input Objects, at " ++
      "least one of the fields in the chain of references must be either a nullable or a List type."

end SchemaFault

/-- Whether every value of the second type, null aside, may stand for one of the first: the second
may have more non-null marks. -/
def TypeRef.covers : TypeRef → TypeRef → Bool
  | .nonNull a, .nonNull b => a.covers b
  | a, .nonNull b => a.covers b
  | .named a, .named b => a == b
  | .list a, .list b => a.covers b
  | _, _ => false

/-- The name of a type that must be there and is no list. -/
def TypeRef.required? : TypeRef → Option String
  | .nonNull (.named name) => some name
  | .nonNull (.nonNull inner) => TypeRef.required? (.nonNull inner)
  | _ => none

namespace Model

/-- Names that start with two underscores are reserved. -/
def isReserved (name : String) : Bool := "__".toList.isPrefixOf name.toList

/-- A check that reports a fault unless its condition holds. -/
def expect (holds : Bool) (fault : SchemaFault) : Except SchemaFault Unit :=
  if holds then .ok () else .error fault

/-- Whether values of a type by name may be asked for. The subscription root has none. -/
def isOutputName (m : Model) (name : String) : Bool :=
  match m.type? name with
  | some (.inputObject _) => false
  | some (.object type) => !m.isSubscription type
  | _ => true

/-- Whether values of a type by name may be given. -/
def isInputName (m : Model) (name : String) : Bool :=
  match m.type? name with
  | some (.object _) | some (.interface _) => false
  | _ => true

/-- Checks the fields of an object or interface. -/
def checkFields (m : Model) (type : String) (fields : List WireField) : Except SchemaFault Unit :=
  fields.forM fun f => do
    expect (!isReserved f.name) (.reservedField type f.name)
    expect (m.isOutputName f.type.base) (.fieldOfInput type f.name)
    f.arguments.forM fun a => do
      expect (!isReserved a.name) (.reservedArgument type f.name a.name)
      expect (m.isInputName a.type.base) (.argumentOfOutput type f.name a.name)

/-- Checks an argument that an interface gives a field. -/
def checkArgument (type interface : String) (f : WireField) (a : WireArgument) :
    Except SchemaFault Unit :=
  match f.argument? a.name with
  | none => expect (!a.type.isNonNull) (.missingArgument type f.name a.name interface)
  | some own => expect (a.type.covers own.type) (.argumentMismatch type f.name a.name interface)

/-- Checks that an object has what an interface asks for. -/
def checkImplementation (type : ObjectType) (interface : InterfaceType) : Except SchemaFault Unit :=
  interface.fields.forM fun f => do
    match type.fields.find? fun own => own.name == f.name with
    | none => throw (.missingField type.name f.name interface.name)
    | some own => do
      f.arguments.forM (checkArgument type.name interface.name own)
      expect (own.type.covers f.type) (.fieldMismatch type.name f.name interface.name)

/-- Checks an object; the subscription root is not held to any of this. -/
def checkObject (m : Model) (type : ObjectType) : Except SchemaFault Unit :=
  if m.isSubscription type then .ok ()
  else do
    m.checkFields type.name type.fields
    type.interfaces.eraseDups.forM fun name =>
      match m.type? name with
      | some (.interface interface) => checkImplementation type interface
      | _ => .ok ()

/-- The input objects that an input object cannot do without. -/
def requiredInputs (m : Model) (name : String) : List String :=
  match m.type? name with
  | some (.inputObject type) => type.fields.filterMap fun f => f.type.required?
  | _ => []

/-- Whether an input object requires itself, at any remove. -/
def isEndless (m : Model) (name : String) : Bool :=
  (reachable m.requiredInputs m.types.names (m.requiredInputs name)).contains name

/-- Checks an input object. -/
def checkInput (m : Model) (type : InputObjectType) : Except SchemaFault Unit := do
  type.fields.forM fun f => do
    expect (!isReserved f.name) (.reservedField type.name f.name)
    expect (m.isInputName f.type.base) (.inputFieldOfOutput type.name f.name)
  expect (!m.isEndless type.name) (.endlessInput type.name)

/-- Checks a model. -/
def check (m : Model) : Except SchemaFault Unit := do
  m.types.values.forM fun
    | .object type => m.checkObject type
    | _ => .ok ()
  m.types.values.forM fun
    | .inputObject type => m.checkInput type
    | _ => .ok ()
  m.types.values.forM fun
    | .interface type => m.checkFields type.name type.fields
    | _ => .ok ()

end Model

end RecordGraph
