import RecordGraph.Wire.Model
/-!
The state of one build and what its steps have in common. A step may register types before it fails,
and later steps see what it left.
-/

namespace RecordGraph

/-- Why a schema cannot be built. -/
inductive ModelError where
  /-- A host type without counterpart on the wire. -/
  | unmappableType (name : String)
  /-- A type without fields or members. -/
  | emptyType (name : String)
  /-- Connections need records with a required identifier as elements. -/
  | connectionElement (name : String)
  /-- A connection type where an input is wanted. -/
  | connectionInput (name : String)
  /-- An argument made of a record that is not declared as an input. -/
  | argumentShape (field argument type : String)
  /-- A name that belongs to a type of another kind. -/
  | nameConflict (name : String)
  /-- A connection type defined by two kinds with different extra fields. -/
  | connectionKindConflict (name : String)
  /-- Two fields of one type share a wire name. -/
  | duplicateField (field type : String)
  /-- A default without a form on the wire. -/
  | invalidDefault (name : String) (cause : FieldError)
  /-- The walk over host types was not given enough steps. -/
  | outOfSteps
  deriving DecidableEq, Repr

/-- The wording of a model error. -/
def ModelError.message : ModelError → String
  | .unmappableType name => "Cannot map host type `" ++ name ++ "` to a wire type"
  | .emptyType name => "Type `" ++ name ++ "` must define one or more fields"
  | .connectionElement name =>
    "Connection element `" ++ name ++ "` must be a record type with a required `id: ID` field"
  | .connectionInput name => "Connection type `" ++ name ++ "` cannot be used as an input"
  | .argumentShape field argument type =>
    "Argument `" ++ argument ++ "` of field `" ++ field ++ "` uses record type `" ++ type ++
      "` but is not declared as an input argument"
  | .nameConflict name => "Type name `" ++ name ++ "` is already registered with a different kind"
  | .connectionKindConflict name =>
    "Connection type `" ++ name ++ "` is already defined by a connection kind with other fields"
  | .duplicateField field type =>
    "Field `" ++ field ++ "` is defined more than once on `" ++ type ++ "`"
  | .invalidDefault name cause =>
    "Invalid default value for `" ++ name ++ "`: " ++ cause.message
  | .outOfSteps => "The walk over host types ran out of steps"

/-- What a build starts from besides its root records. -/
structure BuildOptions where
  camelCase : Bool := true
  /-- Scalars added to the default ones; one with a known host name takes its place. -/
  scalars : List ScalarType := []
  /-- Enums registered even when no field refers to them. -/
  enums : List EnumType := []
  /-- Interface types, which records implement by name. -/
  interfaces : List Record := []
  /-- Object types registered even when no field refers to them. -/
  queryTypes : List Record := []
  /-- Input types registered even when no argument refers to them. -/
  mutationTypes : List Record := []

/-- What stays fixed during a build. -/
structure Setting where
  catalogue : Catalogue
  options : BuildOptions

namespace Setting

/-- The naming policy. -/
def casing (s : Setting) : Casing := .ofSwitch s.options.camelCase

/-- The wire name of a host name. -/
def wireName (s : Setting) (name : String) : String := s.casing.toWire name

/-- The last of the scalars with a host name. -/
def scalar? (s : Setting) (hostName : String) : Option ScalarType :=
  (defaultScalars ++ s.options.scalars).reverse.find? fun t => t.hostName == hostName

/-- The last of the interfaces with a name. -/
def interface? (s : Setting) (name : String) : Option Record :=
  s.options.interfaces.reverse.find? fun r => r.name == name

/-- The last of the records with a name that references by name may mean. -/
def record? (s : Setting) (name : String) : Option Record :=
  (s.options.queryTypes ++ s.options.mutationTypes).reverse.find? fun r => r.name == name

/-- A field named by the policy. -/
def field (s : Setting) (hostName : String) (type : TypeRef) : WireField :=
  { name := s.wireName hostName, hostName := hostName, type := type }

end Setting

/-- The types registered so far, and for each connection type the names of the extra fields of the
kind that defined it. -/
structure Draft where
  types : Registry WireType := .empty
  connectionFields : Entries (List String) := []

instance : Inhabited Draft := ⟨{}⟩

/-- A step of a build. Its effects stay when it fails. -/
abbrev Build (α : Type) := ExceptT ModelError (StateM Draft) α

namespace Build

/-- The registered type with a name. -/
def type? (name : String) : Build (Option WireType) := do
  return (← get).types.get? name

/-- Registers a type under its name, unless the name is taken. -/
def add (type : WireType) : Build Unit :=
  modify fun d => { d with types := (d.types.add type.name type).1 }

/-- Completes a registered type. A type of another kind that holds the name stays as it is. -/
def replace (type : WireType) : Build Unit :=
  modify fun d =>
    if (d.types.get? type.name).map WireType.kind = some type.kind then
      { d with types := d.types.set type.name type }
    else d

/-- Registers a type; one of the same kind may have its name already. -/
def addUnlessPresent (type : WireType) : Build Unit := do
  match ← type? type.name with
  | some existing => if existing.kind = type.kind then return () else throw (.nameConflict type.name)
  | none => add type

/-- Registers a scalar by its host name. The first scalar of a wire name stays. -/
def scalar (s : Setting) (hostName : String) : Build TypeRef := do
  match s.scalar? hostName with
  | none => throw (.unmappableType hostName)
  | some type =>
    match ← type? type.wireName with
    | some (.scalar _) => return .named type.wireName
    | some _ => throw (.nameConflict type.wireName)
    | none =>
      add (.scalar type)
      return .named type.wireName

/-- Registers an enum. The first enum of a name stays. -/
def enum (type : EnumType) : Build TypeRef := do
  match ← type? type.name with
  | some (.enum _) => return .named type.name
  | some _ => throw (.nameConflict type.name)
  | none =>
    if type.members = [] then throw (.emptyType type.name)
    add (.enum type)
    return .named type.name

end Build

end RecordGraph
