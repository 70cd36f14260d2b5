import RecordGraph.Wire.Model
/-!
Types as requests see them: which fields may be asked for, which arguments they take, and which wire
values a leaf accepts. The types of a model stand here next to the scalars that every schema has and
the types in which a schema describes itself.
-/

namespace RecordGraph

/-- An argument, or a field of an input object. -/
structure InputDefinition where
  name : String
  type : TypeRef
  description : Option String := none
  default : Option WireValue := none

/-- A field of an object or interface. -/
structure FieldDefinition where
  name : String
  type : TypeRef
  description : Option String := none
  arguments : List InputDefinition := []

/-- A type. -/
inductive TypeDefinition where
  | scalar (name : String) (description : Option String) (accepts : WireValue → Bool)
  | enum (name : String) (description : Option String) (members : List String)
  | object (name : String) (description : Option String) (fields : List FieldDefinition)
      (interfaces : List String)
  /-- An interface, with the names of the objects that implement it. -/
  | interface (name : String) (description : Option String) (fields : List FieldDefinition)
      (possible : List String)
  | inputObject (name : String) (description : Option String) (fields : List InputDefinition)

namespace InputDefinition

/-- Whether a value has to be given. -/
def isRequired (i : InputDefinition) : Bool := i.type.isNonNull && i.default.isNone

end InputDefinition

namespace TypeDefinition

/-- The name of a type. -/
def name : TypeDefinition → String
  | .scalar name _ _ | .enum name _ _ | .object name _ _ _ | .interface name _ _ _
  | .inputObject name _ _ => name

/-- The description of a type. -/
def description : TypeDefinition → Option String
  | .scalar _ text _ | .enum _ text _ | .object _ text _ _ | .interface _ text _ _
  | .inputObject _ text _ => text

/-- The fields that may be asked for. -/
def fields : TypeDefinition → List FieldDefinition
  | .object _ _ fields _ | .interface _ _ fields _ => fields
  | _ => []

/-- The fields that may be given. -/
def inputFields : TypeDefinition → List InputDefinition
  | .inputObject _ _ fields => fields
  | _ => []

/-- The field with a name. -/
def field? (t : TypeDefinition) (name : String) : Option FieldDefinition :=
  t.fields.find? fun f => f.name == name

/-- Whether values of a type have no fields. -/
def isLeaf : TypeDefinition → Bool
  | .scalar .. | .enum .. => true
  | _ => false

/-- Whether fields of values of a type may be asked for. -/
def isComposite : TypeDefinition → Bool
  | .object .. | .interface .. => true
  | _ => false

/-- Whether values of a type may be given. -/
def isInput : TypeDefinition → Bool
  | .scalar .. | .enum .. | .inputObject .. => true
  | _ => false

/-- The names of the objects that may stand behind a type. -/
def objects : TypeDefinition → List String
  | .object name _ _ _ => [name]
  | .interface _ _ _ possible => possible
  | _ => []

/-- Whether some object belongs to both types. -/
def overlaps (a b : TypeDefinition) : Bool :=
  a.name == b.name || a.objects.any fun name => b.objects.contains name

end TypeDefinition

end RecordGraph
