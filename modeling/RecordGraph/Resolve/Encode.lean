import RecordGraph.Wire.Model
/-!
Encoding host values for their declared type. Leaves are written by their codec; a value of an
object type is passed on as it is, to become the parent of the fields selected below it.
-/

namespace RecordGraph

/-- A host value encoded for its declared type. -/
inductive Output where
  | null
  /-- A scalar or an enum member. -/
  | value (value : WireValue)
  /-- The parent of the fields below. The name of its concrete type is given when the declared type
  is an interface. -/
  | object (typeName : Option String) (value : Value)
  | list (items : List Output)

instance : Inhabited Output := ⟨.null⟩

namespace Model

/-- The object type behind a value of an interface type: the value names it, and it must implement
the interface. -/
def concreteType (m : Model) (interface : String) (value : Value) : Except FieldError String :=
  match value.typeName? with
  | none => .error (.abstractType interface)
  | some name =>
    match m.type? name with
    | some (.object type) =>
      if type.interfaces.contains interface then .ok name
      else .error (.abstractType (interface ++ " (found `" ++ name ++ "`)"))
    | _ => .error (.abstractType (interface ++ " (found `" ++ name ++ "`)"))

/-- Encodes a value of a named type. -/
def encodeNamed (m : Model) (name : String) (value : Value) : Except FieldError Output :=
  match m.type? name with
  | some (.scalar type) => ((type.codec.serialize value).mapError FieldError.codec).map .value
  | some (.enum type) => ((type.serialize value).mapError FieldError.codec).map .value
  | some (.object _) => .ok (.object none value)
  | some (.interface type) =>
    (m.concreteType type.name value).map fun concrete => .object (some concrete) value
  | some (.inputObject _) | none => .error (.unrepresentable name)

/-- Encodes a value of a type. Null is encoded for every type; whether it may stand there is left to
the execution. -/
def encode (m : Model) : TypeRef → Value → Except FieldError Output
  | .nonNull inner, value => m.encode inner value
  | _, .null => .ok .null
  | .list inner, .list items => (items.mapM (m.encode inner)).map .list
  | .list inner, _ => .error (.expectedList (TypeRef.list inner).text)
  | .named name, value => m.encodeNamed name value

end Model

end RecordGraph
