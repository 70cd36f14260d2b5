import RecordGraph.Casing
import RecordGraph.Value.Wire
import RecordGraph.Client.Description
/-!
Values of the host as literals of the declared input types. Names inside input objects follow the
naming policy, members of enums are written bare, and a single value given for a list becomes a list
of one.
-/

namespace RecordGraph.Client

/-- A value that is not what the declared type expects. -/
def invalidValue (name expected : String) (value : Json) : Except ClientError α :=
  .error (.invalidValue name expected value.compact)

/-- A member of an enum. -/
def memberLiteral (type : TypeDescription) (name : String) (value : Json) :
    Except ClientError WireValue :=
  let expected := "a member of enum `" ++ type.name ++ "`"
  match value with
  | .string member =>
    if (type.members.getD []).contains member then .ok (.member member)
    else invalidValue name expected value
  | _ => invalidValue name expected value

/-- A value of a type that is no wrapper; `object` writes values of input objects. -/
def namedLiteral (d : Description) (name : String) (value : Json)
    (object : TypeDescription → Except ClientError WireValue) (typeName : Option String) :
    Except ClientError WireValue := do
  let type ← d.type (typeName.getD "")
  match type.kind with
  | .enum => memberLiteral type name value
  | .inputObject => object type
  | .scalar => return .ofJson value
  | _ => invalidValue name "an input type" value

/-- A wrapper that says not what it is around. -/
def hollow (name : String) : Except ClientError α := invalidValue name "a wrapped type" .null

/-- Looks through the wrappers of a type. A list type leaves an array to `items`, which is told the
type of its items; what is no array becomes a list of one. What is left is for `named`. -/
def wrapperLiteral (name : String) (value : Json)
    (items : Option (Option TypeShape → Except ClientError (List WireValue)))
    (named : Option String → Except ClientError WireValue) :
    TypeShape → Except ClientError WireValue
  | .mk .nonNull _ none => hollow name
  | .mk .nonNull _ (some inner) => wrapperLiteral name value items named inner
  | .mk kind typeName inner =>
    if value.isNull then .ok .null
    else if kind = .list then
      match items, inner with
      | some items, inner => (items inner).map .list
      | none, some inner => (wrapperLiteral name value items named inner).map fun one => .list [one]
      | none, none => hollow name
    else named typeName

/-- The expectation of an object. -/
def noObject (name : String) (value : Json) (type : TypeDescription) :
    Except ClientError WireValue :=
  invalidValue name ("an object for `" ++ type.name ++ "`") value

mutual

/-- The literal of a value, for the argument or input field `name` of the given type. -/
def literal (d : Description) (c : Casing) (name : String) :
    Json → TypeShape → Except ClientError WireValue
  | .array items =>
    wrapperLiteral name (.array items) (some fun type => itemLiterals d c name type items)
      (namedLiteral d name (.array items) (noObject name (.array items)))
  | .object members =>
    wrapperLiteral name (.object members) none
      (namedLiteral d name (.object members) fun type =>
        (fieldLiterals d c type [] members).map .object)
  | .null => wrapperLiteral name .null none (namedLiteral d name .null (noObject name .null))
  | .bool b =>
    wrapperLiteral name (.bool b) none (namedLiteral d name (.bool b) (noObject name (.bool b)))
  | .number n =>
    wrapperLiteral name (.number n) none
      (namedLiteral d name (.number n) (noObject name (.number n)))
  | .string s =>
    wrapperLiteral name (.string s) none
      (namedLiteral d name (.string s) (noObject name (.string s)))

/-- The literals of the items of an array. -/
def itemLiterals (d : Description) (c : Casing) (name : String) (type : Option TypeShape) :
    List Json → Except ClientError (List WireValue)
  | [] => .ok []
  | item :: rest =>
    match type with
    | none => hollow name
    | some inner => do
      let item ← literal d c name item inner
      let rest ← itemLiterals d c name type rest
      return item :: rest

/-- The literals of the members of an object, added to those written so far. -/
def fieldLiterals (d : Description) (c : Casing) (type : TypeDescription)
    (written : Entries WireValue) : List (String × Json) → Except ClientError (Entries WireValue)
  | [] => .ok written
  | (key, value) :: rest => do
    let name := c.toWire key
    match type.inputField? name with
    | none => throw (.unknownArgument type.name key)
    | some field =>
      let value ← literal d c name value field.type
      fieldLiterals d c type (Entries.insert written name value) rest

end

end RecordGraph.Client
