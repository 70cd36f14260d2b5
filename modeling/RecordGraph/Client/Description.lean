import RecordGraph.Json
import RecordGraph.Client.Fault
/-!
A schema as it describes itself to clients, read from the answer to an introspection query. Members
that a client does not need are passed over; those it needs must have the right form, even where no
document refers to them. A structure may also come as the array of all its members in order.
-/

namespace RecordGraph.Client

/-- The kinds of types and of wrappers around them. -/
inductive TypeKind where
  | scalar
  | object
  | interface
  | union
  | enum
  | inputObject
  | list
  | nonNull
  deriving DecidableEq, Repr

/-- A type or a wrapper around one. -/
inductive TypeShape where
  | mk (kind : TypeKind) (name : Option String) (inner : Option TypeShape)
  deriving Repr

/-- An argument, or a field of an input object. -/
structure InputDescription where
  name : String
  type : TypeShape

/-- A field of an object or interface. -/
structure FieldDescription where
  name : String
  arguments : List InputDescription := []
  type : TypeShape

/-- A type. -/
structure TypeDescription where
  kind : TypeKind
  name : String
  fields : Option (List FieldDescription) := none
  inputFields : Option (List InputDescription) := none
  members : Option (List String) := none

/-- A schema: the names of its roots, and its types. -/
structure Description where
  query : String
  mutation : Option String
  types : Entries TypeDescription

namespace TypeKind

/-- The kind with a name. -/
def ofName? : String → Option TypeKind
  | "SCALAR" => some .scalar
  | "OBJECT" => some .object
  | "INTERFACE" => some .interface
  | "UNION" => some .union
  | "ENUM" => some .enum
  | "INPUT_OBJECT" => some .inputObject
  | "LIST" => some .list
  | "NON_NULL" => some .nonNull
  | _ => none

/-- A kind by its name; the name may also be the only member of an object, over null. -/
def ofJson? : Json → Option TypeKind
  | .string name => ofName? name
  | .object [(name, .null)] => ofName? name
  | _ => none

end TypeKind

/-- A text. -/
def text? : Json → Option String
  | .string s => some s
  | _ => none

/-- Whatever may be missing or null: `none` when it is there and has the wrong form. -/
def optional? (read : Json → Option α) : Option Json → Option (Option α)
  | none | some .null => some none
  | some j => (read j).map some

/-- The items of an array. -/
def list? (read : Json → Option α) : Json → Option (List α)
  | .array items => items.mapM read
  | _ => none

/-- The members of a structure by name, absent ones as `none`. -/
def members? (names : List String) : Json → Option (List (Option Json))
  | .object members => some (names.map (Entries.get? members))
  | .array items => if items.length = names.length then some (items.map some) else none
  | _ => none

namespace TypeShape

/-- The kind of a type. -/
def kind : TypeShape → TypeKind
  | .mk kind _ _ => kind

/-- The name of a type that is no wrapper. -/
def name : TypeShape → Option String
  | .mk _ name _ => name

/-- What a wrapper is around. -/
def inner : TypeShape → Option TypeShape
  | .mk _ _ inner => inner

mutual

/-- Reads a type. -/
def ofJson? : Json → Option TypeShape
  | .object members => do
    let kind ← (Entries.get? members "kind").bind TypeKind.ofJson?
    let name ← optional? text? (Entries.get? members "name")
    let inner ← innerOf? members
    return .mk kind name inner
  | .array [kind, name, inner] => do
    let kind ← TypeKind.ofJson? kind
    let name ← optional? text? (some name)
    let inner ← if inner.isNull then some none else (ofJson? inner).map some
    return .mk kind name inner
  | _ => none

/-- Reads what a wrapper is around, which may be missing or null. -/
def innerOf? : List (String × Json) → Option (Option TypeShape)
  | [] => some none
  | (key, value) :: rest =>
    if key = "ofType" then if value.isNull then some none else (ofJson? value).map some
    else innerOf? rest

end

end TypeShape

/-- Reads an argument or a field of an input object. -/
def InputDescription.ofJson? (j : Json) : Option InputDescription := do
  match ← members? ["name", "type"] j with
  | [some name, some type] => return ⟨← text? name, ← TypeShape.ofJson? type⟩
  | _ => none

/-- Reads a field. Its arguments may be missing, but not null. -/
def FieldDescription.ofJson? (j : Json) : Option FieldDescription := do
  match ← members? ["name", "args", "type"] j with
  | [some name, arguments, some type] =>
    let arguments ← match arguments with
      | none => some []
      | some j => list? InputDescription.ofJson? j
    return ⟨← text? name, arguments, ← TypeShape.ofJson? type⟩
  | _ => none

/-- Reads a structure of which only the name counts. -/
def named? (j : Json) : Option String := do
  match ← members? ["name"] j with
  | [some name] => text? name
  | _ => none

/-- Reads a type. -/
def TypeDescription.ofJson? (j : Json) : Option TypeDescription := do
  match ← members? ["kind", "name", "fields", "inputFields", "enumValues"] j with
  | [some kind, some name, fields, inputFields, members] =>
    return {
      kind := ← TypeKind.ofJson? kind
      name := ← text? name
      fields := ← optional? (list? FieldDescription.ofJson?) fields
      inputFields := ← optional? (list? InputDescription.ofJson?) inputFields
      members := ← optional? (list? named?) members }
  | _ => none

namespace TypeDescription

/-- The field with a name. -/
def field? (t : TypeDescription) (name : String) : Option FieldDescription :=
  (t.fields.getD []).find? fun f => f.name == name

/-- The input field with a name. -/
def inputField? (t : TypeDescription) (name : String) : Option InputDescription :=
  (t.inputFields.getD []).find? fun f => f.name == name

end TypeDescription

/-- The argument with a name. -/
def FieldDescription.argument? (f : FieldDescription) (name : String) : Option InputDescription :=
  f.arguments.find? fun a => a.name == name

namespace Description

/-- Reads the data of an answer. Of types with the same name the last counts. -/
def ofData? (data : Json) : Option Description := do
  match ← members? ["__schema"] data with
  | [some schema] =>
    match ← members? ["queryType", "mutationType", "types"] schema with
    | [some query, mutation, some types] =>
      let query ← named? query
      let mutation ← optional? named? mutation
      let types ← list? TypeDescription.ofJson? types
      return ⟨query, mutation, Entries.ofPairs (types.map fun t => (t.name, t))⟩
    | _ => none
  | _ => none

/-- Reads an answer, whole or only its data. -/
def ofJson (answer : Json) : Except ClientError Description :=
  match ofData? ((answer.get? "data").getD answer) with
  | some d => .ok d
  | none => .error .introspection

/-- The type with a name. -/
def type (d : Description) (name : String) : Except ClientError TypeDescription :=
  match Entries.get? d.types name with
  | some t => .ok t
  | none => .error (.unknownType name)

end Description

end RecordGraph.Client
