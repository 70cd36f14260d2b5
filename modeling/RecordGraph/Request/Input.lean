import RecordGraph.Schema.Table
/-!
Which wire values may be given for a type. Null needs a type that allows it; a single value may stand
for a list of one; an enum takes its members also as texts; an input object takes known fields only,
and all that it requires.
-/

namespace RecordGraph

/-- Looks through the wrappers of a type. A list goes to `items`, which is told the type of its
items; any other value is held against the element type of a list; what is left is for `named`. -/
def TypeRef.holds (isNull : Bool) (items : Option (TypeRef → Bool)) (named : String → Bool) :
    TypeRef → Bool
  | .nonNull inner => !isNull && inner.holds isNull items named
  | .list element =>
    match items with
    | some each => each element
    | none => isNull || element.holds isNull items named
  | .named name => isNull || named name

namespace TypeTable

/-- Whether a value may be given for a leaf by name. For a type that is no leaf it is let through. -/
def leafAccepts (t : TypeTable) (value : WireValue) (name : String) : Bool :=
  match t.type? name with
  | some (.scalar _ _ accepts) => accepts value
  | some (.enum _ _ members) =>
    match value with
    | .member member | .string member => members.contains member
    | _ => false
  | _ => true

mutual

/-- Whether a value may be given for a type. -/
def accepts (t : TypeTable) : WireValue → TypeRef → Bool
  | .list items =>
    TypeRef.holds false (some (itemsAccepted t items)) (t.leafAccepts (.list items))
  | .object fields =>
    TypeRef.holds false none fun name =>
      match t.type? name with
      | some (.inputObject _ _ declared) =>
        fieldsAccepted t declared fields &&
          declared.all fun f => !f.isRequired || Entries.contains fields f.name
      | _ => t.leafAccepts (.object fields) name
  | .null => TypeRef.holds true none fun _ => true
  | .bool b => TypeRef.holds false none (t.leafAccepts (.bool b))
  | .number n => TypeRef.holds false none (t.leafAccepts (.number n))
  | .string s => TypeRef.holds false none (t.leafAccepts (.string s))
  | .member name => TypeRef.holds false none (t.leafAccepts (.member name))
  | .binary octets => TypeRef.holds false none (t.leafAccepts (.binary octets))

/-- Whether all items of a list may be given for the element type. -/
def itemsAccepted (t : TypeTable) : List WireValue → TypeRef → Bool
  | [], _ => true
  | item :: rest, type => accepts t item type && itemsAccepted t rest type

/-- Whether all fields of an object are declared and hold what may be given for them. -/
def fieldsAccepted (t : TypeTable) (declared : List InputDefinition) :
    List (String × WireValue) → Bool
  | [] => true
  | (name, value) :: rest =>
    (match declared.find? fun f => f.name == name with
      | some f => accepts t value f.type
      | none => false) && fieldsAccepted t declared rest

end

end TypeTable

end RecordGraph
