import RecordGraph.Value.Convert
/-!
Enums. A host value of an enum remembers which enum it belongs to, and only members of that very
enum are written, also where two enums share a member name.
-/

namespace RecordGraph

/-- A named set of members. -/
structure EnumType where
  name : String
  description : Option String := none
  members : List String
  deriving DecidableEq, Repr, Inhabited

namespace EnumType

/-- Checks that a name is a member. -/
def check (e : EnumType) (member : String) : Except CodecError Unit :=
  if e.members.contains member then .ok () else .error (.unknownMember e.name member)

/-- The wire value of a member. -/
def serialize (e : EnumType) : Value → Except CodecError WireValue
  | .member enumName member =>
    if enumName ≠ e.name then .error (.enumMismatch e.name enumName)
    else (e.check member).map fun _ => .member member
  | value => .error (.serialize e.name value.text)

/-- The member named by a wire value, bare or as a string. -/
def parse (e : EnumType) : WireValue → Except CodecError Value
  | .member name | .string name => (e.check name).map fun _ => .member e.name name
  | value => .error (.parse e.name value.text)

/-- The host value of a member. -/
def pick? (e : EnumType) (name : String) : Option Value :=
  if e.members.contains name then some (.member e.name name) else none

/-- The member that a host value of the enum names. -/
def memberOf (e : EnumType) : Value → Except CodecError String
  | .member enumName member =>
    if enumName ≠ e.name then .error (.enumMismatch e.name enumName)
    else (e.check member).map fun _ => member
  | value => .error (.parse e.name value.text)

end EnumType

end RecordGraph
