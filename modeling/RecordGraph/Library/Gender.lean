import RecordGraph.Scalar.Enum
/-!
The enum of the library's authors.
-/

namespace RecordGraph.Library

/-- The genders that the library records. -/
inductive Gender where
  | male
  | female
  deriving DecidableEq, Repr

namespace Gender

/-- The enum as described to a schema. -/
def type : EnumType := { name := "Gender", members := ["MALE", "FEMALE"] }

/-- The name of a member. -/
def name : Gender → String
  | .male => "MALE"
  | .female => "FEMALE"

/-- The member with a name. -/
def ofName? (name : String) : Option Gender :=
  if name = "MALE" then some .male else if name = "FEMALE" then some .female else none

/-- The host value of a member. -/
def toValue (g : Gender) : Value := .member type.name g.name

/-- The member that a host value stands for. -/
def ofValue (value : Value) : Except CodecError Gender := do
  let member ← type.memberOf value
  match ofName? member with
  | some g => return g
  | none => throw (.unknownMember type.name member)

end Gender

end RecordGraph.Library
