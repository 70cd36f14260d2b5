import RecordGraph.Entries
/-!
What can go wrong with a value or a field. Each cause is a constructor, its wording stands in one
place.
-/

namespace RecordGraph

/-- A scalar or enum value that has no form on the other side. -/
inductive CodecError where
  /-- A host value that the scalar cannot write. -/
  | serialize (scalar value : String)
  /-- A wire value that the scalar cannot read. -/
  | parse (scalar value : String)
  /-- A wire text of the right kind whose content is wrong. -/
  | malformed (scalar input reason : String)
  /-- A member of another enum. -/
  | enumMismatch (expected found : String)
  /-- A name that is no member of the enum. -/
  | unknownMember (enumName member : String)
  deriving DecidableEq, Repr

/-- The wording of a codec error. -/
def CodecError.message : CodecError → String
  | .serialize scalar value => scalar ++ " cannot represent value: " ++ value
  | .parse scalar value => scalar ++ " cannot parse value: " ++ value
  | .malformed scalar input reason => scalar ++ " cannot parse `" ++ input ++ "`: " ++ reason
  | .enumMismatch expected found =>
    "Enum `" ++ expected ++ "` cannot represent a member of enum `" ++ found ++ "`"
  | .unknownMember enumName member =>
    "`" ++ member ++ "` is not a member of enum `" ++ enumName ++ "`"

/-- The failure of one field. -/
inductive FieldError where
  | codec (error : CodecError)
  /-- Whatever a handler or the decoding of an argument reports. -/
  | resolver (message : String)
  /-- A list type met a value that is no list. -/
  | expectedList (type : String)
  /-- An interface met a value of no object type that implements it. -/
  | abstractType (description : String)
  /-- A value or a type that has no form on the wire. -/
  | unrepresentable (name : String)
  /-- Decoding the defaults of an input type leads back to themselves. -/
  | endlessDefaults (type : String)
  deriving DecidableEq, Repr

/-- The wording of a field error. -/
def FieldError.message : FieldError → String
  | .codec error => error.message
  | .resolver message => message
  | .expectedList type => "Expected a list value for `" ++ type ++ "`"
  | .abstractType description => "Cannot resolve the concrete type of `" ++ description ++ "`"
  | .unrepresentable name => "Value of `" ++ name ++ "` cannot be represented on the wire"
  | .endlessDefaults type => "Defaults of `" ++ type ++ "` refer to themselves"

end RecordGraph
