/-!
What can go wrong when a client writes a document.
-/

namespace RecordGraph.Client

/-- Why a document cannot be written. -/
inductive ClientError where
  /-- The description of the schema does not have the expected form. -/
  | introspection
  | unknownType (name : String)
  | unknownField (typeName field : String)
  | unknownArgument (field argument : String)
  /-- A value that is no literal of the declared type; it is given as JSON text. -/
  | invalidValue (name expected value : String)
  | noMutationType
  deriving DecidableEq, Repr, Inhabited

/-- The wording of a client error. -/
def ClientError.message : ClientError → String
  | .introspection => "Invalid introspection result"
  | .unknownType name => "Type `" ++ name ++ "` does not exist in the schema"
  | .unknownField typeName field =>
    "Field `" ++ field ++ "` does not exist in type `" ++ typeName ++ "`"
  | .unknownArgument field argument =>
    "Invalid argument `" ++ argument ++ "` for field `" ++ field ++ "`"
  | .invalidValue name expected value =>
    "Expected " ++ expected ++ " for `" ++ name ++ "`, received " ++ value
  | .noMutationType => "The schema has no mutation type"

end RecordGraph.Client
