import RecordGraph.Fault
import RecordGraph.Request.Prepared
/-!
Responses: data together with the errors that occurred on the way to it, each at its place. Fields
asked for twice under one key are merged, so that each key stands once.
-/

namespace RecordGraph

/-- A step on the way to a value in a response. -/
inductive PathSegment where
  | key (name : String)
  | index (position : Nat)
  deriving DecidableEq, Repr

/-- A value that does not fit the type it is declared to have. -/
inductive Misfit where
  /-- Null for a type that does not allow it. -/
  | missing
  | noList
  | scalar (name : String)
  | enumItem (name : String)
  | enum (name : String)
  /-- A value that does not say which object it is. -/
  | interface (name : String)
  | notImplemented (object interface : String)
  | subscription (name : String)
  | inputObject (name : String)
  | unknownType (name : String)
  deriving DecidableEq, Repr

namespace Misfit

/-- A name in quotes. -/
def quoted (name : String) : String := "\"" ++ name ++ "\""

/-- The wording of a misfit. -/
def message : Misfit → String
  | .missing => "internal: non-null types require a return value"
  | .noList => "internal: expects an array"
  | .scalar name =>
    "internal: invalid value for scalar " ++ quoted name ++ ", expected \"FieldValue::Value\""
  | .enumItem name => "internal: invalid item for enum " ++ quoted name
  | .enum name =>
    "internal: invalid value for enum " ++ quoted name ++ ", expected \"FieldValue::Value\""
  | .interface name =>
    "internal: invalid value for interface " ++ quoted name ++ ", expected \"FieldValue::WithType\""
  | .notImplemented object wanted =>
    "internal: object " ++ quoted object ++ " does not implement interface " ++ quoted wanted
  | .subscription name => "internal: cannot use subscription " ++ quoted name ++ " as output value"
  | .inputObject name => "internal: cannot use input object " ++ quoted name ++ " as output value"
  | .unknownType name => "internal: unknown type " ++ quoted name

end Misfit

/-- What went wrong with a request or a part of it. -/
inductive Failure where
  | rejected (cause : Rejection)
  /-- A variable of a type that does not allow null was not given. -/
  | noVariable (name : String)
  | field (error : FieldError)
  | misfit (cause : Misfit)

/-- The wording of a failure. -/
def Failure.message : Failure → String
  | .rejected cause => cause.message
  | .noVariable name => "Variable " ++ name ++ " is not defined."
  | .field error => error.message
  | .misfit cause => cause.message

/-- A failure and where it occurred; a failure of no field in particular has an empty path. -/
structure ResponseError where
  failure : Failure
  path : List PathSegment := []

/-- The answer to a request. -/
structure Response where
  data : WireValue := .null
  errors : List ResponseError := []

namespace Response

/-- The response to a request that is not executed. -/
def rejected (cause : Rejection) : Response := { errors := [{ failure := .rejected cause }] }

/-- Whether a response has errors only, none of them of a field. -/
def isFailure (r : Response) : Bool :=
  r.data.isNull && !r.errors.isEmpty && r.errors.all fun e => e.path.isEmpty

end Response

namespace WireValue

mutual

/-- Adds a later value of a key to an earlier one: fields to an object, and to the objects in a
list. Any other earlier value stays as it is. -/
def mergeInto : WireValue → WireValue → WireValue
  | .object fields, .object before => .object (mergeFields fields before)
  | .list items, .list before => .list (mergeItems items before)
  | _, before => before

/-- Adds fields to the fields of an object. -/
def mergeFields : List (String × WireValue) → List (String × WireValue) → List (String × WireValue)
  | [], before => before
  | (name, value) :: rest, before =>
    match Entries.get? before name with
    | some old => mergeFields rest (Entries.insert before name (mergeInto value old))
    | none => mergeFields rest (before ++ [(name, value)])

/-- Adds the objects of a list to the objects in the same places of another list. -/
def mergeItems : List WireValue → List WireValue → List WireValue
  | .object fields :: rest, .object before :: others =>
    .object (mergeFields fields before) :: mergeItems rest others
  | _ :: rest, old :: others => old :: mergeItems rest others
  | _, before => before

end

/-- The object with given fields, in which each name stands once. -/
def ofFields (fields : List (String × WireValue)) : WireValue := .object (mergeFields fields [])

end WireValue

end RecordGraph
