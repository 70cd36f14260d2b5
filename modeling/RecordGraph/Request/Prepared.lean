import RecordGraph.Document.Choice
import RecordGraph.Request.Plan
import RecordGraph.Request.Rule
import RecordGraph.Settings
/-!
Requests and their preparation: a request is read, held against the rules and the limits, and its
operation is turned into a plan. Where that fails the request is rejected as a whole.
-/

namespace RecordGraph

/-- What a client asks for. -/
structure Request where
  text : String
  /-- The operation meant, if the document has several. -/
  operationName : Option String := none
  /-- The values given for variables. -/
  given : Entries WireValue := []
  /-- Whatever handlers are told about the request. -/
  context : Option String := none
  /-- The value whose fields are asked for, if it is not the one of the schema. -/
  root : Option Value := none

/-- Why a request is not executed. -/
inductive Rejection where
  | unreadable
  /-- Selections have too many levels. -/
  | nested
  | rules (broken : List Rule)
  | tooComplex (limit : Nat)
  | tooDeep (limit : Nat)
  | unknownOperation (name : String)
  /-- The document has several operations and the request names none. -/
  | ambiguous
  /-- A subscription was asked for a single response. -/
  | needsStream
  /-- The schema has no subscriptions. -/
  | noSubscriptions
  deriving DecidableEq, Repr

namespace Rejection

/-- The wording of a rejection. -/
def message : Rejection → String
  | .unreadable => "The request cannot be read"
  | .nested => "The request has more than " ++ toString maxNesting ++ " levels of selections"
  | .rules _ => "The request does not fit the schema"
  | .tooComplex limit => "The request asks for more than " ++ toString limit ++ " fields"
  | .tooDeep limit => "The request nests fields more than " ++ toString limit ++ " deep"
  | .unknownOperation name => "The request has no operation `" ++ name ++ "`"
  | .ambiguous => "The request does not say which operation it means"
  | .needsStream => "A subscription has no single response"
  | .noSubscriptions => "The schema has no subscriptions"

end Rejection

/-- An operation that is ready to be executed. -/
structure Prepared where
  kind : OperationKind
  declarations : List VariableDefinition
  given : Entries WireValue
  plans : List Plan

namespace Prepared

/-- The value of a variable: the one given, else its default, else null where its type allows
null. -/
def lookUp (p : Prepared) (name : String) : Option WireValue := do
  let v ← p.declarations.find? fun v => v.name == name
  (Entries.get? p.given name).or (v.default.or (if v.type.isNonNull then none else some .null))

end Prepared

namespace Request

/-- The values of variables in a JSON object; any other JSON value gives none. -/
def variablesOfJson (j : Json) : Entries WireValue :=
  match WireValue.ofJson j with
  | .object fields => fields
  | _ => []

/-- The operation that a request means. -/
def operation (r : Request) (d : Document) : Except Rejection Operation :=
  match d.chosen? r.operationName, r.operationName with
  | some operation, _ => .ok operation
  | none, some name => .error (.unknownOperation name)
  | none, none => .error .ambiguous

/-- Holds a document against the limits of a schema. -/
def checkLimits (settings : EngineSettings) (d : Document) : Except Rejection Unit := do
  if let some limit := settings.complexityLimit then
    unless d.complexity ≤ limit do throw (.tooComplex limit)
  if let some limit := settings.depthLimit then
    unless d.depth ≤ limit do throw (.tooDeep limit)

/-- Prepares a request for the types of a schema. -/
def prepare (t : TypeTable) (settings : EngineSettings) (r : Request) :
    Except Rejection Prepared := do
  let some d := Document.read? r.text | throw .unreadable
  unless d.isShallow do throw .nested
  let broken := Inquiry.broken ⟨t, d, r.given⟩
  unless broken.isEmpty do throw (.rules broken)
  checkLimits settings d
  let operation ← r.operation d
  return { kind := operation.kind, declarations := operation.declarations, given := r.given
           plans := d.plans r.given maxNesting operation.selections }

end Request

end RecordGraph
