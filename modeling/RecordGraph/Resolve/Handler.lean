import RecordGraph.Fault
import RecordGraph.OperationKind
import RecordGraph.Value.Text
import RecordGraph.Resolve.Arguments
/-!
Running handlers. A handler is told about the field it answers and given its arguments; it answers a
value or a sequence of values, or fails. Native handlers are run by the host, which may keep a state
of its own; what they did to it stays when the field fails.
-/

namespace RecordGraph

/-- What a handler knows about the field it answers. -/
structure FieldInfo where
  /-- The host name of the field. -/
  fieldName : String
  wireName : String
  parentType : String
  operation : OperationKind
  /-- Whatever the request brought along. -/
  context : Option String

/-- The answer of a handler. -/
inductive Answer where
  | value (value : Value)
  | sequence (items : List Emission)

/-- The values of a sequence up to its end, or its first failure. -/
def Emission.collect : List Emission → Except FieldError (List Value)
  | [] => .ok []
  | .value v :: rest => (Emission.collect rest).map (v :: ·)
  | .failure message :: _ => .error (.resolver message)

/-- A single value; a sequence becomes a list. -/
def Answer.toValue : Answer → Except FieldError Value
  | .value v => .ok v
  | .sequence items => (Emission.collect items).map .list

/-- A computation of the host on its state, which may fail. -/
abbrev Hosted (σ α : Type) := ExceptT FieldError (StateM σ) α

/-- The native handlers of a host with a state. -/
structure Host (σ : Type) where
  native : String → FieldInfo → Arguments → Hosted σ Answer

/-- The host without native handlers and without state. -/
def Host.plain : Host Unit where
  native name _ _ := throw (.resolver ("No native handler `" ++ name ++ "`"))

namespace FieldInfo

/-- A mapping of what a handler is told. -/
def describe (info : FieldInfo) (arguments : Arguments) : Value :=
  .mapping
    [("field_name", .string info.fieldName), ("wire_name", .string info.wireName),
     ("parent_type", .string info.parentType), ("operation", .string info.operation.text),
     ("context", .ofText? info.context), ("args", .mapping arguments)]

/-- A line of what a handler is told. -/
def describeLine (info : FieldInfo) (arguments : Arguments) : String :=
  "|".intercalate
    [info.fieldName, info.wireName, info.parentType, info.operation.text,
     info.context.getD "-", (Value.mapping arguments).text]

end FieldInfo

/-- Runs a handler. -/
def Handler.run (host : Host σ) (info : FieldInfo) (arguments : Arguments) :
    Handler → Hosted σ Answer
  | .give v => return .value v
  | .fail message => throw (.resolver message)
  | .emit items => return .sequence items
  | .describe => return .value (info.describe arguments)
  | .describeLine => return .value (.string (info.describeLine arguments))
  | .argument view name => return .value (Arguments.view arguments view name)
  | .defer handler => return .value (.callable handler)
  | .native name => host.native name info arguments

/-- Runs a handler to a single value. -/
def Handler.value (host : Host σ) (info : FieldInfo) (arguments : Arguments) (h : Handler) :
    Hosted σ Value := do
  liftM (← h.run host info arguments).toValue

namespace Value

/-- The handler that answers a field of a value, if it has one. -/
def resolveHandler? : Value → String → Option Handler
  | .source s, field => Entries.get? s.resolveHandlers field
  | _, _ => none

/-- The handler that answers a field of a mutation root, if it has one. -/
def mutateHandler? : Value → String → Option Handler
  | .source s, field => Entries.get? s.mutateHandlers field
  | _, _ => none

/-- The handler that shapes the messages of a field, if there is one. -/
def messageHandler? : Value → String → Option Handler
  | .source s, field => Entries.get? s.messageHandlers field
  | _, _ => none

end Value

end RecordGraph
