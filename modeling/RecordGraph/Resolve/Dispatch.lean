import RecordGraph.Resolve.Decode
import RecordGraph.Resolve.Encode
import RecordGraph.Resolve.Handler
import RecordGraph.Resolve.Page
/-!
Resolving one field of a parent value. On the mutation root the mutate handler of the field comes
first, then, for a connection field, the resolver of its kind; otherwise the key of a mapping, the
resolve handler of a source or its attribute. A callable found there is called.
-/

namespace RecordGraph

/-- A field to resolve. -/
structure FieldRequest where
  parentType : String
  wireName : String
  operation : OperationKind
  /-- The arguments by wire name. -/
  arguments : List (String × WireValue)
  context : Option String := none

/-- The mapping of what a connection resolver is told. -/
def describeConnection (parent : Value) (field element : String) (arguments : Arguments) : Value :=
  .mapping
    [("source", parent), ("field_name", .string field), ("element_type", .string element),
     ("args", .mapping arguments)]

/-- Answers a connection field of a parent. -/
def ConnectionResolver.value (host : Host σ) (parent : Value) (element : String)
    (info : FieldInfo) (arguments : Arguments) : ConnectionResolver → Hosted σ Value
  | .page => do
    let elements ← match parent.resolveHandler? info.fieldName with
      | some h => h.value host info arguments
      | none => pure (.list [])
    return (Page.cut (elements.asList?.getD []) (Arguments.text? arguments "after")
      (Arguments.int? arguments "first")).toValue
  | .describe => return describeConnection parent info.fieldName element arguments
  | .handler h => h.value host info arguments

/-- What a field finds at its parent, before a callable is called. -/
def Value.lookUp (host : Host σ) (parent : Value) (info : FieldInfo) (arguments : Arguments) :
    Hosted σ Value :=
  match parent with
  | .mapping entries => return (Entries.get? entries info.fieldName).getD .null
  | .source s =>
    match Entries.get? s.resolveHandlers info.fieldName with
    | some handler => handler.value host info arguments
    | none => return (Entries.get? s.attributes info.fieldName).getD .null
  | _ => return .null

/-- Calls a callable, once. -/
def Value.call (host : Host σ) (info : FieldInfo) (arguments : Arguments) : Value → Hosted σ Value
  | .callable handler => handler.value host info arguments
  | value => return value

namespace Model

/-- The field that a request is about. -/
def requestedField (m : Model) (r : FieldRequest) : Except FieldError WireField :=
  match m.field? r.parentType r.wireName with
  | some field => .ok field
  | none =>
    .error (.resolver
      ("Field `" ++ r.wireName ++ "` is not defined on type `" ++ r.parentType ++ "`"))

/-- Whether mutate handlers count for a request. -/
def atMutationRoot (m : Model) (r : FieldRequest) : Bool :=
  r.operation == .mutation && m.mutation == some r.parentType

/-- What the handlers of a field are told. -/
def infoOf (field : WireField) (r : FieldRequest) : FieldInfo :=
  { fieldName := field.hostName, wireName := r.wireName, parentType := r.parentType
    operation := r.operation, context := r.context }

/-- The host value of a field. -/
def resolveField (m : Model) (host : Host σ) (parent : Value) (r : FieldRequest) :
    Hosted σ Value := do
  let field ← liftM (m.requestedField r)
  let arguments ← liftM (m.decodeArguments field r.arguments)
  let info := infoOf field r
  let mutate := if m.atMutationRoot r then parent.mutateHandler? field.hostName else none
  match mutate, field.connection.bind fun b => b.resolver.map fun resolver => (b, resolver) with
  | some handler, _ => handler.value host info arguments
  | none, some (binding, resolver) =>
    resolver.value host parent binding.elementType info arguments
  | none, none => do
    let found ← parent.lookUp host info arguments
    found.call host info arguments

/-- The host value of a field, encoded for the declared type of the field. -/
def resolveOutput (m : Model) (host : Host σ) (parent : Value) (r : FieldRequest) :
    Hosted σ Output := do
  let value ← m.resolveField host parent r
  let field ← liftM (m.requestedField r)
  liftM (m.encode field.type value)

end Model

end RecordGraph
