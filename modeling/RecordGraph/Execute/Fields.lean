import RecordGraph.Execute.SelfDescribed
import RecordGraph.Resolve.Dispatch
/-!
Executing plans. Every field of a plan is resolved on its own, and its value is completed for the
declared type: objects with the plans below the field, lists item by item. A field that fails is
null if its type allows that, and left out otherwise; a value that does not fit its type leaves the
whole field out. An object without fields is null.
-/

namespace RecordGraph

/-- What has become of a part of a response: its result, unless it is given up, and the errors that
occurred within it. -/
structure Outcome (α : Type) where
  result : Option α
  errors : List ResponseError := []

namespace Outcome

/-- A part that is given up. -/
def failed (failure : Failure) (path : List PathSegment) : Outcome α := ⟨none, [⟨failure, path⟩]⟩

/-- A part whose value does not fit its type. -/
def misfit (cause : Misfit) (path : List PathSegment) : Outcome α := failed (.misfit cause) path

/-- Changes the result. -/
def map (f : α → β) (o : Outcome α) : Outcome β := ⟨o.result.map f, o.errors⟩

end Outcome

/-- How the fields below a value are executed: on an object, for a parent, at a place. -/
abbrev Below (σ : Type) := ObjectType → Value → List PathSegment → StateM σ (Outcome WireValue)

/-- The execution of one operation. -/
structure Execution (σ : Type) where
  model : Model
  host : Host σ
  /-- The view of the schema on itself, unless it is kept hidden. -/
  self : Option SelfView
  kind : OperationKind
  context : Option String
  /-- The values of variables. -/
  lookUp : String → Option WireValue

namespace Output

/-- The parent of the fields below a value. A value that is no object has none of them. -/
def parent : Output → Value
  | .object _ v => v
  | _ => .null

end Output

namespace WireField

/-- The arguments of a field that are not given but have a default. -/
def missingArguments (f : WireField) (given : List (String × WireValue)) :
    List (String × WireValue) :=
  f.arguments.filterMap fun a =>
    if Entries.contains given a.name then none else a.default.map fun d => (a.name, d)

end WireField

namespace Model

/-- Completes the value of a scalar. The scalars that every schema has take any value. -/
def completeScalar (type : ScalarType) (path : List PathSegment) : Output → Outcome WireValue
  | .null => ⟨some .null, []⟩
  | .value w =>
    if TypeDefinition.isCommon type.wireName || type.codec.accepts w then ⟨some w, []⟩
    else .misfit (.scalar type.wireName) path
  | _ => .misfit (.scalar type.wireName) path

/-- Completes the value of an enum. -/
def completeEnum (type : EnumType) (path : List PathSegment) : Output → Outcome WireValue
  | .value (.member name) | .value (.string name) =>
    if type.members.contains name then ⟨some (.member name), []⟩
    else .misfit (.enumItem type.name) path
  | _ => .misfit (.enum type.name) path

/-- Completes the value of an object. -/
def completeObject (m : Model) (below : Below σ) (type : ObjectType) (path : List PathSegment)
    (output : Output) : StateM σ (Outcome WireValue) :=
  if m.isSubscription type then return .misfit (.subscription type.name) path
  else below type output.parent path

/-- Completes the value of an interface, which has to say which object it is. -/
def completeInterface (m : Model) (below : Below σ) (name : String) (path : List PathSegment) :
    Output → StateM σ (Outcome WireValue)
  | .object (some concrete) value =>
    match m.type? concrete with
    | some (.object type) =>
      if (m.implementing name).contains concrete then below type value path
      else return .misfit (.notImplemented concrete name) path
    | _ => return .misfit (.notImplemented concrete name) path
  | _ => return .misfit (.interface name) path

/-- Completes a value of a named type. -/
def completeNamed (m : Model) (below : Below σ) (name : String) (output : Output)
    (path : List PathSegment) : StateM σ (Outcome WireValue) :=
  match m.type? name with
  | some (.scalar type) => return completeScalar type path output
  | some (.enum type) => return completeEnum type path output
  | some (.object type) => m.completeObject below type path output
  | some (.interface type) => m.completeInterface below type.name path output
  | some (.inputObject type) => return .misfit (.inputObject type.name) path
  | none => return .misfit (.unknownType name) path

/-- Completes the items of a list up to the first one that is given up. -/
def completeItems (complete : Output → List PathSegment → StateM σ (Outcome WireValue))
    (path : List PathSegment) : Nat → List Output → StateM σ (Outcome (List WireValue))
  | _, [] => return ⟨some [], []⟩
  | position, item :: rest => do
    let first ← complete item (path ++ [.index position])
    match first.result with
    | none => return ⟨none, first.errors⟩
    | some value =>
      let others ← completeItems complete path (position + 1) rest
      return ⟨others.result.map (value :: ·), first.errors ++ others.errors⟩

/-- Completes a value. Null within a list is a value like any other, whatever its type. -/
def complete (m : Model) (below : Below σ) :
    TypeRef → Output → List PathSegment → StateM σ (Outcome WireValue)
  | .nonNull inner, output, path => complete m below inner output path
  | .list element, .list items, path => do
    let items ← completeItems (complete m below element) path 0 items
    return items.map .list
  | .list _, _, path => return .misfit .noList path
  | .named name, output, path => m.completeNamed below name output path

/-- Completes the value of a field, which may be missing. -/
def completeField (m : Model) (below : Below σ) (type : TypeRef) (output : Output)
    (path : List PathSegment) : StateM σ (Outcome WireValue) :=
  match output with
  | .null => return if type.isNonNull then .misfit .missing path else ⟨some .null, []⟩
  | output => m.complete below type output path

end Model

namespace Execution

/-- The values of the arguments given to a field; else the variable without a value. -/
def arguments (x : Execution σ) (field : WireField) (given : List (String × Literal)) :
    Except String (List (String × WireValue)) := do
  let given ← Literal.fieldValues x.lookUp given
  return given ++ field.missingArguments given

/-- What becomes of a field that fails. -/
def failedField (field : WireField) (error : FieldError) (path : List PathSegment) :
    Outcome WireValue :=
  ⟨if field.type.isNonNull then none else some .null, [⟨.field error, path⟩]⟩

/-- Executes a field of an object. -/
def field (x : Execution σ) (below : Below σ) (object : ObjectType) (field : WireField)
    (given : List (String × Literal)) (parent : Value) (path : List PathSegment) :
    StateM σ (Outcome WireValue) := do
  match x.arguments field given with
  | .error missing => return .failed (.noVariable missing) []
  | .ok arguments =>
    let request : FieldRequest :=
      { parentType := object.name, wireName := field.name, operation := x.kind
        arguments := arguments, context := x.context }
    match ← (x.model.resolveOutput x.host parent request).run with
    | .ok output => x.model.completeField below field.type output path
    | .error error => return failedField field error path

/-- The name of a type, as far as the schema shows it. -/
def typeName (x : Execution σ) (object : ObjectType) : WireValue :=
  if x.self.isSome then .string object.name else .null

/-- Whether plans for objects of a type are meant for an object. -/
def applies (x : Execution σ) (object : ObjectType) : Option String → Bool
  | none => true
  | some name => name == object.name || (x.model.interfacesOf object).contains name

/-- What plans ask of the schema itself. -/
def describe (x : Execution σ) (view : SelfView) (thing : Described) (plans : List Plan) :
    Outcome WireValue :=
  match Plan.describedAll view x.lookUp plans thing with
  | .ok fields => ⟨some (WireValue.ofFields fields), []⟩
  | .error missing => .failed (.noVariable missing) []

/-- What plans ask of a type of the schema by name. -/
def describeType (x : Execution σ) (view : SelfView) (given : List (String × Literal))
    (plans : List Plan) : Outcome WireValue :=
  match Literal.fieldValues x.lookUp given with
  | .error missing => .failed (.noVariable missing) []
  | .ok arguments =>
    match Entries.get? arguments "name" with
    | some (.string name) =>
      match view.type? name with
      | some thing => x.describe view thing plans
      | none => ⟨some .null, []⟩
    | _ => ⟨some .null, []⟩

/-- What the query root says about the schema, if the field is about that. -/
def selfField? (x : Execution σ) (object : ObjectType) (name : String)
    (given : List (String × Literal)) (plans : List Plan) : Option (Outcome WireValue) := do
  let view ← x.self
  guard (object.name == x.model.query)
  match name with
  | "__schema" => some (x.describe view .schema plans)
  | "__type" => some (x.describeType view given plans)
  | _ => none

/-- Executes a field by name. A field that the object does not have is left out. -/
def fieldNamed (x : Execution σ) (plans : List Plan) (below : Below σ) (object : ObjectType)
    (name : String) (given : List (String × Literal)) (parent : Value)
    (path : List PathSegment) : StateM σ (Outcome WireValue) :=
  if name = typeNameField then return ⟨some (x.typeName object), []⟩
  else
    match x.selfField? object name given plans with
    | some outcome => return outcome
    | none =>
      match object.fields.find? fun f => f.name == name with
      | some f => x.field below object f given parent path
      | none => return ⟨none, []⟩

/-- The object with the fields that plans have added. -/
def object (fields : List (String × WireValue)) : WireValue :=
  if fields.isEmpty then .null else WireValue.ofFields fields

end Execution

namespace Plan

/-- The fields that plans add to an object, and the errors on the way. -/
abbrev Added := List (String × WireValue) × List ResponseError

/-- The object that plans add fields to. -/
def asObject (add : ObjectType → Value → List PathSegment → StateM σ Added) : Below σ :=
  fun object parent path => do
    let (fields, errors) ← add object parent path
    return ⟨some (Execution.object fields), errors⟩

mutual

/-- Executes a plan on an object. -/
def execute (x : Execution σ) :
    Plan → ObjectType → Value → List PathSegment → StateM σ Added
  | .field key name given below => fun object parent path => do
    let outcome ← x.fieldNamed below (asObject (executeAll x below)) object name given parent
      (path ++ [.key key])
    return ((outcome.result.map fun value => (key, value)).toList, outcome.errors)
  | .group condition members => fun object parent path =>
    if x.applies object condition then executeAll x members object parent path
    else return ([], [])

/-- Executes plans on an object, one after the other. -/
def executeAll (x : Execution σ) :
    List Plan → ObjectType → Value → List PathSegment → StateM σ Added
  | [] => fun _ _ _ => return ([], [])
  | plan :: rest => fun object parent path => do
    let (fields, errors) ← execute x plan object parent path
    let (others, more) ← executeAll x rest object parent path
    return (fields ++ others, errors ++ more)

end

end Plan

namespace Execution

/-- How plans are executed below a value. -/
def below (x : Execution σ) (plans : List Plan) : Below σ := Plan.asObject (Plan.executeAll x plans)

/-- Executes the plans of an operation on its root. -/
def respond (x : Execution σ) (root : String) (plans : List Plan) (parent : Value) :
    StateM σ Response := do
  match x.model.type? root with
  | some (.object type) =>
    let outcome ← x.below plans type parent []
    return ⟨outcome.result.getD .null, outcome.errors⟩
  | _ => return {}

end Execution

end RecordGraph
