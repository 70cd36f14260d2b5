import RecordGraph.Proofs.Execute.Isolation
import RecordGraph.Service.Basic
/-! The execution of a request held against a reference: one that resolves each field occurrence on its own
and keeps what came of it, whether or not it failed, and reads the response off the occurrences at the end.
The reference knows no paths and no data; what an execution does about failures on its way is what the
occurrences say afterwards. -/

namespace RecordGraph

/-- How the occurrences of fields below a value are found: on an object, for a parent. -/
abbrev Expand (σ : Type) := ObjectType → Value → StateM σ (List Occurrence)

variable {σ : Type}

/-! What values come to. -/

namespace Model

def contentOfScalar (type : ScalarType) : Output → Content
  | .null => .value .null
  | .value w =>
    if TypeDefinition.isCommon type.wireName || type.codec.accepts w then .value w
    else .misfit (.scalar type.wireName)
  | _ => .misfit (.scalar type.wireName)

def contentOfEnum (type : EnumType) : Output → Content
  | .value (.member name) | .value (.string name) =>
    if type.members.contains name then .value (.member name) else .misfit (.enumItem type.name)
  | _ => .misfit (.enum type.name)

def contentOfObject (m : Model) (expand : Expand σ) (type : ObjectType) (output : Output) :
    StateM σ Content :=
  if m.isSubscription type then return .misfit (.subscription type.name)
  else .object <$> expand type output.parent

/-- What a value of an interface comes to, which has to say which object it is. -/
def contentOfInterface (m : Model) (expand : Expand σ) (name : String) : Output → StateM σ Content
  | .object (some concrete) value =>
    match m.type? concrete with
    | some (.object type) =>
      if (m.implementing name).contains concrete then .object <$> expand type value
      else return .misfit (.notImplemented concrete name)
    | _ => return .misfit (.notImplemented concrete name)
  | _ => return .misfit (.interface name)

def contentOfNamed (m : Model) (expand : Expand σ) (name : String) (output : Output) : StateM σ Content :=
  match m.type? name with
  | some (.scalar type) => return contentOfScalar type output
  | some (.enum type) => return contentOfEnum type output
  | some (.object type) => m.contentOfObject expand type output
  | some (.interface type) => m.contentOfInterface expand type.name output
  | some (.inputObject type) => return .misfit (.inputObject type.name)
  | none => return .misfit (.unknownType name)

/-- What items come to, up to the first one that does not fit. -/
def contentOfItems (content : Output → StateM σ Content) : List Output → StateM σ (List Content)
  | [] => return []
  | item :: rest => do
    let first ← content item
    if first.fits then return first :: (← contentOfItems content rest) else return [first]

def contentOf (m : Model) (expand : Expand σ) : TypeRef → Output → StateM σ Content
  | .nonNull inner, output => contentOf m expand inner output
  | .list element, .list items => .list <$> contentOfItems (contentOf m expand element) items
  | .list _, _ => return .misfit .noList
  | .named name, output => m.contentOfNamed expand name output

/-- What the value of a field comes to, which may be missing. -/
def contentOfField (m : Model) (expand : Expand σ) (type : TypeRef) (output : Output) : StateM σ Content :=
  match output with
  | .null => return if type.isNonNull then .misfit .missing else .value .null
  | output => m.contentOf expand type output

end Model

/-! What becomes of fields. -/

namespace Execution

theorem fieldless_describe (x : Execution σ) (view : SelfView) (thing : Described) (plans : List Plan) :
    Fieldless (x.describe view thing plans).errors := by
  unfold describe
  split
  · exact fieldless_nil
  · exact fieldless_noVariable _ []

theorem fieldless_describeType (x : Execution σ) (view : SelfView) (given : List (String × Literal))
    (plans : List Plan) : Fieldless (x.describeType view given plans).errors := by
  unfold describeType
  split
  · exact fieldless_noVariable _ []
  · split
    · split
      · exact x.fieldless_describe view _ plans
      · exact fieldless_nil
    · exact fieldless_nil

theorem fieldless_of_selfField? {x : Execution σ} {object : ObjectType} {name : String}
    {given : List (String × Literal)} {plans : List Plan} {o : Outcome WireValue}
    (h : x.selfField? object name given plans = some o) : Fieldless o.errors := by
  obtain ⟨view, -, h⟩ := Option.bind_eq_some_iff.mp h
  obtain ⟨-, -, h⟩ := Option.bind_eq_some_iff.mp h
  split at h
  · cases h
    exact x.fieldless_describe view .schema plans
  · cases h
    exact x.fieldless_describeType view given plans
  · cases h

/-- What the engine itself answers about the schema. -/
def told? (x : Execution σ) (object : ObjectType) (name : String) (given : List (String × Literal))
    (plans : List Plan) : Option Told :=
  (x.selfField? object name given plans).pmap Told.mk fun _ h => fieldless_of_selfField? h

/-- An occurrence of a field of an object: what resolving the field for the parent gives, be it a value or a
failure, and nothing else. -/
def occurrence (x : Execution σ) (expand : Expand σ) (object : ObjectType) (field : WireField)
    (key : String) (given : List (String × Literal)) (parent : Value) : StateM σ Occurrence := do
  match x.arguments field given with
  | .error missing => return .told key (.unbound missing)
  | .ok arguments =>
    let request : FieldRequest :=
      { parentType := object.name, wireName := field.name, operation := x.kind
        arguments := arguments, context := x.context }
    match ← (x.model.resolveOutput x.host parent request).run with
    | .ok output => .resolved key <$> x.model.contentOfField expand field.type output
    | .error error => return .failed key field.type error

/-- An occurrence of a field by name. -/
def occurrenceNamed (x : Execution σ) (plans : List Plan) (expand : Expand σ) (object : ObjectType)
    (key name : String) (given : List (String × Literal)) (parent : Value) : StateM σ Occurrence :=
  if name = typeNameField then return .told key (.of (some (x.typeName object)))
  else
    match x.told? object name given plans with
    | some answer => return .told key answer
    | none =>
      match object.fields.find? fun f => f.name == name with
      | some f => x.occurrence expand object f key given parent
      | none => return .told key (.of none)

end Execution

namespace Plan

mutual

/-- The occurrences of fields that a plan selects on an object. -/
def occurrences (x : Execution σ) : Plan → ObjectType → Value → StateM σ (List Occurrence)
  | .field key name given below => fun object parent => do
    return [← x.occurrenceNamed below (allOccurrences x below) object key name given parent]
  | .group condition members => fun object parent =>
    if x.applies object condition then allOccurrences x members object parent else return []

/-- The occurrences of fields that plans select on an object, one after the other. -/
def allOccurrences (x : Execution σ) : List Plan → ObjectType → Value → StateM σ (List Occurrence)
  | [] => fun _ _ => return []
  | plan :: rest => fun object parent => do
    return (← occurrences x plan object parent) ++ (← allOccurrences x rest object parent)

end

end Plan

/-- The occurrences of fields that plans select on the root of an operation. -/
def Execution.occurrences (x : Execution σ) (root : String) (plans : List Plan) (parent : Value) :
    StateM σ (List Occurrence) :=
  match x.model.type? root with
  | some (.object type) => Plan.allOccurrences x plans type parent
  | _ => return []

/-- The occurrences of fields that a prepared request selects. -/
def Service.occurrences (s : Service σ) (r : Request) (p : Prepared) : StateM σ (List Occurrence) :=
  (s.execution r p).occurrences (s.rootName p.kind) p.plans (s.rootValue r p.kind)

/-! An execution completes a value to what it comes to. -/

/-- What is left of a value at a place. -/
def Content.outcome (path : List PathSegment) (c : Content) : Outcome WireValue :=
  ⟨c.data, c.errors path⟩

/-- The execution of the fields below a value by their occurrences. -/
def Expand.below (expand : Expand σ) : Below σ := fun object parent path =>
  (fun occurrences => (Content.object occurrences).outcome path) <$> expand object parent

namespace Model

variable (m : Model) (expand : Expand σ) (path : List PathSegment)

theorem completeScalar_eq (type : ScalarType) (output : Output) :
    completeScalar type path output = (contentOfScalar type output).outcome path := by
  cases output with
  | value w =>
    simp only [completeScalar, contentOfScalar]
    split <;> rfl
  | _ => rfl

theorem completeEnum_eq (type : EnumType) (output : Output) :
    completeEnum type path output = (contentOfEnum type output).outcome path := by
  have hmember (name : String) :
      (if type.members.contains name then ⟨some (.member name), []⟩ else .misfit (.enumItem type.name) path) =
        (if type.members.contains name then Content.value (.member name)
          else .misfit (.enumItem type.name)).outcome path := by
    split <;> rfl
  match output with
  | .value (.member name) | .value (.string name) => exact hmember name
  | .value .null | .value (.bool _) | .value (.number _) => rfl
  | .value (.binary _) | .value (.list _) | .value (.object _) => rfl
  | .null | .object .. | .list _ => rfl

theorem completeObject_eq (type : ObjectType) (output : Output) :
    m.completeObject expand.below type path output =
      Content.outcome path <$> m.contentOfObject expand type output := by
  unfold completeObject contentOfObject
  split
  · rfl
  · rw [Functor.map_map, Expand.below]

theorem completeInterface_eq (name : String) (output : Output) :
    m.completeInterface expand.below name path output =
      Content.outcome path <$> m.contentOfInterface expand name output := by
  cases output with
  | object concrete value =>
    cases concrete with
    | none => rfl
    | some concrete =>
      simp only [completeInterface, contentOfInterface]
      cases m.type? concrete with
      | none => rfl
      | some type =>
        cases type with
        | object type =>
          dsimp only
          split
          · rw [Functor.map_map, Expand.below]
          · rfl
        | _ => rfl
  | _ => rfl

theorem completeNamed_eq (name : String) (output : Output) :
    m.completeNamed expand.below name output path =
      Content.outcome path <$> m.contentOfNamed expand name output := by
  unfold completeNamed contentOfNamed
  cases m.type? name with
  | none => rfl
  | some type =>
    cases type with
    | scalar type => exact congrArg pure (completeScalar_eq path type output)
    | enum type => exact congrArg pure (completeEnum_eq path type output)
    | object type => exact m.completeObject_eq expand path type output
    | interface type => exact m.completeInterface_eq expand path type.name output
    | inputObject type => rfl

/-- The items up to the first one that does not fit are the items up to the first one that is given up. -/
theorem completeItems_eq {complete : Output → List PathSegment → StateM σ (Outcome WireValue)}
    {content : Output → StateM σ Content}
    (h : ∀ output path, complete output path = Content.outcome path <$> content output)
    (items : List Output) (position : Nat) :
    completeItems complete path position items =
      (fun contents => ⟨Content.allData contents, Content.allErrors contents path position⟩) <$>
        contentOfItems content items := by
  induction items generalizing position with
  | nil => rfl
  | cons item rest ih =>
    simp only [completeItems, contentOfItems, h, ih, map_bind, bind_map_left]
    refine bind_congr fun first => ?_
    -- An execution goes on by the data of an item, the reference by whether it fits.
    have hfits : first.fits = first.data.isSome := first.isSome_data.symm
    cases hdata : first.data <;>
      simp [Content.outcome, hfits, hdata, Content.allData, Content.allErrors]

theorem complete_eq (type : TypeRef) (output : Output) (path : List PathSegment) :
    m.complete expand.below type output path = Content.outcome path <$> m.contentOf expand type output := by
  induction type generalizing output path with
  | nonNull inner ih => exact ih output path
  | named name => exact m.completeNamed_eq expand path name output
  | list element ih =>
    cases output with
    | list items =>
      simp only [complete, contentOf, completeItems_eq path ih, bind_pure_comp, Functor.map_map]
      rfl
    | _ => rfl

theorem completeField_eq (type : TypeRef) (output : Output) :
    m.completeField expand.below type output path =
      Content.outcome path <$> m.contentOfField expand type output := by
  cases output with
  | null =>
    simp only [completeField, contentOfField]
    split <;> rfl
  | _ => exact m.complete_eq expand type _ path

end Model

/-! An execution does with a field what its occurrence says afterwards. The induction is on plans, which are
executed as their occurrences are found: in order, each with the plans below it. -/

namespace Execution

/-- What an occurrence adds to the object at a place. -/
def added (path : List PathSegment) (o : Occurrence) : Plan.Added := (o.fields, o.errors path)

/-- What occurrences add to the object at a place. -/
def allAdded (path : List PathSegment) (os : List Occurrence) : Plan.Added :=
  (Occurrence.allFields os, Occurrence.allErrors os path)

/-- What an outcome adds to an object. -/
def addedAs (key : String) (o : Outcome WireValue) : Plan.Added :=
  ((o.result.map fun value => (key, value)).toList, o.errors)

theorem allAdded_singleton (path : List PathSegment) (o : Occurrence) : allAdded path [o] = added path o := by
  simp only [allAdded, added, Occurrence.allFields, Occurrence.allErrors, List.append_nil]

variable (x : Execution σ) (expand : Expand σ) (object : ObjectType)

theorem field_eq (field : WireField) (key : String) (given : List (String × Literal)) (parent : Value)
    (path : List PathSegment) :
    addedAs key <$> x.field expand.below object field given parent (path ++ [.key key]) =
      added path <$> x.occurrence expand object field key given parent := by
  unfold Execution.field occurrence
  cases x.arguments field given with
  | error missing => rfl
  | ok arguments =>
    simp only [map_bind]
    refine bind_congr fun resolved => ?_
    cases resolved with
    | ok output => simp only [Model.completeField_eq, Functor.map_map]; rfl
    | error error =>
      simp only [map_pure, addedAs, failedField, added, Occurrence.fields, Occurrence.errors]
      split <;> rfl

theorem fieldNamed_eq (plans : List Plan) (key name : String) (given : List (String × Literal))
    (parent : Value) (path : List PathSegment) :
    addedAs key <$> x.fieldNamed plans expand.below object name given parent (path ++ [.key key]) =
      added path <$> x.occurrenceNamed plans expand object key name given parent := by
  unfold fieldNamed occurrenceNamed
  split
  · rfl
  · have htold : (x.told? object name given plans).map Told.outcome = x.selfField? object name given plans := by
      simp only [told?, Option.map_pmap, Option.pmap_eq_map, Option.map_id']
    rw [← htold]
    cases x.told? object name given plans with
    | some answer => rfl
    | none =>
      cases object.fields.find? fun f => f.name == name with
      | some f => exact x.field_eq expand object f key given parent path
      | none => rfl

end Execution

namespace Plan

open Execution (allAdded allAdded_singleton)

theorem asObject_allAdded {add : ObjectType → Value → List PathSegment → StateM σ Added} {expand : Expand σ}
    (h : ∀ object parent path, add object parent path = allAdded path <$> expand object parent) :
    asObject add = expand.below := by
  funext object parent path
  simp only [asObject, h, bind_pure_comp]
  rfl

mutual

theorem execute_eq (x : Execution σ) (plan : Plan) (object : ObjectType) (parent : Value)
    (path : List PathSegment) :
    execute x plan object parent path = allAdded path <$> occurrences x plan object parent := by
  cases plan with
  | field key name given below =>
    have hbelow : asObject (executeAll x below) = Expand.below (allOccurrences x below) :=
      asObject_allAdded fun object parent path => executeAll_eq x below object parent path
    have hfield := x.fieldNamed_eq (allOccurrences x below) object below key name given parent path
    simp only [execute, occurrences, hbelow, bind_pure_comp, Functor.map_map, allAdded_singleton]
    exact hfield
  | group condition members =>
    simp only [execute, occurrences]
    split
    · exact executeAll_eq x members object parent path
    · rfl

theorem executeAll_eq (x : Execution σ) (plans : List Plan) (object : ObjectType) (parent : Value)
    (path : List PathSegment) :
    executeAll x plans object parent path = allAdded path <$> allOccurrences x plans object parent := by
  cases plans with
  | nil => rfl
  | cons plan rest =>
    simp only [executeAll, allOccurrences, execute_eq x plan, executeAll_eq x rest, bind_map_left, map_bind,
      bind_pure_comp, Functor.map_map, allAdded, Occurrence.allFields_append, Occurrence.allErrors_append]

end

end Plan

/-- The response of an operation is read off the occurrences of fields in it. -/
theorem Execution.respond_eq (x : Execution σ) (root : String) (plans : List Plan) (parent : Value) :
    x.respond root plans parent = Response.ofOccurrences <$> x.occurrences root plans parent := by
  unfold respond occurrences
  match x.model.type? root with
  | some (.object type) =>
    have hbelow : x.below plans = Expand.below (Plan.allOccurrences x plans) :=
      Plan.asObject_allAdded fun object parent path => Plan.executeAll_eq x plans object parent path
    simp only [hbelow, bind_pure_comp, Expand.below, Functor.map_map]
    rfl
  | some (.scalar _) | some (.enum _) | some (.interface _) | some (.inputObject _) | none => rfl

namespace WireValue

end WireValue

namespace Service

theorem respond_eq (s : Service σ) (r : Request) (p : Prepared) :
    s.respond r p = Response.ofOccurrences <$> s.occurrences r p := Execution.respond_eq ..

end Service

end RecordGraph
