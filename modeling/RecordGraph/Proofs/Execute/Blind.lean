import RecordGraph.Proofs.Resolve.Blind
import RecordGraph.Service.Basic
/-! Operations that are no mutations. Whatever fields they select and wherever these stand, none of them is
a field of the mutation root during a mutation, so the whole execution goes as if no value that it meets had
a mutate handler. By induction on the plans the response is the same; two services that differ in mutate
handlers only answer such a request alike. -/

namespace RecordGraph

variable {σ τ : Type} {R : σ → τ → Prop}

/-- What is executed below a value does not depend on mutate handlers. -/
def Below.Erases (R : σ → τ → Prop) (below : Below σ) (below' : Below τ) : Prop :=
  ∀ type parent path, RecordGraph.Erases R id (below type parent path) (below' type.bare parent.bare path)

namespace Output

theorem parent_bare (o : Output) : o.bare.parent = o.parent.bare := by cases o <;> rfl

end Output

namespace Model

variable {m : Model} {below : Below σ} {below' : Below τ} (hbelow : Below.Erases R below below')
  (path : List PathSegment)

theorem completeScalar_bare (type : ScalarType) (output : Output) :
    completeScalar type.bare path output.bare = completeScalar type path output := by
  cases output <;> rfl

theorem completeEnum_bare (type : EnumType) (output : Output) :
    completeEnum type path output.bare = completeEnum type path output := by
  cases output <;> rfl

include hbelow

theorem erases_completeObject (type : ObjectType) (output : Output) :
    Erases R id (m.completeObject below type path output) (m.bare.completeObject below' type.bare path output.bare) := by
  have hroot : m.bare.isSubscription type.bare = m.isSubscription type := rfl
  unfold completeObject
  rw [hroot, output.parent_bare]
  split
  · exact erases_pure _
  · exact hbelow type output.parent path

theorem erases_completeInterface (name : String) (output : Output) :
    Erases R id (m.completeInterface below name path output)
      (m.bare.completeInterface below' name path output.bare) := by
  cases output with
  | object concrete v =>
    cases concrete with
    | none => exact erases_pure _
    | some concrete =>
      simp only [completeInterface, Output.bare, type?_bare, implementing_bare]
      cases m.type? concrete with
      | none => exact erases_pure _
      | some type =>
        cases type with
        | object type =>
          dsimp only [Option.map, WireType.bare]
          split
          · exact hbelow type v path
          · exact erases_pure _
        | _ => exact erases_pure _
  | _ => exact erases_pure _

theorem erases_completeNamed (name : String) (output : Output) :
    Erases R id (m.completeNamed below name output path)
      (m.bare.completeNamed below' name output.bare path) := by
  unfold completeNamed
  rw [type?_bare]
  cases m.type? name with
  | none => exact erases_pure _
  | some type =>
    cases type with
    | scalar type =>
      change Erases R id (pure (completeScalar type path output)) (pure (completeScalar type.bare path output.bare))
      rw [completeScalar_bare]
      exact erases_pure _
    | enum type =>
      change Erases R id (pure (completeEnum type path output)) (pure (completeEnum type path output.bare))
      rw [completeEnum_bare]
      exact erases_pure _
    | object type => exact erases_completeObject hbelow path type output
    | interface type => exact erases_completeInterface hbelow path type.name output
    | inputObject type => exact erases_pure _

omit hbelow in
theorem erases_completeItems {complete : Output → List PathSegment → StateM σ (Outcome WireValue)}
    {complete' : Output → List PathSegment → StateM τ (Outcome WireValue)}
    (h : ∀ output path, Erases R id (complete output path) (complete' output.bare path)) (position : Nat)
    (items : List Output) : Erases R id (completeItems complete path position items)
      (completeItems complete' path position (items.map Output.bare)) := by
  induction items generalizing position with
  | nil => exact erases_pure _
  | cons item rest ih =>
    refine erases_bind (h item _) fun first => ?_
    simp only [id]
    cases first.result with
    | none => exact erases_pure _
    | some value => exact erases_bind (ih _) fun others => erases_pure _

theorem erases_complete (type : TypeRef) (output : Output) :
    Erases R id (m.complete below type output path) (m.bare.complete below' type output.bare path) := by
  induction type generalizing output path with
  | nonNull inner ih => exact ih path output
  | named name => exact erases_completeNamed hbelow path name output
  | list element ih =>
    cases output with
    | list items =>
      rw [Output.bare, Output.bareItems_eq]
      exact erases_bind (erases_completeItems path (fun output path => ih path output) 0 items) fun items =>
        erases_pure _
    | _ => exact erases_pure _

theorem erases_completeField (type : TypeRef) (output : Output) :
    Erases R id (m.completeField below type output path) (m.bare.completeField below' type output.bare path) := by
  cases output with
  | null => exact erases_pure _
  | _ => exact erases_complete hbelow path type _

end Model

namespace Execution

/-- The execution by a bare model and a host without mutate handlers. -/
def bare (x : Execution σ) (host : Host τ) : Execution τ :=
  { model := x.model.bare, host := host, self := x.self, kind := x.kind, context := x.context
    lookUp := x.lookUp }

/-- A field of an object for which mutate handlers do not count. -/
def AwayFromMutations (x : Execution σ) (object : ObjectType) : Prop :=
  x.kind ≠ .mutation ∨ x.model.mutation ≠ some object.name

variable {x : Execution σ} {host : Host τ} (hb : x.host.Erases R host) (hm : x.model.Blind)

theorem atMutationRoot_of_away {object : ObjectType} (h : x.AwayFromMutations object) (field : WireField)
    (arguments : List (String × WireValue)) :
    x.model.atMutationRoot { parentType := object.name, wireName := field.name, operation := x.kind
                             arguments := arguments, context := x.context } = false := by
  unfold Model.atMutationRoot
  rcases h with h | h
  · rw [beq_eq_false_iff_ne.mpr h, Bool.false_and]
  · rw [beq_eq_false_iff_ne.mpr h, Bool.and_false]

include hb hm

/-- A field away from mutations is executed as if there were no mutate handlers. -/
theorem erases_field {below : Below σ} {below' : Below τ} (hbelow : Below.Erases R below below')
    {object : ObjectType} (ho : x.AwayFromMutations object) (field : WireField)
    (given : List (String × Literal)) (parent : Value) (path : List PathSegment) :
    Erases R id (x.field below object field given parent path)
      ((x.bare host).field below' object.bare field.bare given parent.bare path) := by
  unfold Execution.field
  have harguments : (x.bare host).arguments field.bare given = x.arguments field given := rfl
  rw [harguments]
  cases x.arguments field given with
  | error missing => exact erases_pure _
  | ok arguments =>
    have houtput := Model.erases_resolveOutput hb hm (atMutationRoot_of_away ho field arguments) parent
    refine erases_bind houtput fun result => ?_
    cases result with
    | ok output => exact Model.erases_completeField hbelow path field.type output
    | error e => exact erases_pure _

theorem erases_fieldNamed (plans : List Plan) {below : Below σ} {below' : Below τ}
    (hbelow : Below.Erases R below below') {object : ObjectType} (ho : x.AwayFromMutations object)
    (name : String) (given : List (String × Literal)) (parent : Value) (path : List PathSegment) :
    Erases R id (x.fieldNamed plans below object name given parent path)
      ((x.bare host).fieldNamed plans below' object.bare name given parent.bare path) := by
  have hself : (x.bare host).selfField? object.bare name given plans = x.selfField? object name given plans := rfl
  unfold fieldNamed
  rw [hself]
  split
  · exact erases_pure _
  · cases x.selfField? object name given plans with
    | some outcome => exact erases_pure _
    | none =>
      have hfields : object.bare.fields = object.fields.map WireField.bare := rfl
      rw [hfields, Model.find?_bare]
      cases object.fields.find? fun f => f.name == name with
      | some f => exact erases_field hb hm hbelow ho f given parent path
      | none => exact erases_pure _

end Execution

namespace Plan

variable {x : Execution σ} {host : Host τ}

theorem erases_asObject {add : ObjectType → Value → List PathSegment → StateM σ Added}
    {add' : ObjectType → Value → List PathSegment → StateM τ Added}
    (h : ∀ object parent path, Erases R id (add object parent path) (add' object.bare parent.bare path)) :
    Below.Erases R (asObject add) (asObject add') := fun object parent path =>
  erases_bind (h object parent path) fun _ => erases_pure _

mutual

theorem erases_execute (hb : x.host.Erases R host) (hm : x.model.Blind) (hk : x.kind ≠ .mutation) (plan : Plan)
    (object : ObjectType) (parent : Value) (path : List PathSegment) :
    Erases R id (execute x plan object parent path) (execute (x.bare host) plan object.bare parent.bare path) := by
  cases plan with
  | field key name given below =>
    have hbelow : Below.Erases R (asObject (executeAll x below)) (asObject (executeAll (x.bare host) below)) :=
      erases_asObject fun object parent path => erases_executeAll hb hm hk below object parent path
    have haway : x.AwayFromMutations object := .inl hk
    have hfield := Execution.erases_fieldNamed hb hm below hbelow haway name given parent (path ++ [.key key])
    exact erases_bind hfield fun _ => erases_pure _
  | group condition members =>
    have happlies : (x.bare host).applies object.bare condition = x.applies object condition := rfl
    unfold execute
    simp only [happlies]
    split
    · exact erases_executeAll hb hm hk members object parent path
    · exact erases_pure _

theorem erases_executeAll (hb : x.host.Erases R host) (hm : x.model.Blind) (hk : x.kind ≠ .mutation)
    (plans : List Plan) (object : ObjectType) (parent : Value) (path : List PathSegment) :
    Erases R id (executeAll x plans object parent path)
      (executeAll (x.bare host) plans object.bare parent.bare path) := by
  cases plans with
  | nil => exact erases_pure _
  | cons plan rest =>
    refine erases_bind (erases_execute hb hm hk plan object parent path) fun _ => ?_
    exact erases_bind (erases_executeAll hb hm hk rest object parent path) fun _ => erases_pure _

end

end Plan

/-- A response to an operation that is no mutation does not depend on mutate handlers. -/
theorem Execution.erases_respond {x : Execution σ} {host : Host τ} (hb : x.host.Erases R host)
    (hm : x.model.Blind) (hk : x.kind ≠ .mutation) (root : String) (plans : List Plan) (parent : Value) :
    Erases R id (x.respond root plans parent) ((x.bare host).respond root plans parent.bare) := by
  have hbelow : Below.Erases R (x.below plans) ((x.bare host).below plans) :=
    Plan.erases_asObject fun object parent path => Plan.erases_executeAll hb hm hk plans object parent path
  have htype : (x.bare host).model.type? root = (x.model.type? root).map WireType.bare := x.model.type?_bare root
  unfold respond
  rw [htype]
  cases x.model.type? root with
  | none => exact erases_pure _
  | some type =>
    cases type with
    | object type => exact erases_bind (hbelow type parent []) fun outcome => erases_pure _
    | _ => exact erases_pure _

/-! Requests. -/

/-- A request for the fields of a value without mutate handlers. -/
def Request.bare (r : Request) : Request := { r with root := r.root.map Value.bare }

namespace Service

variable {s : Service σ} {b : Service τ} {r : Request}

/-- The second service is the first one without mutate handlers: with a bare model and bare values for the
roots, and a host that answers the same without them. -/
structure Erases (R : σ → τ → Prop) (s : Service σ) (b : Service τ) : Prop where
  model : b.model = s.model.bare
  settings : b.settings = s.settings
  values : ∀ kind, b.values.get kind = (s.values.get kind).bare
  host : s.host.Erases R b.host

namespace Erases

variable (h : s.Erases R b)
include h

theorem table_eq : b.table = s.table := by
  unfold table
  rw [h.model, h.settings, Model.table_bare]

theorem prepare_eq (r : Request) : b.prepare r.bare = s.prepare r := by
  unfold prepare
  rw [h.table_eq, h.settings]
  rfl

theorem execution_eq (r : Request) (p : Prepared) : b.execution r.bare p = (s.execution r p).bare b.host := by
  have hself : b.self = s.self := by
    unfold self
    rw [h.table_eq, h.settings]
  simp only [execution, Execution.bare, hself, h.model]
  rfl

theorem rootValue_eq (r : Request) (kind : OperationKind) : b.rootValue r.bare kind = (s.rootValue r kind).bare := by
  unfold rootValue
  rw [h.values]
  change (r.root.map Value.bare).getD (s.values.get kind).bare = _
  cases r.root <;> rfl

theorem respond (hm : s.model.Blind) (r : Request) {p : Prepared} (hk : p.kind ≠ .mutation) :
    RecordGraph.Erases R id (s.respond r p) (b.respond r.bare p) := by
  unfold Service.respond rootName
  rw [h.execution_eq, h.rootValue_eq, h.table_eq]
  exact Execution.erases_respond h.host hm hk _ p.plans (s.rootValue r p.kind)

/-- A request that means no mutation is answered as if there were no mutate handlers. -/
theorem run (hm : s.model.Blind) (hk : ∀ p, s.prepare r = .ok p → p.kind ≠ .mutation) :
    RecordGraph.Erases R id (s.run r) (b.run r.bare) := by
  delta Service.run
  rw [h.prepare_eq]
  cases hp : s.prepare r with
  | error cause => exact erases_pure _
  | ok p =>
    dsimp only
    split
    · exact erases_pure _
    · exact h.respond hm r (hk p hp)

end Erases

end Service

end RecordGraph
