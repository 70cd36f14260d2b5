import RecordGraph.Proofs.Except
import RecordGraph.Service.Basic
/-! Executions that leave the host as it is. Take a kind of values such that resolving any field of one of them
leaves the state of the host alone and gives a value of the kind again. From a root of the kind on, whatever an
operation selects, it meets values of the kind only, so all of its execution leaves the state alone. -/

namespace RecordGraph

variable {σ α β : Type}

/-- A computation that leaves the state as it is, and gives what is asked for. -/
def Calm (post : α → Prop) (x : StateM σ α) : Prop := ∀ s, post (x.run s).1 ∧ (x.run s).2 = s

/-- The same for computations of a host, which may fail. -/
def Hosted.Calm (post : α → Prop) (x : Hosted σ α) : Prop :=
  RecordGraph.Calm (fun result => ∀ a, result = .ok a → post a) x.run

section
variable {post : α → Prop} {post' : β → Prop}

theorem calm_pure {a : α} (h : post a) : Calm post (pure a : StateM σ α) := fun _ => ⟨h, rfl⟩

theorem calm_bind {x : StateM σ α} {k : α → StateM σ β} (hx : Calm post x)
    (hk : ∀ a, post a → Calm post' (k a)) : Calm post' (x >>= k) := by
  intro s
  obtain ⟨ha, hs⟩ := hx s
  obtain ⟨hb, hs'⟩ := hk _ ha (x.run s).2
  rw [StateT.run_bind]
  exact ⟨hb, hs'.trans hs⟩

namespace Hosted

theorem calm_lift {r : Except FieldError α} (h : ∀ a, r = .ok a → post a) :
    Hosted.Calm post (liftM r : Hosted σ α) := by
  intro s
  cases r <;> exact ⟨h, rfl⟩

theorem calm_pure {a : α} (h : post a) : Hosted.Calm post (pure a : Hosted σ α) :=
  fun _ => ⟨fun _ hb => by cases hb; exact h, rfl⟩

theorem calm_throw (e : FieldError) : Hosted.Calm post (throw e : Hosted σ α) := fun _ => ⟨nofun, rfl⟩

theorem calm_bind {x : Hosted σ α} {k : α → Hosted σ β} (hx : Hosted.Calm post x)
    (hk : ∀ a, post a → Hosted.Calm post' (k a)) : Hosted.Calm post' (x >>= k) := by
  unfold Hosted.Calm
  rw [ExceptT.run_bind]
  refine RecordGraph.calm_bind hx fun r hr => ?_
  cases r with
  | ok a => exact hk a (hr a rfl)
  | error e => exact RecordGraph.calm_pure nofun

end Hosted

end

/-! Values that are encoded. -/

/-- The values in an output are of a kind. -/
inductive Output.Within (kind : Value → Prop) : Output → Prop
  | null : Within kind .null
  | value (w : WireValue) : Within kind (.value w)
  | object {typeName : Option String} {v : Value} (hv : kind v) : Within kind (.object typeName v)
  | list {items : List Output} (hitems : ∀ o ∈ items, Within kind o) : Within kind (.list items)

theorem Output.Within.parent {kind : Value → Prop} {o : Output} (hnull : kind .null) (h : o.Within kind) :
    kind o.parent := by
  cases h with
  | object hv => exact hv
  | _ => exact hnull

namespace Model

variable {m : Model} {kind : Value → Prop} {type : TypeRef} {v : Value} {o : Output}

theorem within_encodeNamed {name : String} (hv : kind v) (h : m.encodeNamed name v = .ok o) : o.Within kind := by
  unfold encodeNamed at h
  cases htype : m.type? name with
  | none =>
    rw [htype] at h
    cases h
  | some t =>
    rw [htype] at h
    cases t with
    | scalar t | enum t =>
      obtain ⟨w, -, rfl⟩ := map_eq_ok.mp h
      exact .value w
    | object t =>
      cases h
      exact .object hv
    | interface t =>
      obtain ⟨concrete, -, rfl⟩ := map_eq_ok.mp h
      exact .object hv
    | inputObject t => cases h

theorem within_encode (hitems : ∀ {items}, kind (.list items) → ∀ v ∈ items, kind v) (hv : kind v)
    (h : m.encode type v = .ok o) : o.Within kind := by
  induction type generalizing v o with
  | nonNull inner ih => exact ih hv h
  | named name =>
    cases v with
    | null =>
      cases h
      exact .null
    | _ => exact within_encodeNamed hv h
  | list element ih =>
    cases v with
    | null =>
      cases h
      exact .null
    | list items =>
      obtain ⟨outputs, houtputs, rfl⟩ := map_eq_ok.mp h
      refine .list fun o ho => ?_
      obtain ⟨item, hitem, ho⟩ := exists_of_mem_right (mapM_eq_ok.mp houtputs) ho
      exact ih (hitems hv item hitem) ho
    | _ => cases h

end Model

/-! Executions. -/

/-- What is executed below a value of a kind leaves the state as it is. -/
def Below.Calm (kind : Value → Prop) (below : Below σ) : Prop :=
  ∀ type parent path, kind parent → RecordGraph.Calm (fun _ => True) (below type parent path)

/-- Fields of a kind of values are resolved to the kind again and leave the state as it is. -/
structure Execution.Calm (x : Execution σ) (kind : Value → Prop) : Prop where
  null : kind .null
  items : ∀ {items}, kind (.list items) → ∀ v ∈ items, kind v
  resolve : ∀ {parent request}, kind parent → request.operation = x.kind →
    Hosted.Calm kind (x.model.resolveField x.host parent request)

namespace Model

variable {m : Model} {kind : Value → Prop} {below : Below σ} (hnull : kind .null) (hbelow : below.Calm kind)
include hnull hbelow

theorem calm_completeNamed {name : String} {output : Output} (path : List PathSegment)
    (ho : output.Within kind) : Calm (fun _ => True) (m.completeNamed below name output path) := by
  unfold completeNamed
  cases m.type? name with
  | none => exact calm_pure trivial
  | some t =>
    cases t with
    | object type =>
      dsimp only [completeObject]
      split
      · exact calm_pure trivial
      · exact hbelow type output.parent path (ho.parent hnull)
    | interface type =>
      cases ho with
      | @object concrete v hv =>
        cases concrete with
        | none => exact calm_pure trivial
        | some concrete =>
          dsimp only [completeInterface]
          cases m.type? concrete with
          | none => exact calm_pure trivial
          | some t =>
            cases t with
            | object type =>
              dsimp only
              split
              · exact hbelow type v path hv
              · exact calm_pure trivial
            | _ => exact calm_pure trivial
      | _ => exact calm_pure trivial
    | _ => exact calm_pure trivial

omit hnull hbelow in
theorem calm_completeItems {complete : Output → List PathSegment → StateM σ (Outcome WireValue)}
    {items : List Output} (path : List PathSegment)
    (h : ∀ o ∈ items, ∀ path, Calm (fun _ => True) (complete o path)) (position : Nat) :
    Calm (fun _ => True) (completeItems complete path position items) := by
  induction items generalizing position with
  | nil => exact calm_pure trivial
  | cons item rest ih =>
    rw [List.forall_mem_cons] at h
    refine calm_bind (h.1 _) fun first _ => ?_
    cases first.result with
    | none => exact calm_pure trivial
    | some value => exact calm_bind (ih h.2 _) fun others _ => calm_pure trivial

theorem calm_complete {type : TypeRef} {output : Output} (path : List PathSegment) (ho : output.Within kind) :
    Calm (fun _ => True) (m.complete below type output path) := by
  induction type generalizing output path with
  | nonNull inner ih => exact ih path ho
  | named name => exact calm_completeNamed hnull hbelow path ho
  | list element ih =>
    cases ho with
    | list hitems =>
      refine calm_bind (calm_completeItems path (fun o ho path => ih path (hitems o ho)) 0) fun items _ => ?_
      exact calm_pure trivial
    | _ => exact calm_pure trivial

theorem calm_completeField {type : TypeRef} {output : Output} (path : List PathSegment)
    (ho : output.Within kind) : Calm (fun _ => True) (m.completeField below type output path) := by
  cases output with
  | null => exact calm_pure trivial
  | _ => exact calm_complete hnull hbelow path ho

end Model

namespace Execution.Calm

variable {x : Execution σ} {kind : Value → Prop} (h : x.Calm kind)
include h

theorem resolveOutput {parent : Value} {request : FieldRequest} (hp : kind parent)
    (hr : request.operation = x.kind) :
    Hosted.Calm (Output.Within kind) (x.model.resolveOutput x.host parent request) := by
  refine Hosted.calm_bind (h.resolve hp hr) fun v hv => ?_
  refine Hosted.calm_bind (Hosted.calm_lift fun _ _ => trivial) fun field (_ : True) => ?_
  exact Hosted.calm_lift fun o ho => Model.within_encode h.items hv ho

theorem field {below : Below σ} (hbelow : below.Calm kind) (object : ObjectType) (field : WireField)
    (given : List (String × Literal)) {parent : Value} (hp : kind parent) (path : List PathSegment) :
    RecordGraph.Calm (fun _ => True) (x.field below object field given parent path) := by
  unfold Execution.field
  cases x.arguments field given with
  | error missing => exact calm_pure trivial
  | ok arguments =>
    refine calm_bind (h.resolveOutput hp rfl) fun result hresult => ?_
    cases result with
    | ok output => exact Model.calm_completeField h.null hbelow path (hresult output rfl)
    | error e => exact calm_pure trivial

theorem fieldNamed (plans : List Plan) {below : Below σ} (hbelow : below.Calm kind) (object : ObjectType)
    (name : String) (given : List (String × Literal)) {parent : Value} (hp : kind parent)
    (path : List PathSegment) :
    RecordGraph.Calm (fun _ => True) (x.fieldNamed plans below object name given parent path) := by
  unfold Execution.fieldNamed
  split
  · exact calm_pure trivial
  · cases x.selfField? object name given plans with
    | some outcome => exact calm_pure trivial
    | none =>
      cases object.fields.find? fun f => f.name == name with
      | some f => exact h.field hbelow object f given hp path
      | none => exact calm_pure trivial

end Execution.Calm

namespace Plan

variable {x : Execution σ} {kind : Value → Prop}

theorem calm_asObject {add : ObjectType → Value → List PathSegment → StateM σ Added}
    (h : ∀ object {parent}, kind parent → ∀ path, Calm (fun _ => True) (add object parent path)) :
    Below.Calm kind (asObject add) := fun object _ path hp =>
  calm_bind (h object hp path) fun _ _ => calm_pure trivial

mutual

theorem calm_execute (h : x.Calm kind) (plan : Plan) (object : ObjectType) {parent : Value} (hp : kind parent)
    (path : List PathSegment) : Calm (fun _ => True) (execute x plan object parent path) := by
  cases plan with
  | field key name given below =>
    have hbelow : Below.Calm kind (asObject (executeAll x below)) :=
      calm_asObject fun object _ hp path => calm_executeAll h below object hp path
    have hfield := h.fieldNamed below hbelow object name given hp (path ++ [PathSegment.key key])
    exact calm_bind hfield fun _ _ => calm_pure trivial
  | group condition members =>
    unfold execute
    split
    · exact calm_executeAll h members object hp path
    · exact calm_pure trivial

theorem calm_executeAll (h : x.Calm kind) (plans : List Plan) (object : ObjectType) {parent : Value}
    (hp : kind parent) (path : List PathSegment) :
    Calm (fun _ => True) (executeAll x plans object parent path) := by
  cases plans with
  | nil => exact calm_pure trivial
  | cons plan rest =>
    refine calm_bind (calm_execute h plan object hp path) fun _ _ => ?_
    exact calm_bind (calm_executeAll h rest object hp path) fun _ _ => calm_pure trivial

end

end Plan

/-- An operation on a root of the kind leaves the state as it is. -/
theorem Execution.Calm.respond {x : Execution σ} {kind : Value → Prop} (h : x.Calm kind) (root : String)
    (plans : List Plan) {parent : Value} (hp : kind parent) :
    RecordGraph.Calm (fun _ => True) (x.respond root plans parent) := by
  unfold Execution.respond
  cases x.model.type? root with
  | none => exact calm_pure trivial
  | some t =>
    cases t with
    | object type =>
      have hbelow : Below.Calm kind (x.below plans) :=
        Plan.calm_asObject fun object _ hp path => Plan.calm_executeAll h plans object hp path
      exact calm_bind (hbelow type parent [] hp) fun _ _ => calm_pure trivial
    | _ => exact calm_pure trivial

end RecordGraph
