import RecordGraph.Proofs.Build.Casing
import RecordGraph.Proofs.Value.Bare
import RecordGraph.Resolve.Dispatch
import RecordGraph.Schema.Table
/-! Models without mutate handlers. A model is bare when nothing that its host code answers has a mutate
handler. Requests see the same types in it, and what it decodes and encodes is what the model decodes and
encodes, less mutate handlers, provided that codecs and loaders do not look at them. -/

namespace RecordGraph

/-! Taking mutate handlers away. -/

/-- A scalar that reads values without mutate handlers. -/
def ScalarType.bare (t : ScalarType) : ScalarType :=
  { t with codec := { t.codec with parse := fun w => (t.codec.parse w).map Value.bare } }

def ConnectionResolver.bare : ConnectionResolver → ConnectionResolver
  | .handler h => .handler h.bare
  | resolver => resolver

def ConnectionBinding.bare (b : ConnectionBinding) : ConnectionBinding :=
  { b with resolver := b.resolver.map ConnectionResolver.bare }

def WireField.bare (f : WireField) : WireField := { f with connection := f.connection.map ConnectionBinding.bare }

def ObjectType.bare (t : ObjectType) : ObjectType := { t with fields := t.fields.map WireField.bare }

def InterfaceType.bare (t : InterfaceType) : InterfaceType := { t with fields := t.fields.map WireField.bare }

/-- An input object whose loader answers values without mutate handlers. -/
def InputObjectType.bare (t : InputObjectType) : InputObjectType :=
  { t with loader := t.loader.map fun l fields => (l fields).map Value.bare }

def WireType.bare : WireType → WireType
  | .scalar t => .scalar t.bare
  | .enum t => .enum t
  | .object t => .object t.bare
  | .interface t => .interface t.bare
  | .inputObject t => .inputObject t.bare

/-- A model whose host code answers values without mutate handlers. -/
def Model.bare (m : Model) : Model := { m with types := m.types.map WireType.bare }

mutual

/-- An encoded value without mutate handlers. -/
def Output.bare : Output → Output
  | .null => .null
  | .value w => .value w
  | .object name v => .object name v.bare
  | .list items => .list (Output.bareItems items)

/-- Encoded items without mutate handlers. -/
def Output.bareItems : List Output → List Output
  | [] => []
  | item :: rest => item.bare :: Output.bareItems rest

end

/-- A loader makes the same of fields without mutate handlers, up to mutate handlers. -/
def Loader.Blind (l : Loader) : Prop :=
  ∀ fields : List (String × Value), (l (Entries.each Value.bare fields)).map Value.bare = (l fields).map Value.bare

/-- The host code of a model does not look at mutate handlers. -/
structure Model.Blind (m : Model) : Prop where
  codec : ∀ {name t}, m.type? name = some (.scalar t) → t.codec.Blind
  loader : ∀ {name t l}, m.type? name = some (.inputObject t) → t.loader = some l → Loader.Blind l

theorem Output.bareItems_eq (items : List Output) : bareItems items = items.map bare := by
  induction items with
  | nil => rfl
  | cons item rest ih => rw [bareItems, ih, List.map_cons]

namespace Model

variable (m : Model)

theorem type?_bare (name : String) : m.bare.type? name = (m.type? name).map WireType.bare :=
  Registry.get?_map

theorem values_bare : m.bare.types.values = m.types.values.map WireType.bare := Array.toList_map ..

theorem fields?_bare (t : WireType) : t.bare.fields? = t.fields?.map (List.map WireField.bare) := by
  cases t <;> rfl

theorem find?_bare (fields : List WireField) (name : String) :
    (fields.map WireField.bare).find? (fun f => f.name == name) =
      (fields.find? fun f => f.name == name).map WireField.bare := by
  rw [List.find?_map]
  rfl

theorem field?_bare (type field : String) : m.bare.field? type field = (m.field? type field).map WireField.bare := by
  unfold field?
  rw [type?_bare]
  cases m.type? type with
  | none => rfl
  | some t =>
    change (t.bare.fields?.bind fun fields => fields.find? fun f => f.name == field) =
      (t.fields?.bind fun fields => fields.find? fun f => f.name == field).map WireField.bare
    rw [fields?_bare]
    cases t.fields? with
    | none => rfl
    | some fields => exact find?_bare fields field

/-! Requests see the same types. -/

theorem objects_bare : m.bare.objects = m.objects.map ObjectType.bare := by
  unfold objects
  rw [values_bare, List.filterMap_map, List.map_filterMap]
  congr 1
  funext t
  cases t <;> rfl

theorem implementing_bare (interface : String) : m.bare.implementing interface = m.implementing interface := by
  unfold implementing
  rw [objects_bare, List.filter_map, List.map_map]
  rfl

theorem definition?_bare (t : WireType) : m.bare.definition? t.bare = m.definition? t := by
  have hfields (fields : List WireField) :
      (fields.map WireField.bare).map WireField.definition = fields.map WireField.definition := by
    rw [List.map_map]
    rfl
  cases t with
  | scalar t => rfl
  | enum t => rfl
  | object t => exact congrArg (fun fs => some (TypeDefinition.object t.name t.description fs _)) (hfields t.fields)
  | interface t =>
    change some (TypeDefinition.interface t.name t.description (t.bare.fields.map WireField.definition)
      (m.bare.implementing t.name)) = _
    rw [implementing_bare]
    exact congrArg (fun fs => some (TypeDefinition.interface t.name t.description fs _)) (hfields t.fields)
  | inputObject t => rfl

theorem table_bare (introspection : Bool) : TypeTable.ofModel m.bare introspection = .ofModel m introspection := by
  have hdefinitions : m.bare.definitions = m.definitions := by
    unfold definitions
    rw [values_bare, List.filterMap_map]
    exact congrArg (List.filterMap · _) (funext m.definition?_bare)
  unfold TypeTable.ofModel
  rw [hdefinitions]
  rfl

end Model

/-! Reading what a client sent. -/

theorem Entries.insert_each {α β : Type} (f : α → β) (entries : Entries α) (name : String) (value : α) :
    insert (each f entries) name (f value) = each f (insert entries name value) := by
  induction entries with
  | nil => rfl
  | cons first rest ih =>
    obtain ⟨key, old⟩ := first
    change (if key = name then _ else _) = each f (if key = name then _ else _)
    split
    · rfl
    · exact congrArg ((key, f old) :: ·) ih

section
variable {M : Type → Type} [Monad M] [LawfulMonad M] {α β γ : Type}

/-- A traversal whose steps give results that are changed gives the results changed. -/
theorem mapM_map_result {f : α → M β} {g : β → γ} {h : α → M γ} (hf : ∀ a, h a = g <$> f a) (as : List α) :
    as.mapM h = List.map g <$> as.mapM f := by
  induction as with
  | nil => simp only [List.mapM_nil, map_pure, List.map_nil]
  | cons a as ih => simp only [List.mapM_cons, hf, ih, map_bind, bind_map_left, map_pure, List.map_cons]

/-- A fold whose steps go from changed results to changed results ends with the result changed. -/
theorem foldlM_map_result {f : β → α → M β} {g : β → γ} {h : γ → α → M γ} (hf : ∀ b a, h (g b) a = g <$> f b a)
    (as : List α) (b : β) : as.foldlM h (g b) = g <$> as.foldlM f b := by
  induction as generalizing b with
  | nil => simp only [List.foldlM_nil, map_pure]
  | cons a as ih => simp only [List.foldlM_cons, hf, ih, map_bind, bind_map_left]

end

namespace Model

variable {m : Model} (hm : m.Blind)

theorem decodeSteps_bare (m : Model) (type : TypeRef) (value : WireValue) :
    m.bare.decodeSteps type value = m.decodeSteps type value := by
  have hfields : m.bare.inputFields = m.inputFields := by
    unfold inputFields
    rw [values_bare, List.flatMap_map]
    refine congrArg (List.flatMap · _) (funext fun t => ?_)
    cases t <;> rfl
  unfold decodeSteps inputDefaults
  rw [hfields]

theorem decodeFields_bare {decode decode' : TypeRef → WireValue → Bounded Value}
    (hd : ∀ type value, decode' type value = Value.bare <$> decode type value)
    (entries : List (String × WireValue)) (fields : List InputField) (decoded : List (String × Value)) :
    decodeFields decode' entries (Entries.each Value.bare decoded) fields =
      Entries.each Value.bare <$> decodeFields decode entries decoded fields := by
  induction fields generalizing decoded with
  | nil => simp only [decodeFields, map_pure]
  | cons f rest ih =>
    unfold decodeFields
    split
    · simp only [hd, Entries.insert_each, ih, map_bind, bind_map_left]
    · exact ih decoded

theorem map_mapError {ε ε' α β : Type} (f : ε → ε') (g : α → β) (r : Except ε α) :
    (r.map g).mapError f = (r.mapError f).map g := by
  cases r <;> rfl

theorem liftM_map {α β : Type} (f : α → β) (r : Except FieldError α) :
    (liftM (r.map f) : Bounded β) = f <$> (liftM r : Bounded α) := by
  cases r <;> rfl

theorem load_bare {loader : Option Loader} (hl : ∀ l, loader = some l → Loader.Blind l)
    (fields : List (String × Value)) :
    load (loader.map fun l fields => (l fields).map Value.bare) (Entries.each Value.bare fields) =
      (load loader fields).map Value.bare := by
  cases loader with
  | none => exact congrArg Except.ok (Value.bare_mapping fields).symm
  | some l => exact hl l rfl fields

theorem decodeObject_bare {decode decode' : TypeRef → WireValue → Bounded Value}
    (hd : ∀ type value, decode' type value = Value.bare <$> decode type value) {type : InputObjectType}
    (hl : ∀ l, type.loader = some l → Loader.Blind l) (value : WireValue) :
    decodeObject decode' type.bare value = Value.bare <$> decodeObject decode type value := by
  cases value with
  | object entries =>
    have hfields := decodeFields_bare hd entries type.fields []
    change (decodeFields decode' entries (Entries.each Value.bare []) type.fields >>= fun fields =>
      liftM (load (type.loader.map fun l fields => (l fields).map Value.bare) fields)) = _
    simp only [decodeObject, hfields, bind_map_left, load_bare hl, liftM_map, map_bind]
  | _ => rfl

include hm

theorem decodeNamed_bare {decode decode' : TypeRef → WireValue → Bounded Value}
    (hd : ∀ type value, decode' type value = Value.bare <$> decode type value) (name : String)
    (value : WireValue) : m.bare.decodeNamed decode' name value = Value.bare <$> m.decodeNamed decode name value := by
  unfold decodeNamed
  rw [type?_bare]
  cases ht : m.type? name with
  | none => rfl
  | some t =>
    cases t with
    | scalar t =>
      change (liftM (((t.codec.parse value).map Value.bare).mapError FieldError.codec) : Bounded Value) =
        Value.bare <$> (liftM ((t.codec.parse value).mapError FieldError.codec) : Bounded Value)
      cases t.codec.parse value <;> rfl
    | enum t =>
      change (liftM ((t.parse value).mapError FieldError.codec) : Bounded Value) =
        Value.bare <$> (liftM ((t.parse value).mapError FieldError.codec) : Bounded Value)
      rw [← liftM_map, ← map_mapError, t.bare_parse]
    | inputObject t => exact decodeObject_bare hd (fun l hl => hm.loader ht hl) value
    | object t => rfl
    | interface t => rfl

theorem decodeWithin_bare (steps : Nat) (type : TypeRef) (value : WireValue) :
    m.bare.decodeWithin steps type value = Value.bare <$> m.decodeWithin steps type value := by
  induction steps generalizing type value with
  | zero => rfl
  | succ steps ih =>
    have hitems (inner : TypeRef) (items : List WireValue) := mapM_map_result (ih inner) items
    cases type with
    | nonNull inner => exact ih inner value
    | named name =>
      cases value with
      | null => rfl
      | _ => exact decodeNamed_bare hm ih name _
    | list inner =>
      cases value with
      | null => rfl
      | list items =>
        simp only [decodeWithin, hitems, map_bind, bind_map_left, map_pure, Value.bare_list]
      | _ => simp only [decodeWithin, ih, map_bind, bind_map_left, map_pure, Value.bare_list, List.map_singleton]

theorem decode_bare (type : TypeRef) (value : WireValue) :
    m.bare.decode type value = (m.decode type value).map Value.bare := by
  unfold decode
  rw [decodeSteps_bare, decodeWithin_bare hm, ExceptT.run_map]
  cases (m.decodeWithin (m.decodeSteps type value) type value).run <;> rfl

/-- The arguments of a field, as handlers are given them. -/
theorem decodeArguments_bare (field : WireField) (given : List (String × WireValue)) :
    m.bare.decodeArguments field.bare given = (m.decodeArguments field given).map (Entries.each Value.bare) := by
  unfold decodeArguments
  refine foldlM_map_result (M := Except FieldError) (g := Entries.each Value.bare) (fun decoded argument => ?_)
    field.arguments []
  cases Entries.get? given argument.name with
  | none => rfl
  | some value =>
    dsimp only
    rw [decode_bare hm]
    cases m.decode argument.type value with
    | error e => rfl
    | ok v => exact congrArg Except.ok (Entries.insert_each ..)

end Model

/-! Writing what a host answered. -/

namespace Model

variable {m : Model} (hm : m.Blind)

theorem concreteType_bare (m : Model) (interface : String) (value : Value) :
    m.bare.concreteType interface value.bare = m.concreteType interface value := by
  unfold concreteType
  rw [Value.typeName?_bare]
  cases value.typeName? with
  | none => rfl
  | some name =>
    dsimp only
    rw [type?_bare]
    cases m.type? name with
    | none => rfl
    | some t => cases t <;> rfl

include hm

theorem encodeNamed_bare (name : String) (value : Value) :
    m.bare.encodeNamed name value.bare = (m.encodeNamed name value).map Output.bare := by
  unfold encodeNamed
  rw [type?_bare]
  cases ht : m.type? name with
  | none => rfl
  | some t =>
    cases t with
    | scalar t =>
      change ((t.codec.serialize value.bare).mapError FieldError.codec).map Output.value =
        (((t.codec.serialize value).mapError FieldError.codec).map Output.value).map Output.bare
      rw [hm.codec ht]
      cases t.codec.serialize value <;> rfl
    | enum t =>
      change ((t.serialize value.bare).mapError FieldError.codec).map Output.value =
        (((t.serialize value).mapError FieldError.codec).map Output.value).map Output.bare
      rw [t.serialize_bare]
      cases t.serialize value <;> rfl
    | object t => rfl
    | interface t =>
      change (m.bare.concreteType t.name value.bare).map (fun concrete => Output.object (some concrete) value.bare) =
        ((m.concreteType t.name value).map fun concrete => Output.object (some concrete) value).map Output.bare
      rw [concreteType_bare]
      cases m.concreteType t.name value <;> rfl
    | inputObject t => rfl

theorem encode_bare (type : TypeRef) (value : Value) :
    m.bare.encode type value.bare = (m.encode type value).map Output.bare := by
  induction type generalizing value with
  | nonNull inner ih => exact ih value
  | named name =>
    cases value with
    | null => rfl
    | _ => exact encodeNamed_bare hm name _
  | list inner ih =>
    cases value with
    | null => rfl
    | list items =>
      have hitems : (items.map Value.bare).mapM (m.bare.encode inner) =
          (items.mapM (m.encode inner)).map (List.map Output.bare) :=
        List.mapM_map.trans (mapM_map_result ih items)
      rw [Value.bare_list]
      change ((items.map Value.bare).mapM (m.bare.encode inner)).map Output.list =
        ((items.mapM (m.encode inner)).map Output.list).map Output.bare
      rw [hitems]
      cases items.mapM (m.encode inner) with
      | error e => rfl
      | ok outputs => exact congrArg (Except.ok <| Output.list ·) (Output.bareItems_eq outputs).symm
    | _ => rfl

end Model

end RecordGraph
