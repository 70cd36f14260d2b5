import RecordGraph.Proofs.Resolve.Paging
/-! Callables that are called. A callable that stands under a key, in an attribute or in the answer of a resolve
handler is called once, and told about the field and its arguments. What the called one answers is the value of the
field, and so is what a mutate handler or a connection handler answers: a callable in such an answer is handed out as
it is. All other values of fields are no callables. -/

namespace RecordGraph

variable {σ : Type} {host : Host σ} {parent : Value} {info : FieldInfo} {arguments : Arguments}
  {before between : σ} {h : Handler}

namespace Handler

/-- A handler answers with a callable. -/
def Defers (host : Host σ) (info : FieldInfo) (arguments : Arguments) (before : σ) (h : Handler) : Prop :=
  ∃ g after, (h.run host info arguments).run before = (.ok (.value (.callable g)), after)

/-- A sequence is collected into a list, so only a single value can be a callable. -/
theorem exists_callable_iff : (∃ g after, (h.value host info arguments).run before = (.ok (.callable g), after)) ↔
    h.Defers host info arguments before := by
  constructor
  · rintro ⟨g, after, hvalue⟩
    obtain ⟨answer, between, hrun, hanswer⟩ := Hosted.run_bind_eq_ok.mp hvalue
    obtain ⟨hvalue, rfl⟩ := Hosted.run_lift_eq_ok.mp hanswer
    cases answer with
    | value v =>
      cases hvalue
      exact ⟨g, between, hrun⟩
    | sequence items =>
      rw [Answer.toValue] at hvalue
      cases hitems : Emission.collect items with
      | error e =>
        rw [hitems] at hvalue
        cases hvalue
      | ok values =>
        rw [hitems] at hvalue
        cases hvalue
  · rintro ⟨g, after, hrun⟩
    exact ⟨g, after, Hosted.run_bind_eq_ok.mpr ⟨_, after, hrun, rfl⟩⟩

end Handler

/-- How a field is answered. -/
inductive Route where
  | mutate (handler : Handler)
  | connect (element : String) (resolver : ConnectionResolver)
  | lookUp

namespace Route

/-- The answer that a parent gives on a route. -/
def answer (host : Host σ) (parent : Value) (info : FieldInfo) (arguments : Arguments) : Route → Hosted σ Value
  | mutate handler => handler.value host info arguments
  | connect element resolver => resolver.value host parent element info arguments
  | lookUp => do
    let found ← parent.lookUp host info arguments
    found.call host info arguments

/-- The handlers whose answers are handed out as they are, each with the state in which it is run: mutate handlers,
handlers of connections, and callables that are found at the parent. -/
inductive Passes (host : Host σ) (parent : Value) (info : FieldInfo) (arguments : Arguments) (before : σ) :
    Route → Handler → σ → Prop
  | mutate (handler : Handler) : Passes host parent info arguments before (.mutate handler) handler before
  | connect (element : String) (handler : Handler) :
    Passes host parent info arguments before (.connect element (.handler handler)) handler before
  | found {handler : Handler} {between : σ}
    (hfound : (parent.lookUp host info arguments).run before = (.ok (.callable handler), between)) :
    Passes host parent info arguments before .lookUp handler between

/-- Such a handler is told about the field and its arguments, and its answer is the one of the route. -/
theorem Passes.run_eq {route : Route} (hpasses : route.Passes host parent info arguments before h between) :
    (route.answer host parent info arguments).run before = (h.value host info arguments).run between := by
  cases hpasses with
  | mutate => rfl
  | connect => rfl
  | found hfound => exact Hosted.run_bind hfound

/-- A page is a mapping, and so is the description of a request. -/
theorem connect_callable {element : String} {resolver : ConnectionResolver} {g : Handler} {after : σ}
    (hanswer : (resolver.value host parent element info arguments).run before = (.ok (.callable g), after)) :
    ∃ handler, resolver = .handler handler := by
  cases resolver with
  | page =>
    rw [ConnectionResolver.value_page] at hanswer
    obtain ⟨elements, between, -, hpage⟩ := Hosted.run_bind_eq_ok.mp hanswer
    cases (Hosted.run_pure_eq_ok.mp hpage).1
  | describe => cases (Hosted.run_pure_eq_ok.mp hanswer).1
  | handler handler => exact ⟨handler, rfl⟩

/-- Only what a callable answers can be a callable after the call. -/
theorem found_callable {found : Value} {g : Handler} {after : σ}
    (hcall : (found.call host info arguments).run between = (.ok (.callable g), after)) :
    ∃ handler, found = .callable handler := by
  cases found with
  | callable handler => exact ⟨handler, rfl⟩
  | _ => cases (Hosted.run_pure_eq_ok.mp hcall).1

/-- A route ends with a callable exactly if a handler does whose answer it hands out. -/
theorem exists_callable_iff (route : Route) :
    (∃ g after, (route.answer host parent info arguments).run before = (.ok (.callable g), after)) ↔
      ∃ h between, route.Passes host parent info arguments before h between ∧ h.Defers host info arguments between := by
  constructor
  · rintro ⟨g, after, hanswer⟩
    cases route with
    | mutate handler => exact ⟨handler, before, .mutate handler, Handler.exists_callable_iff.mp ⟨g, after, hanswer⟩⟩
    | connect element resolver =>
      obtain ⟨handler, rfl⟩ := connect_callable hanswer
      exact ⟨handler, before, .connect element handler, Handler.exists_callable_iff.mp ⟨g, after, hanswer⟩⟩
    | lookUp =>
      obtain ⟨found, between, hfound, hcall⟩ := Hosted.run_bind_eq_ok.mp hanswer
      obtain ⟨handler, rfl⟩ := found_callable hcall
      exact ⟨handler, between, .found hfound, Handler.exists_callable_iff.mp ⟨g, after, hcall⟩⟩
  · rintro ⟨h, between, hpasses, hdefers⟩
    rw [hpasses.run_eq]
    exact Handler.exists_callable_iff.mpr hdefers

end Route

namespace Model

variable {m : Model} {r : FieldRequest}

/-- The route of a request: a mutate handler comes first, but on the mutation root only, and the resolver of a
connection comes second. -/
def route (m : Model) (parent : Value) (r : FieldRequest) (field : WireField) : Route :=
  match if m.atMutationRoot r then parent.mutateHandler? field.hostName else none,
    field.connection.bind fun b => b.resolver.map fun resolver => (b, resolver) with
  | some handler, _ => .mutate handler
  | none, some (binding, resolver) => .connect binding.elementType resolver
  | none, none => .lookUp

/-- A handler whose answer a request hands out as it is, with what the handler is told and the state it is run in. -/
structure Passes (m : Model) (host : Host σ) (parent : Value) (r : FieldRequest) (before : σ) (h : Handler)
    (field : WireField) (arguments : Arguments) (between : σ) : Prop where
  requested : m.requestedField r = .ok field
  decoded : m.decodeArguments field r.arguments = .ok arguments
  passes : (m.route parent r field).Passes host parent (infoOf field r) arguments before h between

theorem resolveField_of_decoded {field : WireField} (hfield : m.requestedField r = .ok field)
    (hdecode : m.decodeArguments field r.arguments = .ok arguments) :
    m.resolveField host parent r = (m.route parent r field).answer host parent (infoOf field r) arguments := by
  simp only [resolveField, hfield, Hosted.lift_ok_bind, hdecode, route]
  generalize (if m.atMutationRoot r then parent.mutateHandler? field.hostName else none) = mutate
  generalize (field.connection.bind fun b => b.resolver.map fun resolver => (b, resolver)) = connect
  cases mutate with
  | some handler => rfl
  | none => cases connect <;> rfl

/-- Whoever asks for a field whose value a handler gives is given what the handler answers, told about the field and
its decoded arguments. This value is a callable if the handler answers one, and in no other case is the value of a
field a callable, whichever way it came: a key, an attribute, the answer of a resolve handler, a page or a sequence. -/
theorem callables_called_iff (m : Model) (host : Host σ) (parent : Value) (r : FieldRequest) (before : σ) :
    (∀ h field arguments between, m.Passes host parent r before h field arguments between →
      (m.resolveField host parent r).run before = (h.value host (infoOf field r) arguments).run between) ∧
    ((∃ g after, (m.resolveField host parent r).run before = (.ok (.callable g), after)) ↔
      ∃ h field arguments between, m.Passes host parent r before h field arguments between ∧
        h.Defers host (infoOf field r) arguments between) := by
  refine ⟨?_, ?_, ?_⟩
  · intro h field arguments between hpasses
    rw [resolveField_of_decoded hpasses.requested hpasses.decoded]
    exact hpasses.passes.run_eq
  · rintro ⟨g, after, hresolve⟩
    -- Without a field or with arguments that cannot be decoded there is no value at all.
    obtain ⟨field, _, hrequest, hrest⟩ := Hosted.run_bind_eq_ok.mp hresolve
    obtain ⟨arguments, _, hread, -⟩ := Hosted.run_bind_eq_ok.mp hrest
    have hfield := (Hosted.run_lift_eq_ok.mp hrequest).1
    have hdecode := (Hosted.run_lift_eq_ok.mp hread).1
    rw [resolveField_of_decoded hfield hdecode] at hresolve
    obtain ⟨h, between, hpasses, hdefers⟩ := (m.route parent r field).exists_callable_iff.mp ⟨g, after, hresolve⟩
    exact ⟨h, field, arguments, between, ⟨hfield, hdecode, hpasses⟩, hdefers⟩
  · rintro ⟨h, field, arguments, between, hpasses, hdefers⟩
    rw [resolveField_of_decoded hpasses.requested hpasses.decoded]
    exact (m.route parent r field).exists_callable_iff.mpr ⟨h, between, hpasses.passes, hdefers⟩

/-- A shop whose root has a motto, a shelf of books with a handler of its own, and a way to rename it. -/
def mottoShop : Model where
  types := (Registry.empty.add "Shop" (.object
    { name := "Shop"
      fields := [
        { name := "motto", hostName := "motto", type := .named "String" },
        { name := "rename", hostName := "rename", type := .named "String" },
        { name := "shelf", hostName := "shelf", type := .named "Shelf"
          connection := some ⟨"Book", some (.handler (.defer (.give .null)))⟩ }] })).1
  query := "Shop"
  mutation := some "Shop"
  subscription := none
  casing := .camel

/-- A request for a field of the shop without arguments. -/
def shopRequest (field : String) (operation : OperationKind) : FieldRequest :=
  { parentType := "Shop", wireName := field, operation := operation, arguments := [] }

/-- A motto that is worked out when it is asked for. -/
def lateMotto : Value := .mapping [("motto", .callable (.give (.string "Read on")))]

theorem lateMotto_called : mottoShop.Passes Host.plain lateMotto (shopRequest "motto" .query) () (.give (.string "Read on"))
      { name := "motto", hostName := "motto", type := .named "String" } [] () ∧
    (mottoShop.resolveField Host.plain lateMotto (shopRequest "motto" .query)).run () =
      (.ok (.string "Read on"), ()) := by
  have hpasses : mottoShop.Passes Host.plain lateMotto (shopRequest "motto" .query) () (.give (.string "Read on"))
      { name := "motto", hostName := "motto", type := .named "String" } [] () := ⟨rfl, rfl, .found rfl⟩
  exact ⟨hpasses, (callables_called_iff mottoShop Host.plain lateMotto (shopRequest "motto" .query) ()).1 _ _ _ _ hpasses⟩

/-- What a mutate handler, the handler of a connection or a callable defers is handed out uncalled. -/
theorem deferred_handed_out :
    (mottoShop.resolveField Host.plain (.source (.mk "Shop" [] [] [("rename", .defer (.give .null))] []))
      (shopRequest "rename" .mutation)).run () = (.ok (.callable (.give .null)), ()) ∧
    (mottoShop.resolveField Host.plain .null (shopRequest "shelf" .query)).run () =
      (.ok (.callable (.give .null)), ()) ∧
    (mottoShop.resolveField Host.plain (.mapping [("motto", .callable (.defer (.give .null)))])
      (shopRequest "motto" .query)).run () = (.ok (.callable (.give .null)), ()) :=
  ⟨rfl, rfl, rfl⟩

end Model

end RecordGraph
