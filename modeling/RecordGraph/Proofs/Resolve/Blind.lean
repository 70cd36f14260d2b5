import RecordGraph.Proofs.Resolve.Bare
/-! Fields away from the mutation root. A host is compared with one that never answers with mutate handlers:
told the same and given the same arguments, less mutate handlers, it answers the same, less mutate handlers.
A field that is not one of the mutation root then resolves to the same for both, although the first finds
mutate handlers on its way and the second none: nothing on the way looks for them. -/

namespace RecordGraph

/-- The second computation gives the image of what the first one gives, from related states to related
states. -/
def Erases {σ τ α β : Type} (R : σ → τ → Prop) (f : α → β) (x : StateM σ α) (y : StateM τ β) : Prop :=
  ∀ s t, R s t → (y.run t).1 = f (x.run s).1 ∧ R (x.run s).2 (y.run t).2

/-- The same for computations of a host, whose failures stay as they are. -/
def Hosted.Erases {σ τ α β : Type} (R : σ → τ → Prop) (f : α → β) (x : Hosted σ α) (y : Hosted τ β) : Prop :=
  RecordGraph.Erases R (Except.map f) x.run y.run

section
variable {σ τ α β γ δ : Type} {R : σ → τ → Prop} {f : α → β} {g : γ → δ}

theorem erases_pure (a : α) : Erases R f (pure a : StateM σ α) (pure (f a) : StateM τ β) :=
  fun _ _ h => ⟨rfl, h⟩

theorem erases_bind {x : StateM σ α} {y : StateM τ β} {k : α → StateM σ γ} {l : β → StateM τ δ}
    (hx : Erases R f x y) (hk : ∀ a, Erases R g (k a) (l (f a))) : Erases R g (x >>= k) (y >>= l) := by
  intro s t h
  obtain ⟨hresult, hstate⟩ := hx s t h
  rw [StateT.run_bind, StateT.run_bind]
  change ((l (y.run t).1).run (y.run t).2).1 = g ((k (x.run s).1).run (x.run s).2).1 ∧
    R ((k (x.run s).1).run (x.run s).2).2 ((l (y.run t).1).run (y.run t).2).2
  rw [hresult]
  exact hk _ _ _ hstate

namespace Hosted

theorem erases_lift {r : Except FieldError α} {r' : Except FieldError β} (h : r' = r.map f) :
    Hosted.Erases R f (liftM r) (liftM r') := by
  intro s t hs
  subst h
  cases r <;> exact ⟨rfl, hs⟩

theorem erases_pure {a : α} {b : β} (h : b = f a) : Hosted.Erases R f (pure a) (pure b) :=
  h ▸ fun _ _ hs => ⟨rfl, hs⟩

theorem erases_throw (e : FieldError) : Hosted.Erases R f (throw e) (throw e) :=
  fun _ _ hs => ⟨rfl, hs⟩

theorem erases_bind {x : Hosted σ α} {y : Hosted τ β} {k : α → Hosted σ γ} {l : β → Hosted τ δ}
    (hx : Hosted.Erases R f x y) (hk : ∀ a, Hosted.Erases R g (k a) (l (f a))) :
    Hosted.Erases R g (x >>= k) (y >>= l) := by
  unfold Hosted.Erases
  rw [ExceptT.run_bind, ExceptT.run_bind]
  refine RecordGraph.erases_bind hx fun r => ?_
  cases r with
  | ok a => exact hk a
  | error e => exact fun _ _ hs => ⟨rfl, hs⟩

end Hosted

end

/-! Handlers. -/

/-- An answer without mutate handlers. -/
def Answer.bare : Answer → Answer
  | .value v => .value v.bare
  | .sequence items => .sequence (Emission.bareItems items)

/-- The second host answers what the first one answers, less mutate handlers, and pays no regard to those
in the arguments. -/
def Host.Erases {σ τ : Type} (R : σ → τ → Prop) (host : Host σ) (bare : Host τ) : Prop :=
  ∀ name info arguments, Hosted.Erases R Answer.bare (host.native name info arguments)
    (bare.native name info (Entries.each Value.bare arguments))

namespace Answer

theorem collect_bareItems (items : List Emission) :
    Emission.collect (Emission.bareItems items) = (Emission.collect items).map (List.map Value.bare) := by
  induction items with
  | nil => rfl
  | cons item rest ih =>
    cases item with
    | failure message => rfl
    | value v =>
      change (Emission.collect (Emission.bareItems rest)).map (v.bare :: ·) = _
      rw [ih]
      change _ = ((Emission.collect rest).map (v :: ·)).map (List.map Value.bare)
      cases Emission.collect rest <;> rfl

theorem toValue_bare (a : Answer) : a.bare.toValue = a.toValue.map Value.bare := by
  cases a with
  | value v => rfl
  | sequence items =>
    change (Emission.collect (Emission.bareItems items)).map Value.list = _
    rw [collect_bareItems]
    change _ = ((Emission.collect items).map Value.list).map Value.bare
    cases Emission.collect items with
    | error e => rfl
    | ok values => exact congrArg Except.ok (Value.bare_list values).symm

end Answer

namespace Arguments

variable (a : Arguments) (name : String)

theorem get?_bare : get? (Entries.each Value.bare a) name = (get? a name).map Value.bare := by
  unfold get?
  rw [Entries.get?_each]
  cases Entries.get? a name with
  | none => rfl
  | some v =>
    change (if (!v.bare.isNull) = true then some v.bare else none) =
      (if (!v.isNull) = true then some v else none).map Value.bare
    rw [Value.isNull_bare]
    split <;> rfl

theorem text?_bare : text? (Entries.each Value.bare a) name = text? a name := by
  unfold text?
  rw [get?_bare, Option.bind_map]
  exact congrArg _ (funext Value.asText?_bare)

theorem int?_bare : int? (Entries.each Value.bare a) name = int? a name := by
  unfold int?
  rw [get?_bare, Option.bind_map]
  exact congrArg _ (funext Value.asInt64?_bare)

theorem list?_bare : list? (Entries.each Value.bare a) name = (list? a name).map (List.map Value.bare) := by
  unfold list?
  rw [get?_bare]
  cases get? a name with
  | none => rfl
  | some v => exact v.asList?_bare

theorem view_bare (view : ArgumentView) :
    Arguments.view (Entries.each Value.bare a) view name = (Arguments.view a view name).bare := by
  cases view with
  | any =>
    simp only [Arguments.view, get?_bare]
    cases get? a name <;> rfl
  | text =>
    simp only [Arguments.view, text?_bare]
    cases text? a name <;> rfl
  | integer =>
    simp only [Arguments.view, int?_bare]
    cases int? a name <;> rfl
  | list =>
    simp only [Arguments.view, list?_bare]
    cases list? a name with
    | none => rfl
    | some items => exact (Value.bare_list items).symm

end Arguments

namespace FieldInfo

variable (info : FieldInfo) (arguments : Arguments)

theorem describe_bare : info.describe (Entries.each Value.bare arguments) = (info.describe arguments).bare := by
  have hcontext : (Value.ofText? info.context).bare = Value.ofText? info.context := by
    cases info.context <;> rfl
  simp only [describe, Value.bare, Value.bareEntries, hcontext, Value.bareEntries_eq]

theorem describeLine_bare : info.describeLine (Entries.each Value.bare arguments) = info.describeLine arguments := by
  unfold describeLine
  rw [← Value.bare_mapping, Value.text_bare]

end FieldInfo

namespace Page

/-- A page of elements without mutate handlers. -/
def bare (p : Page) : Page := { p with edges := p.edges.map (Prod.map id Value.bare) }

theorem cut_bare (elements : List Value) (after : Option String) (first : Option Int64) :
    cut (elements.map Value.bare) after first = (cut elements after first).bare := by
  simp only [cut, bare, List.length_map, List.zipIdx_map, List.length_take, List.length_drop,
    List.length_zipIdx, ← List.map_drop, ← List.map_take, List.map_map]
  rfl

/-- A cursor tells an offset, and nothing of the element. -/
theorem cursor_bare (edge : Option (Nat × Value)) : cursor (edge.map (Prod.map id Value.bare)) = cursor edge := by
  cases edge <;> rfl

theorem bare_cursor (edge : Option (Nat × Value)) : (cursor edge).bare = cursor edge := by
  cases edge <;> rfl

theorem toValue_bare (p : Page) : p.bare.toValue = p.toValue.bare := by
  simp only [toValue, bare, List.head?_map, List.getLast?_map, cursor_bare, List.map_map, Value.bare,
    Value.bareEntries, bare_cursor, Value.bareItems_eq]
  rfl

end Page

section
variable {σ τ : Type} {R : σ → τ → Prop} {host : Host σ} {bare : Host τ} (hb : host.Erases R bare)
  (info : FieldInfo) (arguments : Arguments)
include hb

theorem Handler.erases_run (h : Handler) : Hosted.Erases R Answer.bare (h.run host info arguments)
    (h.bare.run bare info (Entries.each Value.bare arguments)) := by
  cases h with
  | give v => exact Hosted.erases_pure rfl
  | fail message => exact Hosted.erases_throw _
  | emit items => exact Hosted.erases_pure rfl
  | describe => exact Hosted.erases_pure (congrArg Answer.value (info.describe_bare arguments))
  | describeLine =>
    exact Hosted.erases_pure (congrArg (Answer.value <| Value.string ·) (info.describeLine_bare arguments))
  | argument view name => exact Hosted.erases_pure (congrArg Answer.value (arguments.view_bare name view))
  | defer h => exact Hosted.erases_pure rfl
  | native name => exact hb name info arguments

theorem Handler.erases_value (h : Handler) : Hosted.Erases R Value.bare (h.value host info arguments)
    (h.bare.value bare info (Entries.each Value.bare arguments)) :=
  Hosted.erases_bind (h.erases_run hb info arguments) fun a => Hosted.erases_lift a.toValue_bare

theorem ConnectionResolver.erases_value (parent : Value) (element : String) (resolver : ConnectionResolver) :
    Hosted.Erases R Value.bare (resolver.value host parent element info arguments)
      (resolver.bare.value bare parent.bare element info (Entries.each Value.bare arguments)) := by
  cases resolver with
  | page =>
    -- What is made of the elements, wherever they come from.
    have hpage (elements : Value) : Hosted.Erases R Value.bare
        (pure (Page.cut (elements.asList?.getD []) (Arguments.text? arguments "after")
          (Arguments.int? arguments "first")).toValue)
        (pure (Page.cut (elements.bare.asList?.getD []) (Arguments.text? (Entries.each Value.bare arguments) "after")
          (Arguments.int? (Entries.each Value.bare arguments) "first")).toValue) := by
      have hitems : elements.bare.asList?.getD [] = (elements.asList?.getD []).map Value.bare := by
        rw [elements.asList?_bare]
        cases elements.asList? <;> rfl
      refine Hosted.erases_pure ?_
      rw [hitems, Arguments.text?_bare, Arguments.int?_bare, Page.cut_bare, Page.toValue_bare]
    simp only [value, ConnectionResolver.bare, parent.resolveHandler?_bare]
    cases parent.resolveHandler? info.fieldName with
    | none => exact hpage (.list [])
    | some h => exact Hosted.erases_bind (h.erases_value hb info arguments) hpage
  | describe =>
    refine Hosted.erases_pure ?_
    simp only [describeConnection, Value.bare, Value.bareEntries, Value.bareEntries_eq]
  | handler h => exact h.erases_value hb info arguments

theorem Value.erases_lookUp (parent : Value) : Hosted.Erases R Value.bare (parent.lookUp host info arguments)
    (parent.bare.lookUp bare info (Entries.each Value.bare arguments)) := by
  cases parent with
  | mapping entries =>
    refine Hosted.erases_pure ?_
    rw [get?_bareEntries]
    cases Entries.get? entries info.fieldName <;> rfl
  | source s =>
    obtain ⟨name, attributes, resolve, mutate, message⟩ := s
    rw [Value.bare]
    simp only [Value.lookUp, Source.resolveHandlers, Source.attributes, Source.bare, Handler.bareEntries_eq,
      Entries.get?_each, get?_bareEntries]
    cases Entries.get? resolve info.fieldName with
    | some h => exact h.erases_value hb info arguments
    | none =>
      refine Hosted.erases_pure ?_
      cases Entries.get? attributes info.fieldName <;> rfl
  | _ => exact Hosted.erases_pure rfl

theorem Value.erases_call (v : Value) : Hosted.Erases R Value.bare (v.call host info arguments)
    (v.bare.call bare info (Entries.each Value.bare arguments)) := by
  cases v with
  | callable h => exact h.erases_value hb info arguments
  | _ => exact Hosted.erases_pure rfl

/-! Fields. -/

namespace Model

variable {m : Model} (hm : m.Blind) {r : FieldRequest}

omit hb in
theorem requestedField_bare (m : Model) (r : FieldRequest) :
    m.bare.requestedField r = (m.requestedField r).map WireField.bare := by
  unfold requestedField
  rw [field?_bare]
  cases m.field? r.parentType r.wireName <;> rfl

include hm

/-- Away from the mutation root a field resolves as if there were no mutate handlers. -/
theorem erases_resolveField (hr : m.atMutationRoot r = false) (parent : Value) :
    Hosted.Erases R Value.bare (m.resolveField host parent r) (m.bare.resolveField bare parent.bare r) := by
  have hr' : m.bare.atMutationRoot r = false := hr
  refine Hosted.erases_bind (Hosted.erases_lift (m.requestedField_bare r)) fun field => ?_
  refine Hosted.erases_bind (Hosted.erases_lift (decodeArguments_bare hm field r.arguments)) fun arguments => ?_
  have hinfo : infoOf field.bare r = infoOf field r := rfl
  have hfound : Hosted.Erases R Value.bare
      (parent.lookUp host (infoOf field r) arguments >>= fun v => v.call host (infoOf field r) arguments)
      (parent.bare.lookUp bare (infoOf field r) (Entries.each Value.bare arguments) >>= fun v =>
        v.call bare (infoOf field r) (Entries.each Value.bare arguments)) :=
    Hosted.erases_bind (parent.erases_lookUp hb (infoOf field r) arguments) fun v => v.erases_call hb _ arguments
  simp only [hr, hr', hinfo, Bool.false_eq_true, if_false]
  cases hbinding : field.connection with
  | none =>
    have hbare : field.bare.connection = none := by rw [WireField.bare, hbinding]; rfl
    rw [hbare]
    exact hfound
  | some binding =>
    have hbare : field.bare.connection = some binding.bare := by rw [WireField.bare, hbinding]; rfl
    rw [hbare]
    obtain ⟨element, resolver⟩ := binding
    cases resolver with
    | none => exact hfound
    | some resolver => exact resolver.erases_value hb (infoOf field r) arguments parent element

theorem erases_resolveOutput (hr : m.atMutationRoot r = false) (parent : Value) :
    Hosted.Erases R Output.bare (m.resolveOutput host parent r) (m.bare.resolveOutput bare parent.bare r) := by
  refine Hosted.erases_bind (erases_resolveField hb hm hr parent) fun value => ?_
  refine Hosted.erases_bind (Hosted.erases_lift (m.requestedField_bare r)) fun field => ?_
  exact Hosted.erases_lift (encode_bare hm field.type value)

end Model

end

end RecordGraph
