import RecordGraph.Proofs.Build.Translation
/-! The translation of a field as a function. What an argument that refers by name is translated to depends on
what is registered when the walk comes to it. Without such arguments a field has one translation in its setting,
whatever the build comes to. -/

namespace RecordGraph

/-- The name by which a type refers to another, through lists and optionals. -/
def HostType.reference? : HostType → Option String
  | .list t | .optional t => t.reference?
  | .named name => some name
  | _ => none

/-- No argument of the field refers by name. -/
def Field.Direct (f : Field) : Prop := ∀ a ∈ f.arguments, a.type.reference? = none

namespace Setting

/-- The wire form of a declared default. -/
def wireDefault? : Option Value → Option (Option WireValue)
  | none => some none
  | some value =>
    match value.toWire with
    | .ok w => some (some w)
    | .error _ => none

/-- The translation of an argument that does not refer by name. -/
def argument? (s : Setting) (a : Argument) : Option WireArgument := do
  let ref ← s.inputRef? {} a.type
  let default ← wireDefault? a.default
  return { name := s.wireName a.name, hostName := a.name, description := a.description,
           type := if a.required then .nonNull ref else ref, default := default }

/-- The translation of a paging argument. -/
def pagingArgument? (s : Setting) (p : String × String × String) : Option WireArgument := do
  let t ← s.scalar? p.2.1
  return { name := p.1, hostName := p.1, description := some p.2.2, type := .named t.wireName }

/-- The translation of an output field whose arguments do not refer by name. -/
def outputField? (s : Setting) (f : Field) : Option WireField := do
  let ref ← s.outputRef? f.type
  let declared ← f.arguments.mapM s.argument?
  let paging ← (pagingOf f declared).mapM s.pagingArgument?
  return { name := s.wireName f.sourceName, hostName := f.sourceName, description := f.description,
           type := if f.default = none ∧ f.type.isOptional = false then .nonNull ref else ref,
           arguments := declared ++ paging, connection := s.bindingOf f }

/-- The translation of the fields that clients may see. -/
def outputFields? (s : Setting) (fields : List Field) : Option (List WireField) :=
  (fields.filter Field.inOutput).mapM s.outputField?

/-- The translation of an input field that does not refer by name. -/
def inputField? (s : Setting) (f : Field) : Option InputField := do
  let ref ← s.inputRef? {} f.type
  let default ← wireDefault? f.default
  return { name := s.wireName f.sourceName, hostName := f.sourceName, description := f.description,
           type := if f.default = none ∧ f.type.isOptional = false then .nonNull ref else ref,
           default := default }

variable {s : Setting}

theorem wireDefault?_eq {value : Option Value} {out : Option WireValue}
    (h : out.map .ok = value.map Value.toWire) : wireDefault? value = some out := by
  cases value with
  | none =>
    rw [Option.map_none, Option.map_eq_none_iff] at h
    rw [h, wireDefault?]
  | some value =>
    obtain ⟨w, rfl, hw⟩ := Option.map_eq_some_iff.mp h
    rw [wireDefault?, ← hw]

/-- Only references by name mean one thing in one draft and another in the next. -/
theorem inputRef?_of_direct {t : HostType} (h : t.reference? = none) (d d' : Draft) :
    s.inputRef? d t = s.inputRef? d' t := by
  induction t with
  | list t ih => rw [inputRef?, inputRef?, ih h]
  | optional t ih => exact ih h
  | named name => cases h
  | _ => rfl

theorem InputRef.eq {d d' : Draft} {t : HostType} {ref : TypeRef} (h : s.InputRef d d' t ref)
    (ht : t.reference? = none) : s.inputRef? {} t = some ref := by
  obtain ⟨mid, -, -, href⟩ := h
  rw [inputRef?_of_direct ht {} mid, href]

end Setting

theorem mapM_of_forall₂ {α β : Type} {R : α → β → Prop} {f : α → Option β} {as : List α} {bs : List β}
    (h : List.Forall₂ R as bs) (hf : ∀ a ∈ as, ∀ b, R a b → f a = some b) : as.mapM f = some bs := by
  induction h with
  | nil => rfl
  | cons hab _ ih =>
    rw [List.forall_mem_cons] at hf
    rw [List.mapM_cons, hf.1 _ hab, ih hf.2]
    rfl

section
variable {s : Setting} {d d' : Draft}

theorem ArgumentForm.eq {a : Argument} {out : WireArgument} (h : ArgumentForm s d d' a out)
    (ha : a.type.reference? = none) : s.argument? a = some out := by
  obtain ⟨ref, href, htype⟩ := h.type
  rw [Setting.argument?, href.eq ha, Setting.wireDefault?_eq h.default]
  obtain ⟨name, hostName, description, type, default⟩ := out
  obtain rfl := h.name
  obtain rfl := h.hostName
  obtain rfl := h.description
  obtain rfl := htype
  rfl

theorem PagingForm.eq {p : String × String × String} {out : WireArgument} (h : PagingForm s p out) :
    s.pagingArgument? p = some out := by
  obtain ⟨t, ht, htype⟩ := h.type
  rw [Setting.pagingArgument?, ht]
  obtain ⟨name, hostName, description, type, default⟩ := out
  obtain rfl := h.name
  obtain rfl := h.hostName
  obtain rfl := h.description
  obtain rfl := htype
  obtain rfl := h.default
  rfl

theorem OutputForm.eq {f : Field} {out : WireField} (h : OutputForm s d d' f out) (hf : f.Direct) :
    s.outputField? f = some out := by
  obtain ⟨ref, href, htype⟩ := h.type
  obtain ⟨declared, paging, hargs, hdeclared, hpaging⟩ := h.arguments
  have hd : f.arguments.mapM s.argument? = some declared :=
    mapM_of_forall₂ hdeclared fun a ha _ hform => hform.eq (hf a ha)
  have hp : (Setting.pagingOf f declared).mapM s.pagingArgument? = some paging :=
    mapM_of_forall₂ hpaging fun _ _ _ hform => hform.eq
  unfold Setting.outputField?
  simp only [href, hd, hp, Option.bind_eq_bind, Option.bind_some]
  obtain ⟨name, hostName, description, type, arguments, connection⟩ := out
  obtain rfl := h.name
  obtain rfl := h.hostName
  obtain rfl := h.description
  obtain rfl := htype
  obtain rfl := hargs
  obtain rfl := h.connection
  rfl

/-- Where no argument refers by name, the forms of declared fields are their translation. -/
theorem outputFields?_eq {declared : List Field} {fields : List WireField}
    (h : List.Forall₂ (OutputForm s d d') (declared.filter Field.inOutput) fields)
    (hd : ∀ f ∈ declared.filter Field.inOutput, f.Direct) : s.outputFields? declared = some fields :=
  mapM_of_forall₂ h fun f hf _ hform => hform.eq (hd f hf)

theorem InputForm.eq {f : Field} {out : InputField} (h : InputForm s d d' f out)
    (hf : f.type.reference? = none) : s.inputField? f = some out := by
  obtain ⟨ref, href, htype⟩ := h.type
  rw [Setting.inputField?, href.eq hf, Setting.wireDefault?_eq h.default]
  obtain ⟨name, hostName, description, type, default⟩ := out
  obtain rfl := h.name
  obtain rfl := h.hostName
  obtain rfl := h.description
  obtain rfl := htype
  rfl

end

end RecordGraph
