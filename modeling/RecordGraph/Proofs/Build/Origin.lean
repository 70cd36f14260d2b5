import RecordGraph.Proofs.Build.Closure
import RecordGraph.Proofs.Build.Ending
import RecordGraph.Proofs.Build.Memo
import RecordGraph.Proofs.Build.Translation
import RecordGraph.Proofs.Except
/-! Where the types of a built model come from. Whatever stands in the registry when a build is done was
put there by one of few builders, and each of them fixes the content of what it registers: the fields of a
declared record in the forms of their declarations, or the parts that every connection has. While a build
is under way this fails of the types that are registered unfinished; what holds at every step is that the
types which a successful builder has added have an origin. -/

namespace RecordGraph

namespace Setting

/-- The records of a schema: those that a walk may meet, and the roots under the names of their types. -/
def declared (s : Setting) (roots : RootRecords) : List Record :=
  s.knownRecords ++ { roots.query with name := "Query" } ::
    ((roots.mutation.toList.map fun r => { r with name := "Mutation" }) ++
      roots.subscription.toList.map fun r => { r with name := "Subscription" })

/-- No scalar of paging has the name on the wire. -/
def Undisplaced (s : Setting) (name : String) : Prop :=
  ∀ hostName ∈ Build.pagingScalars, (s.scalar? hostName).map ScalarType.wireName ≠ some name

end Setting

/-- An output field as its declaration has it, with the connection type that it answers pages of. -/
structure FieldForm (s : Setting) (d d' : Draft) (f : Field) (out : WireField) : Prop
    extends OutputForm s d d' f out where
  registered : ∀ {kind element r}, f.type.stripOptional = .connection kind element →
    Build.elementRecord? s element = some r → s.Undisplaced (r.name ++ "Connection") →
    d'.types.Holds WireType.isObject (r.name ++ "Connection")

/-- Output fields stand for the declared ones that clients may see, in order and under distinct names. -/
structure FieldForms (s : Setting) (d d' : Draft) (declared : List Field) (fields : List WireField) :
    Prop where
  forms : List.Forall₂ (FieldForm s d d') (declared.filter Field.inOutput) fields
  distinct : (fields.map WireField.name).Nodup

/-- How a type came to be registered on the way from one draft to another. -/
inductive Origin (s : Setting) (roots : RootRecords) (d d' : Draft) : WireType → Prop
  | scalar {hostName : String} {t : ScalarType} (ht : s.scalar? hostName = some t) :
      Origin s roots d d' (.scalar t)
  | enum (t : EnumType) : Origin s roots d d' (.enum t)
  | marker {id string boolean : TypeRef} {t : WireType} (hid : s.outputRef? (.scalar "ID") = some id)
      (hstring : s.outputRef? (.scalar "String") = some string)
      (hboolean : s.outputRef? (.scalar "bool") = some boolean)
      (ht : t ∈ Build.markerTypes s id string boolean) (hm : d'.Marked) : Origin s roots d d' t
  | record {r : Record} {fields : List WireField} (hr : r ∈ s.declared roots)
      (hf : FieldForms s d d' r.fields fields) :
      Origin s roots d d' (.object { name := r.name, description := r.description, fields := fields,
                                     interfaces := r.interfaces })
  | interface {r : Record} {fields : List WireField} (hr : r ∈ s.options.interfaces)
      (hf : FieldForms s d d' r.fields fields) :
      Origin s roots d d' (.interface { name := r.name, description := r.description, fields := fields })
  | inputObject {r : Record} {fields : List InputField} (hr : r ∈ s.declared roots)
      (hf : List.Forall₂ (InputForm s d d') (r.fields.filter Field.inInput) fields)
      (hd : (fields.map InputField.name).Nodup) :
      Origin s roots d d' (.inputObject { name := r.name ++ "Input", description := r.description,
                                          fields := fields, loader := r.loader })
  | node {r : Record} {fields : List WireField} (hr : r ∈ s.knownRecords)
      (hf : FieldForms s d d' r.fields fields) :
      Origin s roots d d' (.object { name := r.name ++ "Node", description := r.description,
                                     fields := fields, interfaces := ["Node"] })
  | edge {r : Record} {cursor : TypeRef} (hr : r ∈ s.knownRecords)
      (hcursor : s.outputRef? (.scalar "String") = some cursor) :
      Origin s roots d d' (.object (Build.edgeType r cursor))
  | connection {kind : String} {r : Record} {fields : List WireField} (hr : r ∈ s.knownRecords)
      (hf : FieldForms s d d' (Build.kindOf s kind).fields fields)
      (hnode : d'.types.Holds WireType.isObject (r.name ++ "Node"))
      (hedge : d'.types.Holds WireType.isObject (r.name ++ "Edge"))
      (hconnection : d'.types.Holds WireType.isInterface "Connection") :
      Origin s roots d d' (Build.connectionType s kind r (Build.connectionHead s r ++ fields))

/-! Origins on a longer way. -/

section
variable {s : Setting} {roots : RootRecords} {d e e' d' : Draft}

theorem Draft.Marked.of_keeps (h : e'.types.Keeps d'.types) (hm : e'.Marked) : d'.Marked :=
  { pageInfo := h.holds WireType.isObject_congr hm.pageInfo
    node := h.holds WireType.isInterface_congr hm.node
    edge := h.holds WireType.isInterface_congr hm.edge
    connection := h.holds WireType.isInterface_congr hm.connection }

theorem FieldForm.widen {f : Field} {out : WireField} (h1 : d.Grows e) (h2 : e'.types.Keeps d'.types)
    (h : FieldForm s e e' f out) : FieldForm s d d' f out where
  toOutputForm := h.toOutputForm.widen h1 h2
  registered hc hr hu := h2.holds WireType.isObject_congr (h.registered hc hr hu)

theorem FieldForms.widen {declared : List Field} {fields : List WireField} (h1 : d.Grows e)
    (h2 : e'.types.Keeps d'.types) (h : FieldForms s e e' declared fields) :
    FieldForms s d d' declared fields :=
  ⟨h.forms.imp fun _ _ hf => hf.widen h1 h2, h.distinct⟩

theorem FieldForms.declaration_of_mem {declared : List Field} {fields : List WireField} {out : WireField}
    (h : FieldForms s d d' declared fields) (hout : out ∈ fields) :
    ∃ f ∈ declared, FieldForm s d d' f out := by
  obtain ⟨f, hf, hform⟩ := exists_of_mem_right h.forms hout
  exact ⟨f, List.mem_of_mem_filter hf, hform⟩

theorem Origin.widen {t : WireType} (h1 : d.Grows e) (h2 : e'.types.Keeps d'.types)
    (h : Origin s roots e e' t) : Origin s roots d d' t := by
  cases h with
  | scalar ht => exact .scalar ht
  | enum t => exact .enum t
  | marker hid hstring hboolean ht hm => exact .marker hid hstring hboolean ht (hm.of_keeps h2)
  | record hr hf => exact .record hr (hf.widen h1 h2)
  | interface hr hf => exact .interface hr (hf.widen h1 h2)
  | inputObject hr hf hd => exact .inputObject hr (hf.imp fun _ _ hf => hf.widen h1 h2) hd
  | node hr hf => exact .node hr (hf.widen h1 h2)
  | edge hr hcursor => exact .edge hr hcursor
  | connection hr hf hnode hedge hconnection =>
    exact .connection hr (hf.widen h1 h2) (h2.holds WireType.isObject_congr hnode)
      (h2.holds WireType.isObject_congr hedge) (h2.holds WireType.isInterface_congr hconnection)

end

/-- The second draft holds the types of the first, and others that have an origin, each under its name. -/
structure Draft.Makes (s : Setting) (roots : RootRecords) (d d' : Draft) : Prop where
  grows : d.Grows d'
  origin : ∀ {name t}, d'.types.get? name = some t →
    d.types.get? name = some t ∨ name = t.name ∧ Origin s roots d d' t

namespace Draft

variable {s : Setting} {roots : RootRecords} {d d' d₁ d₂ : Draft} {t u : WireType} {name : String}

theorem Makes.refl (d : Draft) : d.Makes s roots d := ⟨.refl d, .inl⟩

theorem Makes.trans {d₁ d₂ d₃ : Draft} (h1 : d₁.Makes s roots d₂) (h2 : d₂.Makes s roots d₃) :
    d₁.Makes s roots d₃ where
  grows := h1.grows.trans h2.grows
  origin h := by
    rcases h2.origin h with h | ⟨hname, ho⟩
    · exact (h1.origin h).imp_right fun ho => ⟨ho.1, ho.2.widen (.refl _) h2.grows.keeps⟩
    · exact .inr ⟨hname, ho.widen h1.grows (.refl _)⟩

theorem Makes.add (hk : t.NamedByKind) (ht : Origin s roots d (d.add t) t) : d.Makes s roots (d.add t) where
  grows := d.grows_add hk
  origin hu := by
    rcases get?_add_cases hu with hu | ⟨hname, rfl⟩
    · exact .inl hu
    · exact .inr ⟨hname, ht⟩

theorem Makes.noteConnection (extra : List String) (h : d.Makes s roots d')
    (hn : d.types.get? name = none) : d.Makes s roots (d'.noteConnection name extra) where
  grows := h.grows.noteConnection hn
  origin hu :=
    have hsame : d'.types.Keeps (d'.noteConnection name extra).types := .refl d'.types
    (h.origin hu).imp_right fun ho => ⟨ho.1, ho.2.widen (.refl _) hsame⟩

/-- A builder registers its type unfinished, takes the steps below it, and completes it. -/
theorem Makes.complete (h : d.Makes s roots d₁) (hk : u.NamedByKind) (h1 : (d₁.add u).Makes s roots d₂)
    (hn : d.types.get? t.name = none) (hname : u.name = t.name) (hkind : u.kind = t.kind)
    (ht : Origin s roots (d₁.add u) d₂ t) : d.Makes s roots (d₂.replace t) where
  grows := (h.grows.trans ((d₁.grows_add hk).trans h1.grows)).replace hn
  origin {name v} hv := by
    have hadd := d₁.grows_add hk
    have hkeep := d₂.keeps_replace t
    -- What is found is the finished type, or from the steps below it, or from before, and not the
    -- unfinished type, which the finished one has replaced.
    rcases get?_replace_cases hv with ⟨hown, rfl⟩ | ⟨hv2, hother⟩
    · exact .inr ⟨hown, ht.widen (h.grows.trans hadd) hkeep⟩
    rcases h1.origin hv2 with hv1 | ⟨hown, ho⟩
    · rcases get?_add_cases hv1 with hv0 | ⟨rfl, rfl⟩
      · refine (h.origin hv0).imp_right fun ho => ⟨ho.1, ho.2.widen (.refl _) ?_⟩
        exact (hadd.trans h1.grows).keeps.trans hkeep
      · exact absurd hkind (hother hname)
    · exact .inr ⟨hown, ho.widen (h.grows.trans hadd) hkeep⟩

end Draft

namespace HostType

/-- A connection below optionals is the connection type of the whole. -/
theorem connectionName?_stripOptional {s : Setting} {t : HostType} {kind : String} {element : HostType}
    {r : Record} (ht : t.stripOptional = .connection kind element)
    (hr : Build.elementRecord? s element = some r) : t.connectionName? s = some (r.name ++ "Connection") := by
  induction t with
  | optional inner ih => exact ih ht
  | connection kind' element' =>
    cases ht
    exact connectionName?_connection hr
  | _ => cases ht

end HostType

/-- A walk whose steps add types with an origin. -/
structure Walker.Makes (s : Setting) (roots : RootRecords) (w : Walker) : Prop where
  output : ∀ {t d ref d'}, (w.output t).Gives d ref d' → d.Makes s roots d'
  input : ∀ {t d ref d'}, (w.input t).Gives d ref d' → d.Makes s roots d'

namespace Build

variable {α β : Type} {s : Setting} {roots : RootRecords} {d d' : Draft} {ref : TypeRef}

theorem Steps.makes {x : α → Build β} {as : List α} {bs : List β} (h : Steps x d as bs d')
    (hx : ∀ a ∈ as, ∀ {e b e'}, (x a).Gives e b e' → e.Makes s roots e') : d.Makes s roots d' :=
  h.lift (R := Draft.Makes s roots) .refl (fun h1 h2 => h1.trans h2) fun a ha => hx a ha

/-! Leaves. -/

theorem makes_scalar {hostName : String} (h : (scalar s hostName).Gives d ref d') :
    d.Makes s roots d' := by
  obtain ⟨t, ht, -, ⟨-, rfl⟩ | ⟨-, rfl⟩⟩ := gives_scalar h
  · exact .refl _
  · exact .add trivial (.scalar ht)

theorem ref_scalar {hostName : String} (h : (scalar s hostName).Gives d ref d') :
    s.outputRef? (.scalar hostName) = some ref := by
  obtain ⟨t, ht, rfl, -⟩ := gives_scalar h
  rw [Setting.outputRef?, ht, Option.map_some]

theorem makes_enum {e : EnumType} (h : (enum e).Gives d ref d') : d.Makes s roots d' := by
  obtain ⟨-, ⟨-, rfl⟩ | ⟨-, -, rfl⟩⟩ := gives_enum h
  · exact .refl _
  · exact .add trivial (.enum e)

theorem makes_markers {u : Unit} (h : (markers s).Gives d u d') : d.Makes s roots d' := by
  obtain ⟨-, rfl⟩ | ⟨hno, hm⟩ := marked_of_gives h
  · exact .refl _
  obtain ⟨-, rfl⟩ | ⟨-, id, string, boolean, d1, d2, d3, us, h1, h2, h3, hs⟩ := gives_markers h
  · exact .refl _
  have hg : d3.Grows d' := hs.grows fun t ht => grows_addUnlessPresent (namedByKind_markerTypes t ht)
  refine ((makes_scalar h1).trans ((makes_scalar h2).trans (makes_scalar h3))).trans ⟨hg, fun ht => ?_⟩
  exact (get?_addAll_cases hs ht).imp_right fun hnew =>
    ⟨hnew.1, .marker (ref_scalar h1) (ref_scalar h2) (ref_scalar h3) hnew.2 hm⟩

/-! Builders that use a walk for the types below them. -/

section
variable {steps : Nat} (hw : (Walker.within s steps).Makes s roots)
include hw

theorem makes_argument {field : String} {a : Argument} {out : WireArgument}
    (h : (argument s (.within s steps) field a).Gives d out d') : d.Makes s roots d' := by
  obtain ⟨-, ref, default, href, -⟩ := gives_argument h
  exact hw.input href

omit hw in
theorem makes_pagingArgument {p : String × String × String} {out : WireArgument}
    (h : (pagingArgument s p).Gives d out d') : d.Makes s roots d' := by
  obtain ⟨ref, href, -⟩ := gives_map.mp h
  exact makes_scalar href

theorem makes_outputField {f : Field} {out : WireField}
    (h : (outputField s (.within s steps) f).Gives d out d') : d.Makes s roots d' := by
  obtain ⟨ref, declared, d1, d2, href, hargs, arguments, binding, -, hcase⟩ := gives_outputField h
  have h2 := (hw.output href).trans (hargs.makes fun a _ => makes_argument hw)
  rcases hcase with ⟨kind, element, -, hpage, -⟩ | ⟨-, -, -, rfl⟩
  · obtain ⟨added, hs, -⟩ := gives_paging nodup_pagingArguments hpage
    exact h2.trans (hs.makes fun p _ => makes_pagingArgument)
  · exact h2

omit hw in
/-- A field whose type is a connection registers it, unless a scalar of paging has its name. -/
theorem form_field {f : Field} {out : WireField}
    (h : (outputField s (.within s steps) f).Gives d out d') : FieldForm s d d' f out where
  toOutputForm := form_outputField h
  registered {kind element r} hc hr hu := by
    have hg := grows_argument (s := s) (Walker.grows_within s steps) f.name
    obtain ⟨ref, declared, d1, d2, href, hargs, arguments, binding, -, hcase⟩ := gives_outputField h
    have hname := HostType.connectionName?_stripOptional hc hr
    have hheld := (Walker.holds_iff_of_gives href hname).mpr fun ⟨name, hn, _, _, hostName, hm, hwire⟩ =>
      hu hostName hm (hwire.trans (hn.symm.trans hname))
    have hheld2 := (hargs.grows fun a _ => hg a).holds hheld
    rcases hcase with ⟨kind, element, -, hpage, -⟩ | ⟨-, -, -, rfl⟩
    · obtain ⟨added, hs, -⟩ := gives_paging nodup_pagingArguments hpage
      exact (hs.grows fun p _ => grows_pagingArgument p).holds hheld2
    · exact hheld2

theorem makes_outputFields {type : String} {declared : List Field} {fields : List WireField}
    (h : (outputFields s (.within s steps) type declared).Gives d fields d') :
    d.Makes s roots d' ∧ FieldForms s d d' declared fields := by
  obtain ⟨hs, hd⟩ := gives_outputFields h
  refine ⟨hs.makes fun f _ => makes_outputField hw, ?_, hd⟩
  exact hs.forms (grows_outputField (Walker.grows_within s steps)) form_field FieldForm.widen

theorem makes_inputField {f : Field} {out : InputField}
    (h : (inputField s (.within s steps) f).Gives d out d') : d.Makes s roots d' := by
  obtain ⟨ref, default, href, -⟩ := gives_inputField h
  exact hw.input href

theorem makes_inputFields {type : String} {declared : List Field} {fields : List InputField}
    (h : (inputFields s (.within s steps) type declared).Gives d fields d') :
    d.Makes s roots d' ∧ List.Forall₂ (InputForm s d d') (declared.filter Field.inInput) fields ∧
      (fields.map InputField.name).Nodup := by
  obtain ⟨hs, hd⟩ := gives_inputFields h
  have hforms := hs.forms grows_inputField form_inputField InputForm.widen
  exact ⟨hs.makes fun f _ => makes_inputField hw, hforms, hd⟩

theorem makes_interface {r : Record} (hr : r ∈ s.options.interfaces)
    (h : (interface s (.within s steps) r).Gives d ref d') : d.Makes s roots d' := by
  obtain ⟨-, ⟨-, rfl⟩ | ⟨hn, fields, d1, hf, -, rfl⟩⟩ := gives_interface h
  · exact .refl _
  · obtain ⟨h1, hforms⟩ := makes_outputFields hw hf
    exact Draft.Makes.complete (.refl d) (by trivial) h1 hn rfl rfl (.interface hr hforms)

theorem makes_ensureInterface {name : String} {u : Unit}
    (h : (ensureInterface s (.within s steps) name).Gives d u d') : d.Makes s roots d' := by
  obtain ⟨-, rfl⟩ | ⟨-, ⟨-, hmark⟩ | ⟨-, r, ref, hr, hi⟩⟩ := gives_ensureInterface h
  · exact .refl _
  · exact makes_markers hmark
  · exact makes_interface hw (Setting.mem_of_interface? hr) hi

/-- An object type has the origin that its fields are enough for. -/
theorem makes_objectNamed {name : String} {interfaces : List String} {r : Record}
    (ho : ∀ {e e' fields}, FieldForms s e e' r.fields fields → Origin s roots e e'
      (.object { name := name, description := r.description, fields := fields, interfaces := interfaces }))
    (h : (objectNamed s (.within s steps) name interfaces r).Gives d ref d') : d.Makes s roots d' := by
  obtain ⟨-, ⟨-, rfl⟩ | ⟨hn, fields, d1, us, d2, hf, -, hs, rfl⟩⟩ := gives_objectNamed h
  · exact .refl _
  · obtain ⟨h1, hforms⟩ := makes_outputFields hw hf
    have h2 := hs.makes fun i _ => makes_ensureInterface hw
    exact Draft.Makes.complete (.refl d) (by trivial) (h1.trans h2) hn rfl rfl
      (ho (hforms.widen (.refl _) h2.grows.keeps))

theorem makes_object {r : Record} (hr : r ∈ s.declared roots)
    (h : (object s (.within s steps) r).Gives d ref d') : d.Makes s roots d' :=
  makes_objectNamed hw (.record hr) h

theorem makes_inputObject {r : Record} (hr : r ∈ s.declared roots)
    (h : (inputObject s (.within s steps) r).Gives d ref d') : d.Makes s roots d' := by
  obtain ⟨-, ⟨-, rfl⟩ | ⟨hn, fields, d1, hf, -, rfl⟩⟩ := gives_inputObject h
  · exact .refl _
  · obtain ⟨h1, hforms, hd⟩ := makes_inputFields hw hf
    exact Draft.Makes.complete (.refl d) (by exact ⟨r.name, rfl⟩) h1 hn rfl rfl (.inputObject hr hforms hd)

omit hw in
theorem makes_addUnlessPresent {t : WireType} {u : Unit} (hk : t.NamedByKind)
    (ht : Origin s roots d (d.add t) t) (h : (addUnlessPresent t).Gives d u d') : d.Makes s roots d' := by
  obtain ⟨e, -, -, rfl⟩ | ⟨-, rfl⟩ := gives_addUnlessPresent h
  · exact .refl _
  · exact .add hk ht

theorem makes_connection {kind : String} {element : HostType}
    (h : (connection s (.within s steps) kind element).Gives d ref d') : d.Makes s roots d' := by
  have hg := Walker.grows_within s steps
  obtain ⟨r, hr, -, ⟨-, -, rfl⟩ |
    ⟨hn, -, d1, node, d2, cursor, d3, d4, fields, d5, hm, hnode, hc, he, hf, rfl⟩⟩ := gives_connection h
  · exact .refl _
  have hknown := Setting.known_of_elementRecord? hr
  have h1 : d.Makes s roots (d1.noteConnection (r.name ++ "Connection") (extraNames s kind)) :=
    (makes_markers hm).noteConnection _ hn
  have h2 := makes_objectNamed hw (.node hknown) hnode
  have h3 : d2.Makes s roots d3 := makes_scalar hc
  have h4 : d3.Makes s roots d4 := makes_addUnlessPresent (by trivial) (.edge hknown (ref_scalar hc)) he
  obtain ⟨h5, hforms⟩ := makes_outputFields hw hf
  have hedge : d4.types.Holds WireType.isObject (r.name ++ "Edge") :=
    (holds_addUnlessPresent he).imp fun _ hk => WireType.isObject_of_kind (of_decide_eq_true hk)
  have hheld := (h3.trans (h4.trans h5)).grows.holds (holds_objectNamed hg hnode)
  have hmarked : d1.types.Holds WireType.isInterface "Connection" := holds_markers hm
  have hconnection : d5.types.Holds WireType.isInterface "Connection" :=
    (((Draft.grows_add _ (by trivial)).trans h2.grows).trans (h3.trans (h4.trans h5)).grows).holds hmarked
  refine h1.complete (by trivial) (h2.trans (h3.trans (h4.trans h5))) hn rfl rfl ?_
  have hforms' := hforms.widen (h2.trans (h3.trans h4)).grows (.refl _)
  exact .connection hknown hforms' hheld (h5.grows.holds hedge) hconnection

omit hw in
theorem declared_of_known {r : Record} (hr : r ∈ s.knownRecords) : r ∈ s.declared roots :=
  List.mem_append_left _ hr

theorem makes_namedOutput {name : String}
    (h : (namedOutput s (.within s steps) name).Gives d ref d') : d.Makes s roots d' := by
  obtain ⟨-, -, rfl⟩ | ⟨-, ⟨r, hr, hi⟩ | ⟨-, r, hr, ho⟩ | ⟨-, -, -, -, hmark⟩⟩ := gives_namedOutput h
  · exact .refl _
  · exact makes_interface hw (Setting.mem_of_interface? hr) hi
  · exact makes_object hw (declared_of_known (Setting.known_of_record? hr)) ho
  · exact makes_markers hmark

theorem makes_namedInput {name : String}
    (h : (namedInput s (.within s steps) name).Gives d ref d') : d.Makes s roots d' := by
  obtain ⟨-, -, rfl⟩ | ⟨-, r, hr, hi⟩ := gives_namedInput h
  · exact .refl _
  · refine makes_inputObject hw (declared_of_known ?_) hi
    rcases Option.or_eq_some_iff.mp hr with hr | ⟨-, hr⟩
    · exact Setting.known_of_record? hr
    · exact Setting.known_of_interface? hr

end

end Build

namespace Walker

variable {s : Setting} {roots : RootRecords}

/-- Whatever the walk adds has an origin, however many steps it is given. -/
theorem makes_within (steps : Nat) : (within s steps).Makes s roots := by
  induction steps with
  | zero => exact ⟨fun h => (Build.gives_throw h).elim, fun h => (Build.gives_throw h).elim⟩
  | succ steps ih =>
    constructor
    · intro t d ref d' h
      cases t with
      | scalar hostName => exact Build.makes_scalar h
      | enum key =>
        obtain ⟨e, -, he⟩ := gives_output_enum h
        exact Build.makes_enum he
      | list element =>
        obtain ⟨_, he, -⟩ := gives_output_list h
        exact ih.output he
      | optional inner => exact ih.output h
      | record key =>
        obtain ⟨r, hr, ho⟩ := gives_output_record h
        exact Build.makes_object ih (Build.declared_of_known (Setting.known_of_catalogue hr)) ho
      | connection kind element => exact Build.makes_connection ih h
      | named name => exact Build.makes_namedOutput ih h
    · intro t d ref d' h
      cases t with
      | scalar hostName => exact Build.makes_scalar h
      | enum key =>
        obtain ⟨e, -, he⟩ := gives_input_enum h
        exact Build.makes_enum he
      | list element =>
        obtain ⟨_, he, -⟩ := gives_input_list h
        exact ih.input he
      | optional inner => exact ih.input h
      | record key =>
        obtain ⟨r, hr, hi⟩ := gives_input_record h
        exact Build.makes_inputObject ih (Build.declared_of_known (Setting.known_of_catalogue hr)) hi
      | connection kind element => exact (Build.gives_throw h).elim
      | named name => exact Build.makes_namedInput ih h

end Walker

/-! Whole builds. -/

/-- What the builders do with the descriptors that a build starts from. -/
structure Walker.Lifts (s : Setting) (roots : RootRecords) (w : Walker) (R : Draft → Draft → Prop) : Prop where
  refl : ∀ d, R d d
  trans : ∀ {d₁ d₂ d₃}, R d₁ d₂ → R d₂ d₃ → R d₁ d₃
  enum : ∀ e ∈ s.options.enums, ∀ {d ref d'}, (Build.enum e).Gives d ref d' → R d d'
  interface : ∀ r ∈ s.options.interfaces, ∀ {d ref d'}, (Build.interface s w r).Gives d ref d' → R d d'
  object : ∀ r ∈ s.declared roots, ∀ {d ref d'}, (Build.object s w r).Gives d ref d' → R d d'
  inputObject : ∀ r ∈ s.options.mutationTypes, ∀ {d ref d'}, (Build.inputObject s w r).Gives d ref d' → R d d'

namespace Build

variable {s : Setting} {roots : RootRecords} {w : Walker} {R : Draft → Draft → Prop} {d d' : Draft}

theorem lift_forM {α : Type} (hw : w.Lifts s roots R) {x : α → Build TypeRef} {as : List α} {u : Unit}
    (h : (as.forM fun a => discard (x a)).Gives d u d')
    (hx : ∀ a ∈ as, ∀ {e ref e'}, (x a).Gives e ref e' → R e e') : R d d' := by
  obtain ⟨us, hs⟩ := gives_forM.mp h
  refine hs.lift hw.refl hw.trans fun a ha {e b e'} hg => ?_
  obtain ⟨ref, hi⟩ := gives_discard.mp hg
  exact hx a ha hi

theorem lift_seeds (hw : w.Lifts s roots R) {u : Unit} (h : (seeds s w).Gives d u d') : R d d' := by
  simp only [seeds, gives_bind] at h
  obtain ⟨_, d1, h1, _, d2, h2, _, d3, h3, h4⟩ := h
  have hdeclared {r : Record} (hr : r ∈ s.options.queryTypes) : r ∈ s.declared roots := by
    simp only [Setting.declared, Setting.knownRecords, List.mem_append] at hr ⊢
    tauto
  have r1 : R d d1 := lift_forM hw h1 hw.enum
  have r2 : R d1 d2 := lift_forM hw h2 hw.interface
  have r3 : R d2 d3 := lift_forM hw h3 fun r hr => hw.object r (hdeclared hr)
  have r4 : R d3 d' := lift_forM hw h4 hw.inputObject
  exact hw.trans r1 (hw.trans r2 (hw.trans r3 r4))

theorem lift_root (hw : w.Lifts s roots R) {name : String} {r : Record}
    (hr : { r with name := name } ∈ s.declared roots) {out : String} (h : (root s w name r).Gives d out d') :
    R d d' := by
  obtain ⟨ref, ho, -⟩ := gives_map.mp h
  exact hw.object _ hr ho

theorem lift_optionalRoot (hw : w.Lifts s roots R) {name : String} {r : Option Record} {out : Option String}
    (hr : ∀ r' ∈ r, { r' with name := name } ∈ s.declared roots)
    (h : (optionalRoot s w name r).Gives d out d') : R d d' := by
  cases r with
  | none =>
    obtain ⟨-, rfl⟩ := gives_pure.mp h
    exact hw.refl _
  | some r =>
    obtain ⟨root, hroot, -⟩ := gives_map.mp h
    exact lift_root hw (hr r rfl) hroot

theorem lift_schema (hw : w.Lifts s roots R) {out : String × Option String × Option String}
    (h : (schema s w roots).Gives d out d') : R d d' := by
  simp only [schema, gives_bind, gives_pure] at h
  obtain ⟨_, d1, h1, query, d2, h2, mutation, d3, h3, subscription, d4, h4, rfl, rfl⟩ := h
  have hmutation (r : Record) (hr : r ∈ roots.mutation) : { r with name := "Mutation" } ∈ s.declared roots := by
    simp [Setting.declared, Option.mem_def.mp hr]
  have hsubscription (r : Record) (hr : r ∈ roots.subscription) :
      { r with name := "Subscription" } ∈ s.declared roots := by
    simp [Setting.declared, Option.mem_def.mp hr]
  have r2 : R d1 d2 := lift_root hw (by simp [Setting.declared]) h2
  have r3 : R d2 d3 := lift_optionalRoot hw hmutation h3
  have r4 : R d3 d' := lift_optionalRoot hw hsubscription h4
  exact hw.trans (lift_seeds hw h1) (hw.trans r2 (hw.trans r3 r4))

variable {steps : Nat}

theorem lifts_makes : (Walker.within s steps).Lifts s roots (Draft.Makes s roots) where
  refl := .refl
  trans := .trans
  enum _ _ := makes_enum
  interface _ hr := makes_interface (Walker.makes_within steps) hr
  object _ hr := makes_object (Walker.makes_within steps) hr
  inputObject r hr := makes_inputObject (Walker.makes_within steps) (declared_of_known (by
    simp only [Setting.knownRecords, List.mem_append]
    tauto))

theorem makes_seeds {u : Unit} (h : (seeds s (.within s steps)).Gives d u d') : d.Makes s roots d' :=
  lift_seeds lifts_makes h

theorem makes_root {name : String} {r : Record} (hr : { r with name := name } ∈ s.declared roots)
    {out : String} (h : (root s (.within s steps) name r).Gives d out d') : d.Makes s roots d' :=
  lift_root lifts_makes hr h

theorem makes_schema {out : String × Option String × Option String}
    (h : (schema s (.within s steps) roots).Gives d out d') : d.Makes s roots d' :=
  lift_schema lifts_makes h

end Build

namespace Model

variable {s : Setting} {roots : RootRecords} {m : Model}

/-- Every type of a built model has an origin in the schema, and is registered under its name. -/
theorem origins_of_build (h : build s roots = .ok m) : ∃ d : Draft, d.types = m.types ∧
    m.types.names.Nodup ∧
      ∀ {name t}, m.types.get? name = some t → name = t.name ∧ Origin s roots {} d t := by
  obtain ⟨d, hd, htypes⟩ := gives_of_build h
  have hm : ({} : Draft).Makes s roots d := Build.makes_schema hd
  refine ⟨d, htypes, htypes ▸ hm.grows.distinct List.nodup_nil, fun {name t} ht => ?_⟩
  rw [← htypes] at ht
  rcases hm.origin ht with hnone | ho
  · cases hnone
  · exact ho

end Model

end RecordGraph
