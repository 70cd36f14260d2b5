import RecordGraph.Proofs.Build.Registered
/-! Every reference of a built model leads to a registered type of a kind that fits. While a build is
under way this fails, for a type is registered before the types that its fields refer to. What holds at
every step is that the types which a successful builder has added refer to types that are registered
when it is done. A builder that finds a type under the name of the connection interface takes all types
of paging for registered; that is so as long as no interface of the options has that name. -/

namespace RecordGraph

def WireArgument.ResolvesIn (r : Registry WireType) (a : WireArgument) : Prop :=
  r.Holds WireType.isInput a.type.base

def InputField.ResolvesIn (r : Registry WireType) (f : InputField) : Prop :=
  r.Holds WireType.isInput f.type.base

/-- The types of a field and of its arguments are registered. -/
def WireField.ResolvesIn (r : Registry WireType) (f : WireField) : Prop :=
  r.Holds WireType.isOutput f.type.base ∧ ∀ a ∈ f.arguments, a.ResolvesIn r

/-- Whatever a type refers to is registered. -/
def WireType.ResolvesIn (r : Registry WireType) : WireType → Prop
  | .scalar _ | .enum _ => True
  | .object t => (∀ f ∈ t.fields, f.ResolvesIn r) ∧ ∀ i ∈ t.interfaces, r.Holds WireType.isInterface i
  | .interface t => ∀ f ∈ t.fields, f.ResolvesIn r
  | .inputObject t => ∀ f ∈ t.fields, f.ResolvesIn r

/-- All references of a model resolve, those to its roots to objects. -/
structure Model.Closed (m : Model) : Prop where
  types : ∀ t ∈ m.types.values, t.ResolvesIn m.types
  query : m.types.Holds WireType.isObject m.query
  mutation : ∀ name ∈ m.mutation, m.types.Holds WireType.isObject name
  subscription : ∀ name ∈ m.subscription, m.types.Holds WireType.isObject name

namespace TypeRef

@[simp] theorem base_required (ref : TypeRef) : ref.required.base = ref.base := by
  cases ref <;> rfl

@[simp] theorem base_ite (c : Prop) [Decidable c] (ref : TypeRef) :
    (if c then ref.required else ref).base = ref.base := by
  split <;> simp

end TypeRef

namespace WireType

variable {t u : WireType} {r r' : Registry WireType}

theorem isOutput_of_isScalar (h : (t matches .scalar _) = true) : t.isOutput = true := by
  cases t <;> first | rfl | exact absurd h Bool.false_ne_true

theorem isInput_of_isScalar (h : (t matches .scalar _) = true) : t.isInput = true := by
  cases t <;> first | rfl | exact absurd h Bool.false_ne_true

theorem isOutput_of_isEnum (h : (t matches .enum _) = true) : t.isOutput = true := by
  cases t <;> first | rfl | exact absurd h Bool.false_ne_true

theorem isInput_of_isEnum (h : (t matches .enum _) = true) : t.isInput = true := by
  cases t <;> first | rfl | exact absurd h Bool.false_ne_true

theorem isInput_of_isInputObject (h : (t matches .inputObject _) = true) : t.isInput = true := by
  cases t <;> first | rfl | exact absurd h Bool.false_ne_true

end WireType

theorem WireArgument.ResolvesIn.mono {r r' : Registry WireType} (h : r.Keeps r') {a : WireArgument}
    (ha : a.ResolvesIn r) : a.ResolvesIn r' := h.holds WireType.isInput_congr ha

theorem InputField.ResolvesIn.mono {r r' : Registry WireType} (h : r.Keeps r') {f : InputField}
    (hf : f.ResolvesIn r) : f.ResolvesIn r' := h.holds WireType.isInput_congr hf

theorem WireField.ResolvesIn.mono {r r' : Registry WireType} (h : r.Keeps r') {f : WireField}
    (hf : f.ResolvesIn r) : f.ResolvesIn r' :=
  ⟨h.holds WireType.isOutput_congr hf.1, fun a ha => (hf.2 a ha).mono h⟩

theorem WireType.ResolvesIn.mono {r r' : Registry WireType} (h : r.Keeps r') {t : WireType}
    (ht : t.ResolvesIn r) : t.ResolvesIn r' := by
  cases t with
  | scalar t => trivial
  | enum t => trivial
  | object t => exact ⟨fun f hf => (ht.1 f hf).mono h, fun i hi => h.holds isInterface_congr (ht.2 i hi)⟩
  | interface t => exact fun f hf => (ht f hf).mono h
  | inputObject t => exact fun f hf => (ht f hf).mono h

namespace Draft

variable {d d' d₁ d₂ : Draft} {t u : WireType} {name : String}

/-- Under the name of the connection interface stands no interface but that of paging. -/
def Ready (d : Draft) : Prop := d.types.Holds WireType.isInterface "Connection" → d.Marked

/-- The interfaces of paging are registered. -/
theorem Marked.holds_isMarker (h : d.Marked) (hm : Build.isMarker name = true) :
    d.types.Holds WireType.isInterface name := by
  simp only [Build.isMarker, Bool.or_eq_true, beq_iff_eq] at hm
  rcases hm with (rfl | rfl) | rfl
  · exact h.node
  · exact h.edge
  · exact h.connection

/-- The second draft is ready and holds the types of the first, and others whose references resolve
there. -/
structure Closes (d d' : Draft) : Prop where
  grows : d.Grows d'
  ready : d'.Ready
  resolves : ∀ {name t}, d'.types.get? name = some t →
    d.types.get? name = some t ∨ t.ResolvesIn d'.types

theorem Closes.refl (h : d.Ready) : d.Closes d := ⟨.refl d, h, .inl⟩

theorem Closes.trans {d₁ d₂ d₃ : Draft} (h1 : d₁.Closes d₂) (h2 : d₂.Closes d₃) : d₁.Closes d₃ where
  grows := h1.grows.trans h2.grows
  ready := h2.ready
  resolves h := by
    rcases h2.resolves h with h | h
    · exact (h1.resolves h).imp_right fun hr => hr.mono h2.grows.keeps
    · exact .inr h

/-- A new type that is no connection interface leaves the draft ready. -/
theorem Ready.add (h : d.Ready) (hk : t.NamedByKind) (ht : t.isInterface = false ∨ t.name ≠ "Connection") :
    (d.add t).Ready := by
  rintro ⟨u, hu, hi⟩
  by_cases hfree : d.types.get? "Connection" = none
  · by_cases hname : t.name = "Connection"
    · rw [← hname] at hfree hu
      rw [get?_add_self hfree] at hu
      cases hu
      rcases ht with ht | ht
      · exact absurd (hi.symm.trans ht) Bool.false_ne_true.symm
      · exact absurd hname ht
    · rw [get?_add_of_ne hname, hfree] at hu
      cases hu
  · obtain ⟨v, hv⟩ := Option.ne_none_iff_exists'.mp hfree
    rw [get?_add_of_some hv] at hu
    cases hu
    exact (d.grows_add hk).marked (h ⟨_, hv, hi⟩)

theorem Ready.replace (h : d.Ready) : (d.replace t).Ready := by
  intro hc
  have hk := d.keeps_replace t
  have hm := h ((d.replace_keeps t).holds WireType.isInterface_congr hc)
  exact
    { pageInfo := hk.holds WireType.isObject_congr hm.pageInfo
      node := hk.holds WireType.isInterface_congr hm.node
      edge := hk.holds WireType.isInterface_congr hm.edge
      connection := hk.holds WireType.isInterface_congr hm.connection }

/-- A name under which adding shows another type than before has the type that was added. -/
theorem get?_add_cases (h : (d.add t).types.get? name = some u) :
    d.types.get? name = some u ∨ name = t.name ∧ u = t := by
  by_cases hname : t.name = name
  · subst hname
    by_cases hn : d.types.get? t.name = none
    · rw [get?_add_self hn] at h
      exact .inr ⟨rfl, (Option.some.inj h).symm⟩
    · obtain ⟨v, hv⟩ := Option.ne_none_iff_exists'.mp hn
      rw [get?_add_of_some hv] at h
      exact .inl (hv.trans h)
  · rw [get?_add_of_ne hname] at h
    exact .inl h

/-- Adding a type whose references resolve. -/
theorem Closes.add (h : d.Ready) (hk : t.NamedByKind)
    (ht : t.isInterface = false ∨ t.name ≠ "Connection") (hres : t.ResolvesIn d.types) :
    d.Closes (d.add t) where
  grows := d.grows_add hk
  ready := h.add hk ht
  resolves hu := by
    rcases get?_add_cases hu with hu | ⟨-, rfl⟩
    · exact .inl hu
    · exact .inr (hres.mono (d.grows_add hk).keeps)

theorem Closes.noteConnection (extra : List String) (h : d.Closes d') (hn : d.types.get? name = none) :
    d.Closes (d'.noteConnection name extra) :=
  ⟨h.grows.noteConnection hn, fun hc => (h.ready hc).noteConnection, h.resolves⟩

/-- Completing shows the completed type, or a type of another kind that holds its name. -/
theorem get?_replace_cases (h : (d.replace t).types.get? name = some u) :
    name = t.name ∧ u = t ∨ d.types.get? name = some u ∧ (name = t.name → u.kind ≠ t.kind) := by
  by_cases hname : t.name = name
  · subst hname
    by_cases hk : (d.types.get? t.name).map WireType.kind = some t.kind
    · obtain ⟨v, hv, hvk⟩ := Option.map_eq_some_iff.mp hk
      rw [get?_replace_self hv hvk] at h
      exact .inl ⟨rfl, (Option.some.inj h).symm⟩
    · rw [replace, if_neg hk] at h
      exact .inr ⟨h, fun _ hk' => hk (by rw [h, Option.map_some, hk'])⟩
  · rw [get?_replace_of_ne hname] at h
    exact .inr ⟨h, fun he => absurd he.symm hname⟩

/-- A builder registers its type unfinished, takes the steps below it, and completes it. -/
theorem Closes.complete (h : d.Closes d₁) (hk : u.NamedByKind) (h1 : (d₁.add u).Closes d₂)
    (hn : d.types.get? t.name = none) (hname : u.name = t.name) (hkind : u.kind = t.kind)
    (hres : t.ResolvesIn d₂.types) : d.Closes (d₂.replace t) where
  grows := (h.grows.trans ((d₁.grows_add hk).trans h1.grows)).replace hn
  ready := h1.ready.replace
  resolves {name v} hv := by
    have hkeep := d₂.keeps_replace t
    rcases get?_replace_cases hv with ⟨-, rfl⟩ | ⟨hv2, hother⟩
    · exact .inr (hres.mono hkeep)
    rcases h1.resolves hv2 with hv1 | hr
    · rcases get?_add_cases hv1 with hv0 | ⟨rfl, rfl⟩
      · refine (h.resolves hv0).imp_right fun hr => ?_
        exact (hr.mono ((d₁.grows_add hk).trans h1.grows).keeps).mono hkeep
      · exact absurd hkind (hother hname)
    · exact .inr (hr.mono hkeep)

end Draft

namespace Build

variable {α β : Type} {s : Setting} {w : Walker} {d d' : Draft} {ref : TypeRef} {as : List α} {bs : List β}

/-- From a ready draft, a step that gives a value adds types whose references resolve, and of the
value something holds. -/
def Closes (x : Build α) (post : Draft → α → Prop) : Prop :=
  ∀ d a d', x.Gives d a d' → d.Ready → d.Closes d' ∧ post d' a

/-- What each step of a list says of its item and its value still holds after all of them. -/
theorem Steps.closes {x : α → Build β} (post : Draft → α → β → Prop)
    (hpost : ∀ {e e' a b}, e.Grows e' → post e a b → post e' a b)
    (hx : ∀ a ∈ as, (x a).Closes fun e b => post e a b) (h : Steps x d as bs d') (hr : d.Ready) :
    d.Closes d' ∧ List.Forall₂ (post d') as bs := by
  induction h with
  | nil => exact ⟨.refl hr, .nil⟩
  | cons h _ ih =>
    rw [List.forall_mem_cons] at hx
    obtain ⟨h1, hb⟩ := hx.1 _ _ _ h hr
    obtain ⟨h2, hbs⟩ := ih hx.2 h1.ready
    exact ⟨h1.trans h2, .cons (hpost h2.grows hb) hbs⟩

theorem Steps.closes_values {x : α → Build β} {post : Draft → β → Prop} (h : Steps x d as bs d')
    (hpost : ∀ {e e' b}, e.Grows e' → post e b → post e' b) (hx : ∀ a ∈ as, (x a).Closes post)
    (hr : d.Ready) : d.Closes d' ∧ ∀ b ∈ bs, post d' b := by
  obtain ⟨hc, hall⟩ := Steps.closes (fun e _ b => post e b) hpost hx h hr
  refine ⟨hc, ?_⟩
  clear h hx
  induction hall with
  | nil => exact List.forall_mem_nil _
  | cons hb _ ih => exact List.forall_mem_cons.mpr ⟨hb, ih⟩

theorem Steps.closes_items {x : α → Build β} (post : Draft → α → Prop) (h : Steps x d as bs d')
    (hpost : ∀ {e e' a}, e.Grows e' → post e a → post e' a)
    (hx : ∀ a ∈ as, (x a).Closes fun e _ => post e a) (hr : d.Ready) :
    d.Closes d' ∧ ∀ a ∈ as, post d' a := by
  obtain ⟨hc, hall⟩ := Steps.closes (fun e a _ => post e a) hpost hx h hr
  refine ⟨hc, ?_⟩
  clear h hx
  induction hall with
  | nil => exact List.forall_mem_nil _
  | cons ha _ ih => exact List.forall_mem_cons.mpr ⟨ha, ih⟩

/-- A reference to a type of some kinds. -/
def RefersTo (p : WireType → Bool) (d : Draft) (ref : TypeRef) : Prop := d.types.Holds p ref.base

theorem RefersTo.ite {p : WireType → Bool} {c : Prop} [Decidable c] (h : RefersTo p d ref) :
    RefersTo p d (if c then ref.required else ref) := by
  unfold RefersTo
  rwa [TypeRef.base_ite]

/-! Leaves. -/

theorem closes_scalar (hostName : String) :
    (scalar s hostName).Closes (RefersTo fun t => t matches .scalar _) := by
  intro d ref d' h hr
  refine ⟨?_, holds_scalar h⟩
  obtain ⟨t, -, -, ⟨-, rfl⟩ | ⟨-, rfl⟩⟩ := gives_scalar h
  · exact .refl hr
  · exact .add hr trivial (.inl rfl) trivial

theorem closes_enum (e : EnumType) :
    (enum e).Closes (RefersTo fun t => t matches .enum _) := by
  intro d ref d' h hr
  have hh := holds_enum h
  obtain ⟨rfl, ⟨-, rfl⟩ | ⟨-, -, rfl⟩⟩ := gives_enum h
  · exact ⟨.refl hr, hh⟩
  · exact ⟨.add hr trivial (.inl rfl) trivial, hh⟩

theorem closes_addUnlessPresent {t : WireType} (hk : t.NamedByKind) (ht : t.isInterface = false)
    {u : Unit} (h : (addUnlessPresent t).Gives d u d') (hr : d.Ready) (hres : t.ResolvesIn d.types) :
    d.Closes d' := by
  obtain ⟨e, -, -, rfl⟩ | ⟨-, rfl⟩ := gives_addUnlessPresent h
  · exact .refl hr
  · exact .add hr hk (.inl ht) hres

/-- Whatever a list of additions brings is one of the types that were added. -/
theorem get?_addAll_cases {ts : List WireType} {us : List Unit} (h : Steps addUnlessPresent d ts us d')
    {name : String} {t : WireType} (ht : d'.types.get? name = some t) :
    d.types.get? name = some t ∨ name = t.name ∧ t ∈ ts := by
  induction h with
  | nil => exact .inl ht
  | cons h _ ih =>
    rcases ih ht with ht | ⟨hname, ht⟩
    · obtain ⟨e, -, -, rfl⟩ | ⟨-, rfl⟩ := gives_addUnlessPresent h
      · exact .inl ht
      · rcases Draft.get?_add_cases ht with ht | ⟨hname, rfl⟩
        · exact .inl ht
        · exact .inr ⟨hname, List.mem_cons_self⟩
    · exact .inr ⟨hname, List.mem_cons_of_mem _ ht⟩

theorem resolves_markerTypes {r : Registry WireType} {id string boolean : TypeRef}
    (hid : r.Holds WireType.isOutput id.base) (hstring : r.Holds WireType.isOutput string.base)
    (hboolean : r.Holds WireType.isOutput boolean.base) (hpage : r.Holds WireType.isOutput pageInfoType) :
    ∀ t ∈ markerTypes s id string boolean, t.ResolvesIn r := by
  intro t ht
  simp only [markerTypes, List.mem_cons, List.not_mem_nil, or_false] at ht
  rcases ht with rfl | rfl | rfl | rfl <;>
    simp [WireType.ResolvesIn, WireField.ResolvesIn, Setting.field, WireField.plain, TypeRef.base, *]

theorem closes_markers : (markers s).Closes fun d _ => d.Marked := by
  intro d u d' h hr
  have hm : d'.Marked := by
    obtain ⟨hc, rfl⟩ | ⟨-, hm⟩ := marked_of_gives h
    · exact hr hc
    · exact hm
  refine ⟨?_, hm⟩
  obtain ⟨-, rfl⟩ | ⟨-, id, string, boolean, d1, d2, d3, us, h1, h2, h3, hs⟩ := gives_markers h
  · exact .refl hr
  · obtain ⟨c1, hid⟩ := closes_scalar _ _ _ _ h1 hr
    obtain ⟨c2, hstring⟩ := closes_scalar _ _ _ _ h2 c1.ready
    obtain ⟨c3, hboolean⟩ := closes_scalar _ _ _ _ h3 c2.ready
    have hg : d3.Grows d' := hs.grows fun t ht => grows_addUnlessPresent (namedByKind_markerTypes t ht)
    have hid' := ((c2.grows.trans c3.grows).trans hg).holds (hid.imp fun _ => WireType.isOutput_of_isScalar)
    have hstring' := (c3.grows.trans hg).holds (hstring.imp fun _ => WireType.isOutput_of_isScalar)
    have hboolean' := hg.holds (hboolean.imp fun _ => WireType.isOutput_of_isScalar)
    have hpage := hm.pageInfo.imp fun _ => WireType.isOutput_of_isObject
    refine (c1.trans (c2.trans c3)).trans ⟨hg, fun _ => hm, fun {name t} ht => ?_⟩
    refine (get?_addAll_cases hs ht).imp_right fun hnew => ?_
    exact resolves_markerTypes hid' hstring' hboolean' hpage t hnew.2

end Build

/-- A walk whose steps add types whose references resolve. -/
structure Walker.Closes (w : Walker) : Prop where
  output : ∀ t, (w.output t).Closes (Build.RefersTo WireType.isOutput)
  input : ∀ t, (w.input t).Closes (Build.RefersTo WireType.isInput)

namespace Build

variable {s : Setting} {w : Walker} {d d' : Draft} {ref : TypeRef}

/-! Fields. -/

theorem closes_argument (hw : w.Closes) (field : String) (a : Argument) :
    (argument s w field a).Closes fun d out => out.ResolvesIn d.types := by
  intro d out d' h hr
  obtain ⟨-, ref, default, href, -, rfl⟩ := gives_argument h
  obtain ⟨hc, hh⟩ := hw.input _ _ _ _ href hr
  exact ⟨hc, hh.ite⟩

theorem closes_pagingArgument (p : String × String × String) :
    (pagingArgument s p).Closes fun d out => out.ResolvesIn d.types := by
  intro d out d' h hr
  obtain ⟨ref, href, rfl⟩ := gives_map.mp h
  obtain ⟨hc, hh⟩ := closes_scalar p.2.1 _ _ _ href hr
  exact ⟨hc, hh.imp fun _ => WireType.isInput_of_isScalar⟩

theorem closes_outputField (hw : w.Closes) (f : Field) :
    (outputField s w f).Closes fun d out => out.ResolvesIn d.types := by
  intro d out d' h hr
  obtain ⟨ref, declared, d1, d2, href, hargs, arguments, binding, rfl, hcase⟩ := gives_outputField h
  obtain ⟨c1, hh⟩ := hw.output _ _ _ _ href hr
  obtain ⟨c2, hdeclared⟩ := hargs.closes_values (fun hg ha => ha.mono hg.keeps)
    (fun a _ => closes_argument hw f.name a) c1.ready
  rcases hcase with ⟨kind, element, -, hpage, -⟩ | ⟨-, rfl, -, rfl⟩
  · obtain ⟨added, hs, rfl⟩ := gives_paging nodup_pagingArguments hpage
    obtain ⟨c3, hadded⟩ := hs.closes_values (fun hg ha => ha.mono hg.keeps)
      (fun p _ => closes_pagingArgument p) c2.ready
    refine ⟨c1.trans (c2.trans c3), RefersTo.ite ((c2.grows.trans c3.grows).holds hh), fun a ha => ?_⟩
    rcases List.mem_append.mp ha with ha | ha
    · exact (hdeclared a ha).mono c3.grows.keeps
    · exact hadded a ha
  · exact ⟨c1.trans c2, RefersTo.ite (c2.grows.holds hh), hdeclared⟩

theorem closes_outputFields (hw : w.Closes) (type : String) (fields : List Field) :
    (outputFields s w type fields).Closes fun d out => ∀ f ∈ out, f.ResolvesIn d.types := by
  intro d out d' h hr
  exact (gives_outputFields h).1.closes_values (fun hg hf => hf.mono hg.keeps)
    (fun f _ => closes_outputField hw f) hr

theorem closes_inputField (hw : w.Closes) (f : Field) :
    (inputField s w f).Closes fun d out => out.ResolvesIn d.types := by
  intro d out d' h hr
  obtain ⟨ref, default, href, -, rfl⟩ := gives_inputField h
  obtain ⟨hc, hh⟩ := hw.input _ _ _ _ href hr
  exact ⟨hc, hh.ite⟩

theorem closes_inputFields (hw : w.Closes) (type : String) (fields : List Field) :
    (inputFields s w type fields).Closes fun d out => ∀ f ∈ out, f.ResolvesIn d.types := by
  intro d out d' h hr
  exact (gives_inputFields h).1.closes_values (fun hg hf => hf.mono hg.keeps)
    (fun f _ => closes_inputField hw f) hr

/-! Types. -/

theorem closes_interface (hw : w.Closes) (hg : w.Grows) {r : Record} (hname : r.name ≠ "Connection") :
    (interface s w r).Closes (RefersTo WireType.isInterface) := by
  intro d ref d' h hr
  have hh := holds_interface hg h
  obtain ⟨rfl, ⟨-, rfl⟩ | ⟨hn, fields, d1, hf, -, rfl⟩⟩ := gives_interface h
  · exact ⟨.refl hr, hh⟩
  · obtain ⟨c, hall⟩ := closes_outputFields hw _ _ _ _ _ hf (hr.add (by trivial) (.inr hname))
    exact ⟨Draft.Closes.complete (.refl hr) (by trivial) c hn rfl rfl hall, hh⟩

theorem closes_inputObject (hw : w.Closes) (hg : w.Grows) (r : Record) :
    (inputObject s w r).Closes (RefersTo fun t => t matches .inputObject _) := by
  intro d ref d' h hr
  have hh := holds_inputObject hg h
  obtain ⟨rfl, ⟨-, rfl⟩ | ⟨hn, fields, d1, hf, -, rfl⟩⟩ := gives_inputObject h
  · exact ⟨.refl hr, hh⟩
  · obtain ⟨c, hall⟩ := closes_inputFields hw _ _ _ _ _ hf (hr.add (by exact ⟨r.name, rfl⟩) (.inl rfl))
    exact ⟨Draft.Closes.complete (.refl hr) (by exact ⟨r.name, rfl⟩) c hn rfl rfl hall, hh⟩

theorem resolves_edgeType {r : Record} {cursor : TypeRef} {types : Registry WireType}
    (hnode : types.Holds WireType.isOutput (r.name ++ "Node"))
    (hcursor : types.Holds WireType.isOutput cursor.base)
    (hedge : types.Holds WireType.isInterface "Edge") :
    (WireType.object (edgeType r cursor)).ResolvesIn types := by
  simp [WireType.ResolvesIn, WireField.ResolvesIn, edgeType, WireField.plain, TypeRef.base, *]

theorem resolves_connectionType {kind : String} {r : Record} {fields : List WireField}
    {types : Registry WireType} (hedges : types.Holds WireType.isOutput (r.name ++ "Edge"))
    (hpage : types.Holds WireType.isOutput pageInfoType) (hfields : ∀ f ∈ fields, f.ResolvesIn types)
    (hconnection : types.Holds WireType.isInterface "Connection") :
    (connectionType s kind r (connectionHead s r ++ fields)).ResolvesIn types := by
  refine ⟨?_, by simpa using hconnection⟩
  have hhead : ∀ f ∈ connectionHead s r, f.ResolvesIn types := by
    simp [connectionHead, WireField.ResolvesIn, WireField.plain, Setting.field, TypeRef.base, *]
  intro f hf
  rcases List.mem_append.mp hf with hf | hf
  · exact hhead f hf
  · exact hfields f hf

/-- Whatever stands under the name of a connection type that was free, it is no input type. -/
theorem isOutput_of_connection_name (h : d.Grows d') {base : String} {t : WireType}
    (hn : d.types.get? (base ++ "Connection") = none) (ht : d'.types.get? (base ++ "Connection") = some t) :
    t.isOutput = true := by
  cases t with
  | inputObject t =>
    obtain ⟨t', ht'⟩ | ⟨other, he⟩ := h.inputs ht
    · cases hn.symm.trans ht'
    · have hl : (base ++ "Connection").toList.getLast? = some 'n' := by simp
      rw [he] at hl
      exact absurd hl (by simp)
  | _ => rfl

theorem closes_namedInput (hw : w.Closes) (hg : w.Grows) (name : String) :
    (namedInput s w name).Closes (RefersTo WireType.isInput) := by
  intro d ref d' h hr
  obtain ⟨hfound, rfl, rfl⟩ | ⟨-, r, -, hi⟩ := gives_namedInput h
  · exact ⟨.refl hr, hfound⟩
  · obtain ⟨hc, hh⟩ := closes_inputObject hw hg r _ _ _ hi hr
    exact ⟨hc, hh.imp fun _ => WireType.isInput_of_isInputObject⟩

section
variable (hw : w.Closes) (hg : w.Grows) (hs : ∀ r ∈ s.options.interfaces, r.name ≠ "Connection")
include hw hg hs

theorem closes_ensureInterface (name : String) :
    (ensureInterface s w name).Closes fun d _ => d.types.Holds WireType.isInterface name := by
  intro d u d' h hr
  obtain ⟨⟨t, ht⟩, rfl⟩ | ⟨-, ⟨hm, hmark⟩ | ⟨-, r, ref, hr', hi⟩⟩ := gives_ensureInterface h
  · exact ⟨.refl hr, _, ht, rfl⟩
  · obtain ⟨c, hmarked⟩ := closes_markers _ _ _ hmark hr
    exact ⟨c, hmarked.holds_isMarker hm⟩
  · have hh := holds_interface hg hi
    rw [Setting.name_of_interface? hr'] at hh
    exact ⟨(closes_interface hw hg (hs r (Setting.mem_of_interface? hr')) _ _ _ hi hr).1, hh⟩

theorem closes_objectNamed (name : String) (interfaces : List String)
    (r : Record) : (objectNamed s w name interfaces r).Closes (RefersTo WireType.isObject) := by
  intro d ref d' h hr
  have hh := holds_objectNamed hg h
  obtain ⟨rfl, ⟨-, rfl⟩ | ⟨hn, fields, d1, us, d2, hf, -, hsteps, rfl⟩⟩ := gives_objectNamed h
  · exact ⟨.refl hr, hh⟩
  · obtain ⟨c1, hfields⟩ := closes_outputFields hw _ _ _ _ _ hf (hr.add (by trivial) (.inl rfl))
    obtain ⟨c2, hinterfaces⟩ := hsteps.closes_items (fun e i => e.types.Holds WireType.isInterface i)
      (fun hg hi => hg.holds hi) (fun i _ => closes_ensureInterface hw hg hs i) c1.ready
    refine ⟨Draft.Closes.complete (.refl hr) (by trivial) (c1.trans c2) hn rfl rfl ⟨?_, hinterfaces⟩, hh⟩
    exact fun f hf => (hfields f hf).mono c2.grows.keeps

theorem closes_connection (kind : String) (element : HostType) :
    (connection s w kind element).Closes (RefersTo WireType.isOutput) := by
  intro d ref d' h hr
  have hgrows := (grows_connection hg kind element).of_gives h
  obtain ⟨r, hr', rfl, ⟨⟨t, ht⟩, -, rfl⟩ |
    ⟨hn, -, d1, node, d2, cursor, d3, d4, fields, d5, hm, hnode, hc, he, hf, rfl⟩⟩ := gives_connection h
  · exact ⟨.refl hr, _, ht, rfl⟩
  · obtain ⟨c0, hmarked⟩ := closes_markers _ _ _ hm hr
    have c0' := c0.noteConnection (extraNames s kind) hn
    have hadd := (d1.noteConnection (r.name ++ "Connection") (extraNames s kind)).grows_add
      (show (connectionType s kind r []).NamedByKind from trivial)
    obtain ⟨c1, -⟩ := closes_objectNamed hw hg hs _ _ _ _ _ _ hnode (c0'.ready.add (by trivial) (.inl rfl))
    have hnamed := (holds_objectNamed hg hnode).imp fun _ => WireType.isOutput_of_isObject
    obtain ⟨c2, hcursor⟩ := closes_scalar _ _ _ _ hc c1.ready
    have m2 := (hadd.trans (c1.grows.trans c2.grows)).marked hmarked.noteConnection
    have c3 := closes_addUnlessPresent (by trivial) rfl he c2.ready (resolves_edgeType
      (c2.grows.holds hnamed) (hcursor.imp fun _ => WireType.isOutput_of_isScalar) m2.edge)
    have hedge := (holds_addUnlessPresent he).imp fun _ hk =>
      WireType.isOutput_of_isObject (WireType.isObject_of_kind (of_decide_eq_true hk))
    obtain ⟨c4, hfields⟩ := closes_outputFields hw _ _ _ _ _ hf c3.ready
    have m5 := (c3.grows.trans c4.grows).marked m2
    have hres : (connectionType s kind r (connectionHead s r ++ fields)).ResolvesIn d5.types :=
      resolves_connectionType (c4.grows.holds hedge)
        (m5.pageInfo.imp fun _ => WireType.isOutput_of_isObject) hfields m5.connection
    refine ⟨c0'.complete (by trivial) (c1.trans (c2.trans (c3.trans c4))) hn rfl rfl hres, ?_⟩
    obtain ⟨t, ht⟩ := Option.ne_none_iff_exists'.mp (get?_connection_ne_none hg hr' h)
    exact ⟨t, ht, isOutput_of_connection_name hgrows hn ht⟩

theorem closes_namedOutput (name : String) :
    (namedOutput s w name).Closes (RefersTo WireType.isOutput) := by
  intro d ref d' h hr
  obtain ⟨hfound, rfl, rfl⟩ | ⟨-, ⟨r, hr', hi⟩ | ⟨-, r, -, ho⟩ | ⟨-, -, hm, rfl, hmark⟩⟩ :=
    gives_namedOutput h
  · exact ⟨.refl hr, hfound⟩
  · obtain ⟨hc, hh⟩ := closes_interface hw hg (hs r (Setting.mem_of_interface? hr')) _ _ _ hi hr
    exact ⟨hc, hh.imp fun _ => WireType.isOutput_of_isInterface⟩
  · obtain ⟨hc, hh⟩ := closes_objectNamed hw hg hs _ _ _ _ _ _ ho hr
    exact ⟨hc, hh.imp fun _ => WireType.isOutput_of_isObject⟩
  · obtain ⟨hc, hmarked⟩ := closes_markers _ _ _ hmark hr
    exact ⟨hc, (hmarked.holds_isMarker hm).imp fun _ => WireType.isOutput_of_isInterface⟩

end

theorem Closes.imp {α : Type} {x : Build α} {post post' : Draft → α → Prop} (h : x.Closes post)
    (hpost : ∀ d a, post d a → post' d a) : x.Closes post' := by
  intro d a d' hx hr
  obtain ⟨hc, hp⟩ := h d a d' hx hr
  exact ⟨hc, hpost d' a hp⟩

/-- A list of elements refers to what its elements refer to. -/
theorem closes_list {x : Build TypeRef} {p : WireType → Bool} (h : x.Closes (RefersTo p)) :
    (x >>= fun element => return .list element).Closes (RefersTo p) := by
  intro d ref d' hx hr
  obtain ⟨element, he, rfl⟩ := gives_map.mp hx
  exact h _ element _ he hr

theorem closes_throw {α : Type} {e : ModelError} {post : Draft → α → Prop} :
    (throw e : Build α).Closes post := fun _ _ _ h _ => (gives_throw h).elim

end Build

namespace Walker

variable {s : Setting} {w : Walker}

theorem closes_step (hw : w.Closes) (hg : w.Grows)
    (hs : ∀ r ∈ s.options.interfaces, r.name ≠ "Connection") : (step s w).Closes where
  output t := by
    cases t with
    | scalar hostName =>
      exact (Build.closes_scalar hostName).imp fun _ _ h => h.imp fun _ => WireType.isOutput_of_isScalar
    | enum key =>
      simp only [step]
      split
      · exact (Build.closes_enum _).imp fun _ _ h => h.imp fun _ => WireType.isOutput_of_isEnum
      · exact Build.closes_throw
    | list element => exact Build.closes_list (hw.output element)
    | optional inner => exact hw.output inner
    | record key =>
      simp only [step]
      split
      · exact (Build.closes_objectNamed hw hg hs _ _ _).imp fun _ _ h =>
          h.imp fun _ => WireType.isOutput_of_isObject
      · exact Build.closes_throw
    | connection kind element => exact Build.closes_connection hw hg hs kind element
    | named name => exact Build.closes_namedOutput hw hg hs name
  input t := by
    cases t with
    | scalar hostName =>
      exact (Build.closes_scalar hostName).imp fun _ _ h => h.imp fun _ => WireType.isInput_of_isScalar
    | enum key =>
      simp only [step]
      split
      · exact (Build.closes_enum _).imp fun _ _ h => h.imp fun _ => WireType.isInput_of_isEnum
      · exact Build.closes_throw
    | list element => exact Build.closes_list (hw.input element)
    | optional inner => exact hw.input inner
    | record key =>
      simp only [step]
      split
      · exact (Build.closes_inputObject hw hg _).imp fun _ _ h =>
          h.imp fun _ => WireType.isInput_of_isInputObject
      · exact Build.closes_throw
    | connection kind element => exact Build.closes_throw
    | named name => exact Build.closes_namedInput hw hg name

/-- The walk closes what it opens, however many steps it is given. -/
theorem closes_within (hs : ∀ r ∈ s.options.interfaces, r.name ≠ "Connection") (steps : Nat) :
    (within s steps).Closes := by
  induction steps with
  | zero => exact ⟨fun _ => Build.closes_throw, fun _ => Build.closes_throw⟩
  | succ steps ih => exact closes_step ih (grows_within s steps) hs

end Walker

/-! Whole builds. -/

namespace Build

variable {α : Type} {s : Setting} {w : Walker} {d d' : Draft}

theorem closes_forM {x : α → Build TypeRef} {post : Draft → TypeRef → Prop} {as : List α}
    (hx : ∀ a ∈ as, (x a).Closes post) :
    (as.forM fun a => discard (x a)).Closes fun _ _ => True := by
  intro d u d' h hr
  obtain ⟨us, hs⟩ := gives_forM.mp h
  refine ⟨(Steps.closes (fun _ _ _ => True) (fun _ _ => trivial) (fun a ha => ?_) hs hr).1, trivial⟩
  intro d u d' h hr
  obtain ⟨ref, hi⟩ := gives_discard.mp h
  exact ⟨(hx a ha _ _ _ hi hr).1, trivial⟩

section
variable (hw : w.Closes) (hg : w.Grows) (hs : ∀ r ∈ s.options.interfaces, r.name ≠ "Connection")
include hw hg hs

theorem closes_seeds : (seeds s w).Closes fun _ _ => True := by
  intro d u d' h hr
  simp only [seeds, gives_bind] at h
  obtain ⟨_, d1, h1, _, d2, h2, _, d3, h3, h4⟩ := h
  obtain ⟨c1, -⟩ := closes_forM (fun e _ => closes_enum e) _ _ _ h1 hr
  obtain ⟨c2, -⟩ := closes_forM (fun r hr => closes_interface hw hg (hs r hr)) _ _ _ h2 c1.ready
  obtain ⟨c3, -⟩ := closes_forM (fun r _ => closes_objectNamed hw hg hs _ _ r) _ _ _ h3 c2.ready
  obtain ⟨c4, -⟩ := closes_forM (fun r _ => closes_inputObject hw hg r) _ _ _ h4 c3.ready
  exact ⟨c1.trans (c2.trans (c3.trans c4)), trivial⟩

theorem closes_root (name : String) (r : Record) :
    (root s w name r).Closes fun d out => d.types.Holds WireType.isObject out := by
  intro d out d' h hr
  obtain ⟨ref, ho, rfl⟩ := gives_map.mp h
  exact ⟨(closes_objectNamed hw hg hs _ _ _ _ _ _ ho hr).1, holds_objectNamed hg ho⟩

theorem closes_optionalRoot (name : String) (r : Option Record) :
    (optionalRoot s w name r).Closes fun d out => ∀ name ∈ out, d.types.Holds WireType.isObject name := by
  intro d out d' h hr
  cases r with
  | none =>
    obtain ⟨rfl, rfl⟩ := gives_pure.mp h
    exact ⟨.refl hr, by simp⟩
  | some r =>
    obtain ⟨root, hroot, rfl⟩ := gives_map.mp h
    obtain ⟨hc, hh⟩ := closes_root hw hg hs name r _ _ _ hroot hr
    refine ⟨hc, fun other ho => ?_⟩
    cases ho
    exact hh

/-- What the types and roots are that a whole build leaves. -/
theorem closes_schema (roots : RootRecords) :
    (schema s w roots).Closes fun d out => d.types.Holds WireType.isObject out.1 ∧
      (∀ name ∈ out.2.1, d.types.Holds WireType.isObject name) ∧
      ∀ name ∈ out.2.2, d.types.Holds WireType.isObject name := by
  intro d out d' h hr
  simp only [schema, gives_bind, gives_pure] at h
  obtain ⟨_, d1, h1, query, d2, h2, mutation, d3, h3, subscription, d4, h4, rfl, rfl⟩ := h
  obtain ⟨c1, -⟩ := closes_seeds hw hg hs _ _ _ h1 hr
  obtain ⟨c2, hq⟩ := closes_root hw hg hs _ _ _ _ _ h2 c1.ready
  obtain ⟨c3, hm⟩ := closes_optionalRoot hw hg hs _ _ _ _ _ h3 c2.ready
  obtain ⟨c4, hsub⟩ := closes_optionalRoot hw hg hs _ _ _ _ _ h4 c3.ready
  refine ⟨c1.trans (c2.trans (c3.trans c4)), (c3.grows.trans c4.grows).holds hq, fun name hn => ?_, hsub⟩
  exact c4.grows.holds (hm name hn)

end

end Build

namespace Model

variable {s : Setting} {roots : RootRecords} {m : Model}

/-- A build that succeeds is a run of its steps on the empty draft. -/
theorem gives_of_build (h : build s roots = .ok m) : ∃ d,
    (Build.schema s (s.walker (rootList roots)) roots).Gives {} (m.query, m.mutation, m.subscription) d ∧
      d.types = m.types := by
  unfold build at h
  split at h
  · rename_i query mutation subscription d hrun
    cases h
    exact ⟨d, hrun, rfl⟩
  · cases h

/-- Every reference of a built model leads to a registered type of a kind that fits, unless an
interface of the options has the name of the connection interface. -/
theorem closed_of_build (h : build s roots = .ok m)
    (hs : ∀ r ∈ s.options.interfaces, r.name ≠ "Connection") : m.Closed := by
  obtain ⟨d, hd, htypes⟩ := gives_of_build h
  have hready : Draft.Ready {} := by
    rintro ⟨t, ht, -⟩
    cases ht
  have hw := Walker.closes_within hs (s.steps (rootList roots))
  obtain ⟨hc, hquery, hmutation, hsubscription⟩ :=
    Build.closes_schema hw (Walker.grows_within s _) hs roots _ _ _ hd hready
  rw [htypes] at hquery hmutation hsubscription
  refine ⟨fun t ht => ?_, hquery, hmutation, hsubscription⟩
  have hdistinct : m.types.names.Nodup := htypes ▸ hc.grows.distinct List.nodup_nil
  obtain ⟨name, hname⟩ := Registry.exists_of_mem_values hdistinct ht
  rw [← htypes] at hname ⊢
  rcases hc.resolves hname with hnone | hres
  · cases hnone
  · exact hres

/-- A root that answers pages of books. -/
def shopRoots : RootRecords :=
  { query := { name := "Shop", fields := [{ name := "books", type := bookPages }] } }

theorem closed_bookshop : ∃ m, build (bookshop []) shopRoots = .ok m ∧
    (∀ r ∈ (bookshop []).options.interfaces, r.name ≠ "Connection") ∧ m.Closed := by
  obtain ⟨m, hm⟩ : ∃ m, build (bookshop []) shopRoots = .ok m := ⟨_, rfl⟩
  exact ⟨m, hm, by decide, closed_of_build hm (by decide)⟩

end Model

end RecordGraph
