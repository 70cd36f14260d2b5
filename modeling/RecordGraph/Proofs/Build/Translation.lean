import RecordGraph.Proofs.Build.Registered
/-! A record comes out exactly as it is described. Its type is registered unfinished, and records of any
kind may be built before it is completed, even by way of itself; but whatever they do, the fields that
are collected meanwhile are the record's own, one by one and in order, and the type that is completed at
the end stays. What a reference by name means as an input depends on what is registered when the walk
comes to it, which is some draft between the first and the last. -/

namespace RecordGraph

namespace Setting

/-- The reference that a host type stands for as the type of an output field. -/
def outputRef? (s : Setting) : HostType → Option TypeRef
  | .scalar hostName => (s.scalar? hostName).map fun t => .named t.wireName
  | .enum key => (Entries.get? s.catalogue.enums key).map fun e => .named e.name
  | .list element => (s.outputRef? element).map .list
  | .optional inner => s.outputRef? inner
  | .record key => (Entries.get? s.catalogue.records key).map fun r => .named r.name
  | .connection _ element => (Build.elementRecord? s element).map fun r => .named (r.name ++ "Connection")
  | .named name => some (.named name)

/-- The reference that a host type stands for as the type of an argument or input field. -/
def inputRef? (s : Setting) (d : Draft) : HostType → Option TypeRef
  | .scalar hostName => (s.scalar? hostName).map fun t => .named t.wireName
  | .enum key => (Entries.get? s.catalogue.enums key).map fun e => .named e.name
  | .list element => (s.inputRef? d element).map .list
  | .optional inner => s.inputRef? d inner
  | .record key => (Entries.get? s.catalogue.records key).map fun r => .named (r.name ++ "Input")
  | .connection _ _ => none
  | .named name =>
    some (.named (if (d.types.get? name).any WireType.isInput then name else name ++ "Input"))

/-- The paging arguments of a field beside its declared ones. -/
def pagingOf (f : Field) (declared : List WireArgument) : List (String × String × String) :=
  match f.type.stripOptional with
  | .connection _ _ => Build.pagingArguments.filter fun p => declared.all fun a => a.name != p.1
  | _ => []

/-- What a field remembers of the connection that is its type. -/
def bindingOf (s : Setting) (f : Field) : Option ConnectionBinding :=
  match f.type.stripOptional with
  | .connection kind element =>
    some ⟨element.name s.catalogue, (Entries.get? s.catalogue.connections kind).bind ConnectionKind.resolver⟩
  | _ => none

variable {s : Setting} {f : Field}

theorem pagingOf_of_not_connection {declared : List WireArgument}
    (h : ∀ kind element, f.type.stripOptional ≠ .connection kind element) : pagingOf f declared = [] := by
  unfold pagingOf
  split
  · rename_i kind element hc
    exact absurd hc (h kind element)
  · rfl

theorem bindingOf_of_not_connection
    (h : ∀ kind element, f.type.stripOptional ≠ .connection kind element) : s.bindingOf f = none := by
  unfold bindingOf
  split
  · rename_i kind element hc
    exact absurd hc (h kind element)
  · rfl

end Setting

/-- A host type stands for a reference in some draft on the way from one to another. -/
def Setting.InputRef (s : Setting) (d d' : Draft) (t : HostType) (ref : TypeRef) : Prop :=
  ∃ mid, d.Grows mid ∧ mid.types.Keeps d'.types ∧ s.inputRef? mid t = some ref

/-- An argument as its declaration has it. -/
structure ArgumentForm (s : Setting) (d d' : Draft) (a : Argument) (out : WireArgument) : Prop where
  name : out.name = s.wireName a.name
  hostName : out.hostName = a.name
  description : out.description = a.description
  type : ∃ ref, s.InputRef d d' a.type ref ∧ out.type = if a.required then .nonNull ref else ref
  default : out.default.map .ok = a.default.map Value.toWire

/-- A paging argument, which may always be absent. -/
structure PagingForm (s : Setting) (p : String × String × String) (out : WireArgument) : Prop where
  name : out.name = p.1
  hostName : out.hostName = p.1
  description : out.description = some p.2.2
  type : ∃ t, s.scalar? p.2.1 = some t ∧ out.type = .named t.wireName
  default : out.default = none

/-- An output field as its declaration has it. -/
structure OutputForm (s : Setting) (d d' : Draft) (f : Field) (out : WireField) : Prop where
  name : out.name = s.wireName f.sourceName
  hostName : out.hostName = f.sourceName
  description : out.description = f.description
  type : ∃ ref, s.outputRef? f.type = some ref ∧
    out.type = if f.default = none ∧ f.type.isOptional = false then .nonNull ref else ref
  arguments : ∃ declared paging, out.arguments = declared ++ paging ∧
    List.Forall₂ (ArgumentForm s d d') f.arguments declared ∧
    List.Forall₂ (PagingForm s) (Setting.pagingOf f declared) paging
  connection : out.connection = s.bindingOf f

/-- An input field as its declaration has it. -/
structure InputForm (s : Setting) (d d' : Draft) (f : Field) (out : InputField) : Prop where
  name : out.name = s.wireName f.sourceName
  hostName : out.hostName = f.sourceName
  description : out.description = f.description
  type : ∃ ref, s.InputRef d d' f.type ref ∧
    out.type = if f.default = none ∧ f.type.isOptional = false then .nonNull ref else ref
  default : out.default.map .ok = f.default.map Value.toWire

/-! References. -/

namespace TypeRef

/-- A reference that is not marked gets its mark. -/
theorem required_of_not_nonNull {ref : TypeRef} (h : ref.isNonNull = false) : ref.required = .nonNull ref := by
  cases ref with
  | nonNull inner => exact absurd h Bool.false_ne_true.symm
  | _ => rfl

end TypeRef

namespace Setting

variable {s : Setting} {d : Draft} {t : HostType} {ref : TypeRef}

/-- Marks are left to the fields. -/
theorem not_nonNull_of_outputRef? (h : s.outputRef? t = some ref) : ref.isNonNull = false := by
  induction t generalizing ref with
  | optional inner ih => exact ih h
  | named name =>
    cases h
    rfl
  | _ =>
    obtain ⟨_, -, rfl⟩ := Option.map_eq_some_iff.mp h
    rfl

theorem not_nonNull_of_inputRef? (h : s.inputRef? d t = some ref) : ref.isNonNull = false := by
  induction t generalizing ref with
  | optional inner ih => exact ih h
  | named name =>
    cases h
    rfl
  | connection kind element => cases h
  | _ =>
    obtain ⟨_, -, rfl⟩ := Option.map_eq_some_iff.mp h
    rfl

end Setting

namespace Walker

variable {s : Setting} {d d' : Draft} {t : HostType} {ref : TypeRef} {steps : Nat}

/-- An output type maps to the reference that it stands for. -/
theorem output_ref (h : ((within s steps).output t).Gives d ref d') : s.outputRef? t = some ref := by
  induction t generalizing steps d ref d' with
  | list element ih =>
    obtain ⟨steps, rfl⟩ := output_succ h
    obtain ⟨inner, hi, rfl⟩ := gives_output_list h
    rw [Setting.outputRef?, ih hi]
    rfl
  | optional inner ih =>
    obtain ⟨steps, rfl⟩ := output_succ h
    exact ih h
  | scalar hostName =>
    obtain ⟨steps, rfl⟩ := output_succ h
    obtain ⟨t, ht, rfl, -⟩ := Build.gives_scalar h
    rw [Setting.outputRef?, ht]
    rfl
  | enum key =>
    obtain ⟨steps, rfl⟩ := output_succ h
    obtain ⟨e, he, h⟩ := gives_output_enum h
    obtain ⟨rfl, -⟩ := Build.gives_enum h
    rw [Setting.outputRef?, he]
    rfl
  | record key =>
    obtain ⟨steps, rfl⟩ := output_succ h
    obtain ⟨r, hr, h⟩ := gives_output_record h
    obtain ⟨rfl, -⟩ := Build.gives_objectNamed h
    rw [Setting.outputRef?, hr]
    rfl
  | connection kind element =>
    obtain ⟨steps, rfl⟩ := output_succ h
    obtain ⟨r, hr, rfl, -⟩ := Build.gives_connection h
    rw [Setting.outputRef?, hr]
    rfl
  | named name =>
    obtain ⟨steps, rfl⟩ := output_succ h
    obtain ⟨-, rfl, -⟩ | ⟨-, ⟨r, hr, hi⟩ | ⟨-, r, hr, ho⟩ | ⟨-, -, -, rfl, -⟩⟩ := Build.gives_namedOutput h
    · rfl
    · obtain ⟨rfl, -⟩ := Build.gives_interface hi
      rw [Setting.outputRef?, Setting.name_of_interface? hr]
    · obtain ⟨rfl, -⟩ := Build.gives_objectNamed ho
      rw [Setting.outputRef?, Setting.name_of_record? hr]
    · rfl

/-- An input type maps to the reference that it stands for when the walk comes to it. -/
theorem input_ref (h : ((within s steps).input t).Gives d ref d') : s.inputRef? d t = some ref := by
  induction t generalizing steps d ref d' with
  | list element ih =>
    obtain ⟨steps, rfl⟩ := input_succ h
    obtain ⟨inner, hi, rfl⟩ := gives_input_list h
    rw [Setting.inputRef?, ih hi]
    rfl
  | optional inner ih =>
    obtain ⟨steps, rfl⟩ := input_succ h
    exact ih h
  | scalar hostName =>
    obtain ⟨steps, rfl⟩ := input_succ h
    obtain ⟨t, ht, rfl, -⟩ := Build.gives_scalar h
    rw [Setting.inputRef?, ht]
    rfl
  | enum key =>
    obtain ⟨steps, rfl⟩ := input_succ h
    obtain ⟨e, he, h⟩ := gives_input_enum h
    obtain ⟨rfl, -⟩ := Build.gives_enum h
    rw [Setting.inputRef?, he]
    rfl
  | record key =>
    obtain ⟨steps, rfl⟩ := input_succ h
    obtain ⟨r, hr, h⟩ := gives_input_record h
    obtain ⟨rfl, -⟩ := Build.gives_inputObject h
    rw [Setting.inputRef?, hr]
    rfl
  | connection kind element =>
    obtain ⟨steps, rfl⟩ := input_succ h
    exact (Build.gives_throw h).elim
  | named name =>
    obtain ⟨steps, rfl⟩ := input_succ h
    rw [Setting.inputRef?]
    obtain ⟨⟨t, ht, hk⟩, rfl, -⟩ | ⟨hno, r, hr, hi⟩ := Build.gives_namedInput h
    · rw [ht, Option.any_some, hk, if_pos rfl]
    · obtain ⟨rfl, -⟩ := Build.gives_inputObject hi
      have hname : r.name = name := by
        rcases Option.or_eq_some_iff.mp hr with hr | ⟨-, hr⟩
        · exact Setting.name_of_record? hr
        · exact Setting.name_of_interface? hr
      rw [if_neg, hname]
      cases ht : d.types.get? name with
      | none => simp
      | some t => simp [hno t ht]

end Walker

/-! Forms on a longer way. -/

section
variable {s : Setting} {d e e' d' : Draft} {f : Field}

theorem Setting.InputRef.widen {t : HostType} {ref : TypeRef} (h1 : d.Grows e)
    (h2 : e'.types.Keeps d'.types) (h : s.InputRef e e' t ref) : s.InputRef d d' t ref := by
  obtain ⟨mid, hg, hk, href⟩ := h
  exact ⟨mid, h1.trans hg, hk.trans h2, href⟩

theorem ArgumentForm.widen {a : Argument} {out : WireArgument} (h1 : d.Grows e)
    (h2 : e'.types.Keeps d'.types) (h : ArgumentForm s e e' a out) : ArgumentForm s d d' a out := by
  obtain ⟨ref, href, hout⟩ := h.type
  exact ⟨h.name, h.hostName, h.description, ⟨ref, href.widen h1 h2, hout⟩, h.default⟩

theorem OutputForm.widen {out : WireField} (h1 : d.Grows e) (h2 : e'.types.Keeps d'.types)
    (h : OutputForm s e e' f out) : OutputForm s d d' f out := by
  obtain ⟨declared, paging, hout, hdeclared, hpaging⟩ := h.arguments
  exact ⟨h.name, h.hostName, h.description, h.type,
    ⟨declared, paging, hout, hdeclared.imp fun _ _ ha => ha.widen h1 h2, hpaging⟩, h.connection⟩

theorem InputForm.widen {out : InputField} (h1 : d.Grows e) (h2 : e'.types.Keeps d'.types)
    (h : InputForm s e e' f out) : InputForm s d d' f out := by
  obtain ⟨ref, href, hout⟩ := h.type
  exact ⟨h.name, h.hostName, h.description, ⟨ref, href.widen h1 h2, hout⟩, h.default⟩

end

namespace Build

variable {α β : Type} {s : Setting} {d d' : Draft} {steps : Nat}

/-- The forms that the steps of a list give to their items. -/
theorem Steps.forms {x : α → Build β} {form : Draft → Draft → α → β → Prop} (hg : ∀ a, (x a).Grows)
    (hx : ∀ {a e b e'}, (x a).Gives e b e' → form e e' a b)
    (hwiden : ∀ {a b d e e' d'}, d.Grows e → e'.types.Keeps d'.types → form e e' a b → form d d' a b)
    {as : List α} {bs : List β} (h : Steps x d as bs d') : List.Forall₂ (form d d') as bs := by
  induction h with
  | nil => exact .nil
  | cons h hrest ih =>
    refine .cons (hwiden (.refl _) (hrest.grows fun a _ => hg a).keeps (hx h)) ?_
    exact ih.imp fun _ _ hf => hwiden ((hg _).of_gives h) (.refl _) hf

/-- The mark of a field that must always be present. -/
theorem required_ite {f : Field} {ref : TypeRef} (h : ref.isNonNull = false) :
    (if f.isRequired then ref.required else ref) =
      if f.default = none ∧ f.type.isOptional = false then .nonNull ref else ref := by
  rw [TypeRef.required_of_not_nonNull h]
  simp [Field.isRequired]

theorem form_argument {field : String} {a : Argument} {out : WireArgument}
    (h : (argument s (.within s steps) field a).Gives d out d') : ArgumentForm s d d' a out := by
  obtain ⟨-, ref, default, href, hdefault, rfl⟩ := gives_argument h
  have hin := Walker.input_ref href
  have hg := ((Walker.grows_within s steps).input a.type).of_gives href
  refine ⟨rfl, rfl, rfl, ⟨ref, ⟨d, .refl d, hg.keeps, hin⟩, ?_⟩, hdefault⟩
  simp only [TypeRef.required_of_not_nonNull (Setting.not_nonNull_of_inputRef? hin)]

theorem form_pagingArgument {p : String × String × String} {out : WireArgument}
    (h : (pagingArgument s p).Gives d out d') : PagingForm s p out := by
  obtain ⟨ref, href, rfl⟩ := gives_map.mp h
  obtain ⟨t, ht, rfl, -⟩ := gives_scalar href
  exact ⟨rfl, rfl, rfl, ⟨t, ht, rfl⟩, rfl⟩

theorem Steps.paging {ps : List (String × String × String)} {out : List WireArgument}
    (h : Steps (pagingArgument s) d ps out d') : List.Forall₂ (PagingForm s) ps out := by
  induction h with
  | nil => exact .nil
  | cons h _ ih => exact .cons (form_pagingArgument h) ih

theorem grows_pagingArgument (p : String × String × String) : (pagingArgument s p).Grows := by
  obtain ⟨name, host, text⟩ := p
  exact grows_bind (grows_scalar s host) fun _ => grows_pure _

theorem form_outputField {f : Field} {out : WireField}
    (h : (outputField s (.within s steps) f).Gives d out d') : OutputForm s d d' f out := by
  have hw := Walker.grows_within s steps
  obtain ⟨ref, declared, d1, d2, href, hargs, arguments, binding, rfl, hcase⟩ := gives_outputField h
  have hout := Walker.output_ref href
  have hg := (hw.output f.type).of_gives href
  have hdeclared : List.Forall₂ (ArgumentForm s d1 d2) f.arguments declared :=
    hargs.forms (grows_argument hw f.name) form_argument ArgumentForm.widen
  refine ⟨rfl, rfl, rfl, ⟨ref, hout, required_ite (Setting.not_nonNull_of_outputRef? hout)⟩, ?_, ?_⟩
  · rcases hcase with ⟨kind, element, hc, hpage, -⟩ | ⟨hc, rfl, -, rfl⟩
    · obtain ⟨paging, hs, rfl⟩ := gives_paging nodup_pagingArguments hpage
      have hkeep := (hs.grows fun p _ => grows_pagingArgument p).keeps
      refine ⟨declared, paging, rfl, hdeclared.imp fun _ _ ha => ha.widen hg hkeep, ?_⟩
      rw [Setting.pagingOf, hc]
      exact hs.paging
    · refine ⟨arguments, [], (List.append_nil _).symm, hdeclared.imp fun _ _ ha => ha.widen hg (.refl _), ?_⟩
      rw [Setting.pagingOf_of_not_connection hc]
      exact .nil
  · rcases hcase with ⟨kind, element, hc, -, rfl⟩ | ⟨hc, -, rfl, -⟩
    · rw [Setting.bindingOf, hc]
    · exact (Setting.bindingOf_of_not_connection hc).symm

theorem form_inputField {f : Field} {out : InputField}
    (h : (inputField s (.within s steps) f).Gives d out d') : InputForm s d d' f out := by
  obtain ⟨ref, default, href, hdefault, rfl⟩ := gives_inputField h
  have hin := Walker.input_ref href
  have hg := ((Walker.grows_within s steps).input f.type).of_gives href
  have hmark := required_ite (f := f) (Setting.not_nonNull_of_inputRef? hin)
  exact ⟨rfl, rfl, rfl, ⟨ref, ⟨d, .refl d, hg.keeps, hin⟩, hmark⟩, hdefault⟩

theorem grows_inputField (f : Field) : (inputField s (.within s steps) f).Grows :=
  grows_bind ((Walker.grows_within s steps).input f.type) fun _ =>
    grows_bind (grows_defaultValue _ _) fun _ => grows_pure _

theorem object_forms {r : Record} {ref : TypeRef} (hn : d.types.get? r.name = none)
    (h : (object s (.within s steps) r).Gives d ref d') : ∃ fields,
      List.Forall₂ (OutputForm s d d') (r.fields.filter Field.inOutput) fields ∧
      d'.types.get? r.name = some (.object { name := r.name, description := r.description,
                                             fields := fields, interfaces := r.interfaces }) := by
  have hw := Walker.grows_within s steps
  obtain ⟨-, ⟨⟨t, ht⟩, -⟩ | ⟨-, fields, d1, us, d2, hf, -, hs, rfl⟩⟩ := gives_objectNamed h
  · cases hn.symm.trans ht
  · set unfinished : WireType := .object { name := r.name, description := r.description,
                                           interfaces := r.interfaces }
    have hadd : d.Grows (d.add unfinished) := d.grows_add trivial
    have hg1 := (grows_outputFields hw _ _).of_gives hf
    have hg2 := hs.grows fun i _ => grows_ensureInterface hw i
    have hforms : List.Forall₂ (OutputForm s (d.add unfinished) d1) (r.fields.filter Field.inOutput) fields :=
      (gives_outputFields hf).1.forms (grows_outputField hw) form_outputField OutputForm.widen
    refine ⟨fields, hforms.imp fun _ _ hform => ?_, Draft.get?_completed (hg1.trans hg2) hn rfl rfl⟩
    exact hform.widen hadd (hg2.keeps.trans (d2.keeps_replace _))

theorem inputObject_forms {r : Record} {ref : TypeRef} (hn : d.types.get? (r.name ++ "Input") = none)
    (h : (inputObject s (.within s steps) r).Gives d ref d') : ∃ fields,
      List.Forall₂ (InputForm s d d') (r.fields.filter Field.inInput) fields ∧
      d'.types.get? (r.name ++ "Input") = some (.inputObject { name := r.name ++ "Input",
                                                               description := r.description,
                                                               fields := fields, loader := r.loader }) := by
  have hw := Walker.grows_within s steps
  obtain ⟨-, ⟨⟨t, ht⟩, -⟩ | ⟨-, fields, d1, hf, -, rfl⟩⟩ := gives_inputObject h
  · cases hn.symm.trans ht
  · set unfinished : WireType := .inputObject { name := r.name ++ "Input", description := r.description,
                                                loader := r.loader }
    have hadd : d.Grows (d.add unfinished) := d.grows_add ⟨r.name, rfl⟩
    have hg := (grows_inputFields hw _ _).of_gives hf
    have hforms : List.Forall₂ (InputForm s (d.add unfinished) d1) (r.fields.filter Field.inInput) fields :=
      (gives_inputFields hf).1.forms grows_inputField form_inputField InputForm.widen
    refine ⟨fields, hforms.imp fun _ _ hform => ?_, Draft.get?_completed hg hn rfl rfl⟩
    exact hform.widen hadd (d1.keeps_replace _)

/-- Both forms of a record are registered with its own fields, each in its own form, and no later call
of any kind changes that. -/
theorem record_translated (s : Setting) (steps : Nat) (d : Draft) (r : Record) :
    (∀ ref d', d.types.get? r.name = none → (object s (.within s steps) r).Gives d ref d' → ∃ fields,
      List.Forall₂ (OutputForm s d d') (r.fields.filter Field.inOutput) fields ∧
      ∀ calls, (d'.afterCalls s calls).types.get? r.name =
        some (.object { name := r.name, description := r.description, fields := fields,
                        interfaces := r.interfaces })) ∧
    (∀ ref d', d.types.get? (r.name ++ "Input") = none →
      (inputObject s (.within s steps) r).Gives d ref d' → ∃ fields,
      List.Forall₂ (InputForm s d d') (r.fields.filter Field.inInput) fields ∧
      ∀ calls, (d'.afterCalls s calls).types.get? (r.name ++ "Input") =
        some (.inputObject { name := r.name ++ "Input", description := r.description, fields := fields,
                             loader := r.loader })) := by
  constructor
  · intro ref d' hn h
    obtain ⟨fields, hforms, hget⟩ := object_forms hn h
    exact ⟨fields, hforms, fun calls => (d'.grows_afterCalls s calls).types hget⟩
  · intro ref d' hn h
    obtain ⟨fields, hforms, hget⟩ := inputObject_forms hn h
    exact ⟨fields, hforms, fun calls => (d'.grows_afterCalls s calls).types hget⟩

/-- A record with a field for each form, and one that is in both. -/
def shelf : Record :=
  { name := "Shelf"
    fields :=
      [{ name := "label", type := .scalar "String" },
       { name := "books", type := bookPages, readOnly := true,
         arguments := [{ name := "author", type := .optional (.scalar "String"), required := true }] },
       { name := "keeper", type := .list (.record "Book"), inputOnly := true },
       { name := "_key", type := .scalar "String" }] }

theorem shelf_translated : ∃ d₁ d₂ outs ins,
    (object (bookshop []) (.within (bookshop []) 9) shelf).Gives {} (.named "Shelf") d₁ ∧
    (inputObject (bookshop []) (.within (bookshop []) 9) shelf).Gives d₁ (.named "ShelfInput") d₂ ∧
    List.Forall₂ (OutputForm (bookshop []) {} d₁) (shelf.fields.filter Field.inOutput) outs ∧
    List.Forall₂ (InputForm (bookshop []) d₁ d₂) (shelf.fields.filter Field.inInput) ins ∧
    ∀ calls, (d₂.afterCalls (bookshop []) calls).types.get? "ShelfInput" =
      some (.inputObject { name := "ShelfInput", fields := ins }) := by
  set first := object (bookshop []) (.within (bookshop []) 9) shelf
  set second := inputObject (bookshop []) (.within (bookshop []) 9) shelf
  have h₁ : first.Gives {} (.named "Shelf") (first.after {}) := by rfl
  have h₂ : second.Gives (first.after {}) (.named "ShelfInput") (second.after (first.after {})) := by rfl
  obtain ⟨outs, houts, -⟩ := (record_translated (bookshop []) 9 {} shelf).1 _ _ rfl h₁
  obtain ⟨ins, hins, hcalls⟩ := (record_translated (bookshop []) 9 _ shelf).2 _ _ (by rfl) h₂
  exact ⟨_, _, outs, ins, h₁, h₂, houts, hins, hcalls⟩

end Build

end RecordGraph
