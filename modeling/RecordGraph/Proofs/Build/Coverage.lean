import RecordGraph.Proofs.Build.Pieces
/-! Builders cover what they were given with pieces. From a choice of pieces that is closed under needs, a
builder for a piece of the choice adds only pieces of the choice, each with all it needs, and finds or leaves its
own. The walk does so for the piece that a host type stands for, and a whole build for everything. -/

namespace RecordGraph

/-- A choice of pieces that has all that its pieces need. -/
def Setting.ClosedUnder (s : Setting) (T : Piece → Prop) : Prop := ∀ p, T p → ∀ q ∈ s.needs true p, T q

/-- A walk that covers drafts with pieces of a choice, and leaves the piece of a host type standing. -/
structure Walker.Covers (s : Setting) (T : Piece → Prop) (w : Walker) : Prop where
  output : ∀ {t d ref d'}, (∀ p ∈ s.outputPiece? true t, T p) → (w.output t).Gives d ref d' →
    d.Covers s T d' ∧ ∀ p ∈ s.outputPiece? false t, d'.Stands p
  input : ∀ {t d ref d'}, (∀ p ∈ s.inputPiece? true t, T p) → (w.input t).Gives d ref d' →
    d.Covers s T d' ∧ ∀ p ∈ s.inputPiece? false t, d'.Stands p

namespace Setting.ClosedUnder

variable {s : Setting} {T : Piece → Prop} {p q : Piece} {f : Field}

theorem part (h : s.ClosedUnder T) (hp : T p) (hq : q ∈ s.parts p) : T q :=
  h p hp q (mem_needs.mpr (.inl hq))

theorem field (h : s.ClosedUnder T) (hp : T p) (hf : f ∈ p.outputs) : ∀ q ∈ s.fieldPieces true f, T q :=
  fun q hq => h p hp q (mem_needs.mpr (.inr (.inl ⟨f, hf, hq⟩)))

theorem input (h : s.ClosedUnder T) (hp : T p) (hf : f ∈ p.inputs) : ∀ q ∈ s.inputPiece? true f.type, T q :=
  fun q hq => h p hp q (mem_needs.mpr (.inr (.inr ⟨f, hf, hq⟩)))

end Setting.ClosedUnder

namespace Build

variable {α β : Type} {s : Setting} {T : Piece → Prop} {d d' : Draft} {ref : TypeRef}

/-- The pieces of all items of a list stand when its steps are done. -/
theorem Steps.covers {x : α → Build β} (g : α → List Piece) {as : List α} {bs : List β}
    (h : Steps x d as bs d')
    (hx : ∀ a ∈ as, ∀ {e b e'}, (x a).Gives e b e' → e.Covers s T e' ∧ ∀ p ∈ g a, e'.Stands p) :
    d.Covers s T d' ∧ ∀ a ∈ as, ∀ p ∈ g a, d'.Stands p := by
  induction h with
  | nil => exact ⟨.refl _, List.forall_mem_nil _⟩
  | cons h _ ih =>
    rw [List.forall_mem_cons] at hx
    obtain ⟨h1, hstands⟩ := hx.1 h
    obtain ⟨h2, hall⟩ := ih hx.2
    exact ⟨h1.trans h2, List.forall_mem_cons.mpr ⟨fun p hp => (hstands p hp).mono h2.grows.upholds, hall⟩⟩

/-! Leaves. -/

theorem covers_scalar {hostName : String} (hT : ∀ p ∈ s.scalarPiece? hostName, T p)
    (h : (scalar s hostName).Gives d ref d') :
    d.Covers s T d' ∧ ∀ p ∈ s.scalarPiece? hostName, d'.Stands p := by
  obtain ⟨t, ht, -, hcase⟩ := gives_scalar h
  have hpiece : s.scalarPiece? hostName = some (.scalar t.wireName) := by rw [Setting.scalarPiece?, ht]; rfl
  simp only [hpiece, Option.mem_def, Option.some.injEq, forall_eq'] at hT ⊢
  rcases hcase with ⟨⟨u, hu⟩, rfl⟩ | ⟨hn, rfl⟩
  · exact ⟨.refl _, _, hu, rfl⟩
  · refine ⟨.add trivial hT ⟨t, rfl, rfl⟩ ?_, _, Draft.get?_add_self hn, rfl⟩
    exact List.forall_mem_nil _

theorem covers_enum {e : EnumType} (hT : T (.enum e)) (h : (enum e).Gives d ref d') :
    d.Covers s T d' ∧ d'.Stands (.enum e) := by
  obtain ⟨-, ⟨⟨u, hu⟩, rfl⟩ | ⟨hn, -, rfl⟩⟩ := gives_enum h
  · exact ⟨.refl _, _, hu, rfl⟩
  · refine ⟨.add trivial hT (by rfl) ?_, _, Draft.get?_add_self hn, rfl⟩
    exact List.forall_mem_nil _

theorem noted?_addAll {ts : List WireType} {us : List Unit} (h : Steps addUnlessPresent d ts us d') :
    d'.connectionFields = d.connectionFields := by
  refine h.lift (R := fun d d' => d'.connectionFields = d.connectionFields) (fun _ => rfl)
    (fun h1 h2 => h2.trans h1) fun t _ {e u e'} h => ?_
  obtain ⟨-, -, -, rfl⟩ | ⟨-, rfl⟩ := gives_addUnlessPresent h
  · rfl
  · rfl

/-- All that connections share has the same needs. -/
theorem backs_marker {name : String} (hc : d.types.Has "Connection" "interface")
    (hs : ∀ hostName ∈ pagingScalars, ∀ p ∈ s.scalarPiece? hostName, d.Stands p) :
    d.Backs s (.marker name) := by
  intro q hq
  simp only [Setting.mem_needs, Setting.parts, List.mem_append, List.mem_map, List.mem_filterMap,
    Piece.outputs, Piece.inputs, List.not_mem_nil, false_and, exists_false, or_false] at hq
  rcases hq with ⟨marker, -, rfl⟩ | ⟨hostName, hm, hq⟩
  · exact .inr hc
  · exact hs hostName hm q hq

theorem covers_markers (hclosed : s.ClosedUnder T) {name : String} (hT : T (.marker name)) {u : Unit}
    (h : (markers s).Gives d u d') : d.Covers s T d' ∧ d'.types.Has "Connection" "interface" := by
  have hhas : d'.types.Has "Connection" "interface" :=
    (holds_markers h).has fun _ => WireType.kind_of_isInterface
  refine ⟨?_, hhas⟩
  obtain ⟨-, rfl⟩ | ⟨hno, hm⟩ := marked_of_gives h
  · exact .refl _
  obtain ⟨-, rfl⟩ | ⟨-, id, string, boolean, d1, d2, d3, us, h1, h2, h3, hs⟩ := gives_markers h
  · exact .refl _
  have hmarker (name : String) (hname : name ∈ markerNames) : T (.marker name) :=
    hclosed.part hT (List.mem_append_left _ (List.mem_map_of_mem hname))
  have hscalar (hostName : String) (hm : hostName ∈ pagingScalars) : ∀ p ∈ s.scalarPiece? hostName, T p :=
    fun p hp => hclosed.part hT (List.mem_append_right _ (List.mem_filterMap.mpr ⟨hostName, hm, hp⟩))
  obtain ⟨c1, s1⟩ := covers_scalar (hscalar "ID" (by decide)) h1
  obtain ⟨c2, s2⟩ := covers_scalar (hscalar "String" (by decide)) h2
  obtain ⟨c3, s3⟩ := covers_scalar (hscalar "bool" (by decide)) h3
  have hg : d3.Grows d' := hs.grows fun t ht => grows_addUnlessPresent (namedByKind_markerTypes t ht)
  have hstands : ∀ hostName ∈ pagingScalars, ∀ p ∈ s.scalarPiece? hostName, d'.Stands p := by
    simp only [pagingScalars, List.forall_mem_cons, List.not_mem_nil, false_imp_iff, implies_true, and_true]
    exact ⟨fun p hp => (s1 p hp).mono ((c2.trans c3).grows.trans hg).upholds,
      fun p hp => (s2 p hp).mono (c3.grows.trans hg).upholds, fun p hp => (s3 p hp).mono hg.upholds⟩
  refine (c1.trans (c2.trans c3)).trans ⟨hg, fun name t ht => ?_, fun hn => .inl ?_⟩
  · rcases get?_addAll_cases hs ht with hold | ⟨hname, hmem⟩
    · exact .inl hold
    have htype : MarkerType s t := ⟨id, string, boolean, ref_scalar h1, ref_scalar h2, ref_scalar h3, hmem⟩
    refine .inr ⟨.marker t.name, hmarker _ ?_, hname.symm, ⟨rfl, htype, hm⟩, backs_marker hhas hstands⟩
    simp only [markerTypes, List.mem_cons, List.not_mem_nil, or_false] at hmem
    rcases hmem with rfl | rfl | rfl | rfl <;> simp [markerNames, WireType.name]
  · rwa [Draft.noted?, noted?_addAll hs] at hn

/-! Builders that use a walk for the types below them. -/

section
variable {steps : Nat} (hclosed : s.ClosedUnder T) (hw : (Walker.within s steps).Covers s T)
include hw

theorem covers_argument {field : String} {a : Argument} {out : WireArgument}
    (hT : ∀ p ∈ s.inputPiece? true a.type, T p)
    (h : (argument s (.within s steps) field a).Gives d out d') :
    d.Covers s T d' ∧ ∀ p ∈ s.inputPiece? false a.type, d'.Stands p := by
  obtain ⟨-, ref, default, href, -⟩ := gives_argument h
  exact hw.input hT href

omit hw in
theorem covers_pagingArgument {p : String × String × String} {out : WireArgument}
    (hT : ∀ q ∈ s.scalarPiece? p.2.1, T q) (h : (pagingArgument s p).Gives d out d') :
    d.Covers s T d' ∧ ∀ q ∈ s.scalarPiece? p.2.1, d'.Stands q := by
  obtain ⟨ref, href, -⟩ := gives_map.mp h
  exact covers_scalar hT href

omit hw in
/-- Arguments have the wire names of their declarations. -/
theorem all_name_argument {args : List Argument} {declared : List WireArgument}
    (h : List.Forall₂ (ArgumentForm s d d') args declared) (name : String) :
    (declared.all fun a => a.name != name) = args.all fun a => s.wireName a.name != name := by
  induction h with
  | nil => rfl
  | cons h _ ih => rw [List.all_cons, List.all_cons, ih, h.name]

omit hw in
theorem forms_arguments {field : String} {args : List Argument} {declared : List WireArgument}
    (h : Steps (argument s (.within s steps) field) d args declared d') :
    List.Forall₂ (ArgumentForm s d d') args declared :=
  h.forms (grows_argument (Walker.grows_within s steps) field) form_argument ArgumentForm.widen

theorem covers_outputField {f : Field} {out : WireField} (hT : ∀ p ∈ s.fieldPieces true f, T p)
    (h : (outputField s (.within s steps) f).Gives d out d') :
    d.Covers s T d' ∧ ∀ p ∈ s.fieldPieces false f, d'.Stands p := by
  simp only [Setting.mem_fieldPieces] at hT ⊢
  obtain ⟨ref, declared, d1, d2, href, hargs, arguments, binding, -, hcase⟩ := gives_outputField h
  obtain ⟨c1, s1⟩ := hw.output (fun p hp => hT p (.inl hp)) href
  obtain ⟨c2, s2⟩ := hargs.covers (fun a => (s.inputPiece? false a.type).toList) fun a ha {e b e'} hg => by
    simp only [Option.mem_toList]
    exact covers_argument hw (fun p hp => hT p (.inr (.inl ⟨a, ha, hp⟩))) hg
  have hup : d1.Upholds d2 := c2.grows.upholds
  rcases hcase with ⟨kind, element, hc, hpage, -⟩ | ⟨hc, -, -, rfl⟩
  · obtain ⟨added, hs, -⟩ := gives_paging nodup_pagingArguments hpage
    have hfilter : (pagingArguments.filter fun p => declared.all fun a => a.name != p.1) =
        pagingArguments.filter fun p => f.arguments.all fun a => s.wireName a.name != p.1 :=
      List.filter_congr fun p _ => all_name_argument (forms_arguments hargs) p.1
    have hpieces : s.pagingPieces f = ((pagingArguments.filter fun p => f.arguments.all fun a =>
        s.wireName a.name != p.1).filterMap fun p => s.scalarPiece? p.2.1) := by rw [Setting.pagingPieces, hc]
    rw [hfilter] at hs
    obtain ⟨c3, s3⟩ := hs.covers (fun p => (s.scalarPiece? p.2.1).toList) fun p hp {e b e'} hg => by
      simp only [Option.mem_toList]
      refine covers_pagingArgument (fun q hq => hT q (.inr (.inr ?_))) hg
      rw [hpieces]
      exact List.mem_filterMap.mpr ⟨p, hp, hq⟩
    refine ⟨c1.trans (c2.trans c3), ?_⟩
    rintro p (hp | ⟨a, ha, hp⟩ | hp)
    · exact ((s1 p hp).mono hup).mono c3.grows.upholds
    · exact (s2 a ha p (Option.mem_toList.mpr hp)).mono c3.grows.upholds
    · rw [hpieces] at hp
      obtain ⟨q, hq, hp⟩ := List.mem_filterMap.mp hp
      exact s3 q hq p (Option.mem_toList.mpr hp)
  · refine ⟨c1.trans c2, ?_⟩
    rintro p (hp | ⟨a, ha, hp⟩ | hp)
    · exact (s1 p hp).mono hup
    · exact s2 a ha p (Option.mem_toList.mpr hp)
    · unfold Setting.pagingPieces at hp
      split at hp
      · rename_i kind element hc'
        exact absurd hc' (hc kind element)
      · exact absurd hp List.not_mem_nil

omit hw in
theorem forms_outputFields {type : String} {declared : List Field} {fields : List WireField}
    (h : (outputFields s (.within s steps) type declared).Gives d fields d') : OutputForms s d d' declared fields :=
  (gives_outputFields h).1.forms (grows_outputField (Walker.grows_within s steps)) form_outputField OutputForm.widen

omit hw in
theorem forms_inputFields {type : String} {declared : List Field} {fields : List InputField}
    (h : (inputFields s (.within s steps) type declared).Gives d fields d') :
    List.Forall₂ (InputForm s d d') (declared.filter Field.inInput) fields :=
  (gives_inputFields h).1.forms grows_inputField form_inputField InputForm.widen

theorem covers_outputFields {type : String} {declared : List Field} {fields : List WireField}
    (hT : ∀ f ∈ declared.filter Field.inOutput, ∀ p ∈ s.fieldPieces true f, T p)
    (h : (outputFields s (.within s steps) type declared).Gives d fields d') :
    d.Covers s T d' ∧ (∀ f ∈ declared.filter Field.inOutput, ∀ p ∈ s.fieldPieces false f, d'.Stands p) ∧
      OutputForms s d d' declared fields := by
  obtain ⟨hs, -⟩ := gives_outputFields h
  obtain ⟨hc, hstands⟩ := hs.covers (s.fieldPieces false) fun f hf => covers_outputField hw (hT f hf)
  exact ⟨hc, hstands, forms_outputFields h⟩

theorem covers_inputFields {type : String} {declared : List Field} {fields : List InputField}
    (hT : ∀ f ∈ declared.filter Field.inInput, ∀ p ∈ s.inputPiece? true f.type, T p)
    (h : (inputFields s (.within s steps) type declared).Gives d fields d') :
    d.Covers s T d' ∧ (∀ f ∈ declared.filter Field.inInput, ∀ p ∈ s.inputPiece? false f.type, d'.Stands p) ∧
      List.Forall₂ (InputForm s d d') (declared.filter Field.inInput) fields := by
  obtain ⟨hs, -⟩ := gives_inputFields h
  obtain ⟨hc, hstands⟩ := hs.covers (fun f => (s.inputPiece? false f.type).toList) fun f hf {e b e'} hg => by
    obtain ⟨ref, default, href, -⟩ := gives_inputField hg
    simp only [Option.mem_toList]
    exact hw.input (hT f hf) href
  simp only [Option.mem_toList] at hstands
  exact ⟨hc, hstands, forms_inputFields h⟩

include hclosed

theorem covers_interface {r : Record} (hT : T (.interface r))
    (h : (interface s (.within s steps) r).Gives d ref d') :
    d.Covers s T d' ∧ d'.Stands (.interface r) := by
  have hhas : d'.types.Has r.name "interface" :=
    (holds_interface (Walker.grows_within s steps) h).has fun _ => WireType.kind_of_isInterface
  refine ⟨?_, hhas⟩
  obtain ⟨-, ⟨-, rfl⟩ | ⟨hn, fields, d1, hf, -, rfl⟩⟩ := gives_interface h
  · exact .refl _
  · obtain ⟨h1, hstands, hforms⟩ := covers_outputFields hw (fun f hf => hclosed.field hT hf) hf
    refine Draft.Starts.complete (.refl d) (by trivial) h1 hn rfl rfl hT ⟨fields, hforms, rfl⟩ fun q hq => ?_
    obtain hq | ⟨f, hf, hq⟩ | ⟨f, hf, -⟩ := Setting.mem_needs.mp hq
    · exact absurd hq List.not_mem_nil
    · exact hstands f hf q hq
    · exact absurd hf List.not_mem_nil

theorem covers_ensureInterface {name : String} {u : Unit} (hT : ∀ p ∈ s.interfacePiece? name, T p)
    (h : (ensureInterface s (.within s steps) name).Gives d u d') :
    d.Covers s T d' ∧ ∀ p ∈ s.interfacePiece? name, d'.Stands p := by
  unfold Setting.interfacePiece? at hT ⊢
  by_cases hm : isMarker name = true
  · simp only [hm, if_true, Option.mem_def, Option.some.injEq, forall_eq'] at hT ⊢
    obtain ⟨⟨t, ht⟩, rfl⟩ | ⟨-, ⟨-, hmark⟩ | ⟨hno, -⟩⟩ := gives_ensureInterface h
    · have hkind : (Piece.marker name).kind = "interface" := by
        rw [Piece.kind, if_neg]
        rintro rfl
        exact absurd hm (by decide)
      exact ⟨.refl _, .inl ⟨_, ht, hkind.symm⟩⟩
    · exact (covers_markers hclosed hT hmark).imp_right .inr
    · exact absurd (hm.symm.trans hno) (by decide)
  · simp only [hm] at hT ⊢
    obtain ⟨⟨t, ht⟩, rfl⟩ | ⟨-, ⟨hyes, -⟩ | ⟨-, r, ref, hr, hi⟩⟩ := gives_ensureInterface h
    · refine ⟨.refl _, fun p hp => ?_⟩
      obtain ⟨r, hr, rfl⟩ := Option.map_eq_some_iff.mp hp
      exact ⟨_, by rw [Piece.name, Setting.name_of_interface? hr]; exact ht, rfl⟩
    · exact absurd hyes hm
    · obtain ⟨hc, hstands⟩ := covers_interface hclosed hw (hT _ (by simp [hr])) hi
      refine ⟨hc, fun p hp => ?_⟩
      obtain ⟨r', hr', rfl⟩ := Option.map_eq_some_iff.mp hp
      cases hr.symm.trans hr'
      exact hstands

/-- An object type is made of the piece that has its name, its fields and its interfaces. -/
theorem covers_objectNamed {p : Piece} {interfaces : List String} {r : Record}
    (hstands : ∀ {e : Draft}, e.types.Has p.name "object" → e.Stands p)
    (hparts : s.parts p = interfaces.filterMap s.interfacePiece?)
    (houtputs : p.outputs = r.fields.filter Field.inOutput) (hinputs : p.inputs = [])
    (hmakes : ∀ {e e' fields}, OutputForms s e e' r.fields fields → p.Makes s e e'
      (.object { name := p.name, description := r.description, fields := fields, interfaces := interfaces }))
    (hT : T p) (h : (objectNamed s (.within s steps) p.name interfaces r).Gives d ref d') :
    d.Covers s T d' ∧ d'.Stands p := by
  have hhas : d'.types.Has p.name "object" :=
    (holds_objectNamed (Walker.grows_within s steps) h).has fun _ => WireType.kind_of_isObject
  refine ⟨?_, hstands hhas⟩
  obtain ⟨-, ⟨-, rfl⟩ | ⟨hn, fields, d1, us, d2, hf, -, hs, rfl⟩⟩ := gives_objectNamed h
  · exact .refl _
  · obtain ⟨h1, hfields, hforms⟩ :=
      covers_outputFields hw (fun f hf => hclosed.field hT (houtputs ▸ hf)) hf
    obtain ⟨h2, hinterfaces⟩ := hs.covers (fun i => (s.interfacePiece? i).toList) fun i hi {e b e'} hg => by
      simp only [Option.mem_toList]
      refine covers_ensureInterface hclosed hw (fun q hq => hclosed.part hT ?_) hg
      rw [hparts]
      exact List.mem_filterMap.mpr ⟨i, hi, hq⟩
    have hup : d1.Upholds d2 := h2.grows.upholds
    refine Draft.Starts.complete (.refl d) (by trivial) (h1.trans h2) hn rfl rfl hT
      (hmakes (hforms.imp fun _ _ hform => hform.widen (.refl _) hup.types)) fun q hq => ?_
    obtain hq | ⟨f, hf, hq⟩ | ⟨f, hf, -⟩ := Setting.mem_needs.mp hq
    · rw [hparts] at hq
      obtain ⟨i, hi, hq⟩ := List.mem_filterMap.mp hq
      exact hinterfaces i hi q (Option.mem_toList.mpr hq)
    · exact (hfields f (houtputs ▸ hf) q hq).mono hup
    · rw [hinputs] at hf
      exact absurd hf List.not_mem_nil

theorem covers_object {r : Record} (hT : T (.object r)) (h : (object s (.within s steps) r).Gives d ref d') :
    d.Covers s T d' ∧ d'.Stands (.object r) :=
  covers_objectNamed (p := .object r) hclosed hw id rfl rfl rfl (fun hf => ⟨_, hf, rfl⟩) hT h

theorem covers_node {r : Record} (hT : T (.node r))
    (h : (objectNamed s (.within s steps) (r.name ++ "Node") ["Node"] r).Gives d ref d') :
    d.Covers s T d' ∧ d'.Stands (.node r) :=
  covers_objectNamed (p := .node r) hclosed hw id rfl rfl rfl (fun hf => ⟨_, hf, rfl⟩) hT h

theorem covers_inputObject {r : Record} (hT : T (.input r))
    (h : (inputObject s (.within s steps) r).Gives d ref d') : d.Covers s T d' ∧ d'.Stands (.input r) := by
  have hhas : d'.types.Has (r.name ++ "Input") "input object" :=
    (holds_inputObject (Walker.grows_within s steps) h).has fun _ => WireType.kind_of_isInputObject
  refine ⟨?_, hhas⟩
  obtain ⟨-, ⟨-, rfl⟩ | ⟨hn, fields, d1, hf, -, rfl⟩⟩ := gives_inputObject h
  · exact .refl _
  · obtain ⟨h1, hstands, hforms⟩ := covers_inputFields hw (fun f hf => hclosed.input hT hf) hf
    refine Draft.Starts.complete (.refl d) (by exact ⟨r.name, rfl⟩) h1 hn rfl rfl hT ⟨fields, hforms, rfl⟩
      fun q hq => ?_
    obtain hq | ⟨f, hf, -⟩ | ⟨f, hf, hq⟩ := Setting.mem_needs.mp hq
    · exact absurd hq List.not_mem_nil
    · exact absurd hf List.not_mem_nil
    · exact hstands f hf q hq

omit hw hclosed in
theorem covers_edge {r : Record} {cursor : TypeRef} {u : Unit} (hT : T (.edge r))
    (hc : d.types.Has "Connection" "interface") (hs : ∀ p ∈ s.scalarPiece? "String", d.Stands p)
    (hcursor : s.outputRef? (.scalar "String") = some cursor)
    (h : (addUnlessPresent (.object (edgeType r cursor))).Gives d u d') :
    d.Covers s T d' ∧ d'.Stands (.edge r) := by
  obtain ⟨e, he, hk, rfl⟩ | ⟨hn, rfl⟩ := gives_addUnlessPresent h
  · exact ⟨.refl _, e, he, hk⟩
  · refine ⟨.add trivial hT ⟨cursor, hcursor, rfl⟩ fun q hq => ?_, _, Draft.get?_add_self hn, rfl⟩
    have hup : d.Upholds (d.add (.object (edgeType r cursor))) := (d.grows_add (by trivial)).upholds
    obtain hq | ⟨f, hf, -⟩ | ⟨f, hf, -⟩ := Setting.mem_needs.mp hq
    · rcases List.mem_cons.mp hq with rfl | hq
      · exact .inr (hc.keeps hup.types)
      · exact (hs q (Option.mem_toList.mp hq)).mono hup
    · exact absurd hf List.not_mem_nil
    · exact absurd hf List.not_mem_nil

end

end Build

/-! A connection type is noted after the types that all connections share are there, and these and their scalars
do not mind what is noted. -/

/-- A piece that a connection needs before it is noted. -/
def Piece.Plain : Piece → Prop
  | .scalar _ | .marker _ => True
  | _ => False

theorem Piece.Makes.noteConnection {s : Setting} {d d' : Draft} {p : Piece} {t : WireType} {name : String}
    {extra : List String} (hp : p.Plain) (h : p.Makes s d d' t) : p.Makes s d (d'.noteConnection name extra) t := by
  cases p with
  | scalar wireName => exact h
  | marker name => exact ⟨h.1, h.2.1, h.2.2.noteConnection⟩
  | _ => exact hp.elim

namespace Draft

variable {s : Setting} {T : Piece → Prop} {d d' : Draft} {p : Piece}

theorem Stands.noteConnection {name : String} {extra : List String} (hp : p.Plain) (h : d.Stands p) :
    (d.noteConnection name extra).Stands p := by
  cases p with
  | scalar wireName => exact h
  | marker name => exact h
  | _ => exact hp.elim

theorem plain_of_needs {named : Bool} {q : Piece} (hp : p.Plain) (hq : q ∈ s.needs named p) : q.Plain := by
  rw [Setting.mem_needs] at hq
  cases p with
  | scalar wireName => simp [Setting.parts, Piece.outputs, Piece.inputs] at hq
  | marker name =>
    simp only [Setting.parts, List.mem_append, List.mem_map, List.mem_filterMap, Piece.outputs, Piece.inputs,
      List.not_mem_nil, false_and, exists_false, or_false] at hq
    rcases hq with ⟨marker, -, rfl⟩ | ⟨hostName, -, hq⟩
    · trivial
    · obtain ⟨t, -, rfl⟩ := Option.map_eq_some_iff.mp hq
      trivial
  | _ => exact hp.elim

theorem Starts.noteConnection {kind : ConnectionKind} {r : Record}
    (h : d.Covers s (fun p => T p ∧ p.Plain) d') (hn : d.types.get? (r.name ++ "Connection") = none) :
    d.Starts s T (.connection kind r)
      (d'.noteConnection (r.name ++ "Connection") (kind.fields.map Field.name)) where
  grows := h.grows.noteConnection hn
  entry name t ht := by
    rcases h.entry name t ht with hold | ⟨q, ⟨hq, hplain⟩, hname, hmakes, hbacks⟩
    · exact .inl hold
    refine .inr ⟨q, hq, hname, hmakes.noteConnection hplain, fun q' hq' => ?_⟩
    exact (hbacks q' hq').noteConnection (plain_of_needs hplain hq')
  note {name extra} hnote := by
    rw [noted?, Draft.noteConnection, Entries.get?_insert] at hnote
    split at hnote
    · rename_i hname
      exact .inr ⟨kind, r, rfl, hname, Option.some.inj hnote⟩
    · rcases h.note hnote with hold | ⟨kind, r, ⟨-, hplain⟩, -⟩
      · exact .inl hold
      · exact hplain.elim

end Draft

namespace Build

variable {s : Setting} {T : Piece → Prop} {d d' : Draft} {ref : TypeRef} {steps : Nat}

/-- The name is taken before the fields are built, by the unfinished type or by a scalar of paging, so what is noted
for it stays. -/
theorem connection_made {kind : String} {r : Record} {fields : List WireField} {e : Draft}
    (hg : ((d.noteConnection (r.name ++ "Connection") (extraNames s kind)).add (connectionType s kind r [])).Grows e)
    (hforms : OutputForms s e d' (kindOf s kind).fields fields) (hrest : e.Grows d') :
    (Piece.connection (kindOf s kind) r).Makes s
      ((d.noteConnection (r.name ++ "Connection") (extraNames s kind)).add (connectionType s kind r [])) d'
      (connectionType s kind r (connectionHead s r ++ fields)) := by
  set noted := d.noteConnection (r.name ++ "Connection") (extraNames s kind)
  have hfree : (noted.add (connectionType s kind r [])).types.get? (r.name ++ "Connection") ≠ none :=
    noted.get?_add_ne_none _
  have hnote : (noted.add (connectionType s kind r [])).noted? (r.name ++ "Connection") =
      some (extraNames s kind) := by
    change Entries.get? (Entries.insert _ _ _) _ = _
    rw [Entries.get?_insert, if_pos rfl]
  refine ⟨(hg.trans hrest).keeps.ne_none hfree, ((hg.trans hrest).notes hfree).trans hnote, fields, ?_, rfl⟩
  exact hforms.imp fun _ _ hform => hform.widen hg (.refl _)

section
variable (hclosed : s.ClosedUnder T) (hw : (Walker.within s steps).Covers s T)
include hclosed hw

theorem covers_connection {kind : String} {element : HostType}
    (hT : ∀ p ∈ s.outputPiece? true (.connection kind element), T p)
    (h : (connection s (.within s steps) kind element).Gives d ref d') :
    d.Covers s T d' ∧ ∀ p ∈ s.outputPiece? false (.connection kind element), d'.Stands p := by
  have hg := Walker.grows_within s steps
  obtain ⟨r, hr, -, hcase⟩ := gives_connection h
  simp only [Setting.outputPiece?, hr, Option.map_some, Option.mem_def, Option.some.injEq, forall_eq'] at hT ⊢
  rcases hcase with ⟨⟨t, ht⟩, hnoted, rfl⟩ |
    ⟨hn, -, d1, node, d2, cursor, d3, d4, fields, d5, hm, hnode, hc, he, hf, rfl⟩
  · refine ⟨.refl _, ?_⟩
    cases hnote : d'.noted? (r.name ++ "Connection") with
    | none => exact .inr ⟨⟨_, ht, rfl⟩, hnote⟩
    | some defined => exact .inl ⟨by simp [ht], hnote.trans (congrArg some (hnoted defined hnote))⟩
  have hmarker : T (.marker "Connection") := hclosed.part hT (by simp [Setting.parts])
  have hplain : s.ClosedUnder fun p => T p ∧ p.Plain :=
    fun p hp q hq => ⟨hclosed p hp.1 q hq, Draft.plain_of_needs hp.2 hq⟩
  obtain ⟨h0, hmarked⟩ := covers_markers hplain ⟨hmarker, trivial⟩ hm
  have hstart : d.Starts s T (.connection (kindOf s kind) r)
    (d1.noteConnection (r.name ++ "Connection") (extraNames s kind)) := .noteConnection h0 hn
  set noted := d1.noteConnection (r.name ++ "Connection") (extraNames s kind)
  set unfinished := connectionType s kind r []
  have hadd : noted.Grows (noted.add unfinished) := noted.grows_add (by trivial)
  obtain ⟨h1, hsnode⟩ := covers_node hclosed hw (hclosed.part hT (by simp [Setting.parts])) hnode
  have hedge : T (.edge r) := hclosed.part hT (by simp [Setting.parts])
  obtain ⟨h2, hsstring⟩ := covers_scalar
    (fun p hp => hclosed.part hedge (List.mem_cons_of_mem _ (Option.mem_toList.mpr hp))) hc
  have hhas : noted.types.Has "Connection" "interface" := hmarked
  obtain ⟨h3, hsedge⟩ := covers_edge hedge (hhas.keeps (hadd.trans (h1.trans h2).grows).keeps) hsstring
    (ref_scalar hc) he
  obtain ⟨h4, hsfields, hforms⟩ :=
    covers_outputFields hw (fun f hf => hclosed.field (p := .connection (kindOf s kind) r) hT hf) hf
  have hbelow : (noted.add unfinished).Covers s T d5 := h1.trans (h2.trans (h3.trans h4))
  have hmakes := connection_made (h1.trans (h2.trans h3)).grows hforms h4.grows
  refine ⟨hstart.complete (by trivial) hbelow hn rfl rfl hT hmakes fun q hq => ?_, ?_⟩
  · obtain hq | ⟨f, hf, hq⟩ | ⟨f, hf, -⟩ := Setting.mem_needs.mp hq
    · simp only [Setting.parts, List.mem_cons, List.not_mem_nil, or_false] at hq
      rcases hq with rfl | rfl | rfl
      · exact .inr (hhas.keeps (hadd.trans hbelow.grows).keeps)
      · exact hsnode.mono (h2.trans (h3.trans h4)).grows.upholds
      · exact hsedge.mono h4.grows.upholds
    · exact hsfields f hf q hq
    · exact absurd hf List.not_mem_nil
  · have hup := d5.upholds_replace (connectionType s kind r (connectionHead s r ++ fields))
    exact .inl ⟨hup.types.ne_none hmakes.1, (hup.notes hmakes.1).trans hmakes.2.1⟩

/-- A reference by name leaves the piece that it means standing, unless it finds something under the name. -/
theorem covers_namedOutput {name : String} (hT : ∀ p ∈ s.outputPiece? true (.named name), T p)
    (h : (namedOutput s (.within s steps) name).Gives d ref d') :
    d.Covers s T d' ∧ ((∃ t, d.types.get? name = some t ∧ t.isOutput = true) ∧ d' = d ∨
      d.types.get? name = none ∧ ∀ p ∈ s.outputPiece? true (.named name), d'.Stands p) := by
  simp only [Setting.outputPiece?, if_true] at hT ⊢
  obtain ⟨hfound, -, rfl⟩ | ⟨hn, ⟨r, hr, hi⟩ | ⟨hno, r, hr, ho⟩ | ⟨hi, hr, hm, -, hmark⟩⟩ := gives_namedOutput h
  · exact ⟨.refl _, .inl ⟨hfound, rfl⟩⟩
  · obtain ⟨hc, hs⟩ := covers_interface hclosed hw (hT _ (by simp [hr])) hi
    exact ⟨hc, .inr ⟨hn, by simpa [hr] using hs⟩⟩
  · obtain ⟨hc, hs⟩ := covers_object hclosed hw (hT _ (by simp [hno, hr])) ho
    exact ⟨hc, .inr ⟨hn, by simpa [hno, hr] using hs⟩⟩
  · obtain ⟨hc, hs⟩ := covers_markers hclosed (hT (.marker name) (by simp [hi, hr, hm])) hmark
    have hmarker : d'.Stands (.marker name) := .inr hs
    exact ⟨hc, .inr ⟨hn, by simpa [hi, hr, hm] using hmarker⟩⟩

theorem covers_namedInput {name : String} (hT : ∀ p ∈ s.inputPiece? true (.named name), T p)
    (h : (namedInput s (.within s steps) name).Gives d ref d') :
    d.Covers s T d' ∧ ((∃ t, d.types.get? name = some t ∧ t.isInput = true) ∧ d' = d ∨
      (∀ t, d.types.get? name = some t → t.isInput = false) ∧
        ∀ p ∈ s.inputPiece? true (.named name), d'.Stands p) := by
  simp only [Setting.inputPiece?, if_true] at hT ⊢
  obtain ⟨hfound, -, rfl⟩ | ⟨hn, r, hr, hi⟩ := gives_namedInput h
  · exact ⟨.refl _, .inl ⟨hfound, rfl⟩⟩
  · obtain ⟨hc, hs⟩ := covers_inputObject hclosed hw (hT _ (by rw [hr]; rfl)) hi
    refine ⟨hc, .inr ⟨hn, fun p hp => ?_⟩⟩
    rw [hr] at hp
    cases hp
    exact hs

end

end Build

namespace Walker

variable {s : Setting} {T : Piece → Prop}

/-- The walk covers with pieces of a closed choice, however many steps it is given. -/
theorem covers_within (hclosed : s.ClosedUnder T) (steps : Nat) : (within s steps).Covers s T := by
  induction steps with
  | zero => exact ⟨fun _ h => (Build.gives_throw h).elim, fun _ h => (Build.gives_throw h).elim⟩
  | succ steps ih =>
    constructor
    · intro t d ref d' hT h
      cases t with
      | scalar hostName => exact Build.covers_scalar hT h
      | enum key =>
        obtain ⟨e, he, h⟩ := gives_output_enum h
        simp only [Setting.outputPiece?, he, Option.map_some, Option.mem_def, Option.some.injEq,
          forall_eq'] at hT ⊢
        exact Build.covers_enum hT h
      | list element =>
        obtain ⟨_, he, -⟩ := gives_output_list h
        exact ih.output (t := element) hT he
      | optional inner => exact ih.output (t := inner) hT h
      | record key =>
        obtain ⟨r, hr, h⟩ := gives_output_record h
        simp only [Setting.outputPiece?, hr, Option.map_some, Option.mem_def, Option.some.injEq,
          forall_eq'] at hT ⊢
        exact Build.covers_object hclosed ih hT h
      | connection kind element => exact Build.covers_connection hclosed ih hT h
      | named name => exact ⟨(Build.covers_namedOutput hclosed ih hT h).1, fun p hp => by cases hp⟩
    · intro t d ref d' hT h
      cases t with
      | scalar hostName => exact Build.covers_scalar hT h
      | enum key =>
        obtain ⟨e, he, h⟩ := gives_input_enum h
        simp only [Setting.inputPiece?, he, Option.map_some, Option.mem_def, Option.some.injEq,
          forall_eq'] at hT ⊢
        exact Build.covers_enum hT h
      | list element =>
        obtain ⟨_, he, -⟩ := gives_input_list h
        exact ih.input (t := element) hT he
      | optional inner => exact ih.input (t := inner) hT h
      | record key =>
        obtain ⟨r, hr, h⟩ := gives_input_record h
        simp only [Setting.inputPiece?, hr, Option.map_some, Option.mem_def, Option.some.injEq,
          forall_eq'] at hT ⊢
        exact Build.covers_inputObject hclosed ih hT h
      | connection kind element => exact (Build.gives_throw h).elim
      | named name => exact ⟨(Build.covers_namedInput hclosed ih hT h).1, fun p hp => by cases hp⟩

end Walker

/-! Whole builds. -/

/-- A closed choice that has all that a build starts from. -/
structure Setting.StartsFrom (s : Setting) (roots : RootRecords) (T : Piece → Prop) : Prop where
  closed : s.ClosedUnder T
  enums : ∀ e ∈ s.options.enums, T (.enum e)
  interfaces : ∀ r ∈ s.options.interfaces, T (.interface r)
  objects : ∀ r ∈ s.declared roots, T (.object r)
  inputs : ∀ r ∈ s.options.mutationTypes, T (.input r)

namespace Build

variable {s : Setting} {roots : RootRecords} {T : Piece → Prop} {d d' : Draft} {steps : Nat}

theorem covers_schema (hT : s.StartsFrom roots T) {out : String × Option String × Option String}
    (h : (schema s (.within s steps) roots).Gives d out d') : d.Covers s T d' := by
  have hw : (Walker.within s steps).Covers s T := Walker.covers_within hT.closed steps
  have hlifts : (Walker.within s steps).Lifts s roots (Draft.Covers s T) :=
    { refl := .refl
      trans := .trans
      enum := fun e he _ _ _ hg => (covers_enum (hT.enums e he) hg).1
      interface := fun r hr _ _ _ hg => (covers_interface hT.closed hw (hT.interfaces r hr) hg).1
      object := fun r hr _ _ _ hg => (covers_object hT.closed hw (hT.objects r hr) hg).1
      inputObject := fun r hr _ _ _ hg => (covers_inputObject hT.closed hw (hT.inputs r hr) hg).1 }
  exact lift_schema hlifts h

end Build

end RecordGraph
