import RecordGraph.Proofs.Build.Offers
import RecordGraph.Proofs.Build.Roots
import RecordGraph.Proofs.Build.Tidy
/-! No type of a built model is empty. Objects, interfaces and input objects are registered without their fields,
and other types may refer to them by then. A builder that succeeds has completed what it registered so, and it
completes nothing without fields; so whatever a successful builder has added is full, and made of a piece that is.
Some names a build takes for certain: those that it starts from, and those that all pieces it may take under such a
name call for. If there are only empty pieces to take under one of them, the build fails. -/

namespace RecordGraph

namespace WireType

/-- The type has a field or a member. -/
def Filled : WireType → Prop
  | .scalar _ => True
  | .enum t => t.members ≠ []
  | .object t => t.fields ≠ []
  | .interface t => t.fields ≠ []
  | .inputObject t => t.fields ≠ []

end WireType

namespace Piece

/-- The descriptor has what its form shows or takes. The other forms have fields of their own. -/
def Filled : Piece → Prop
  | .enum e => e.members ≠ []
  | .object r | .interface r | .node r => r.fields.filter Field.inOutput ≠ []
  | .input r => r.fields.filter Field.inInput ≠ []
  | .scalar _ | .marker _ | .edge _ | .connection _ _ => True

/-- A reference by name takes the type of such a piece as an input. -/
def TakenAsInput : Piece → Prop
  | .scalar _ | .enum _ | .input _ => True
  | _ => False

end Piece

namespace Setting

/-- The pieces that a build starts from: the types that the options name, and the roots. -/
def starts (s : Setting) (roots : RootRecords) : List Piece :=
  s.options.enums.map .enum ++ s.options.interfaces.map .interface ++ s.options.queryTypes.map .object ++
    s.options.mutationTypes.map .input ++ roots.named.map fun p => .object { p.2 with name := p.1 }

/-- A piece that the starts of a build lead to. -/
def Leads (s : Setting) (roots : RootRecords) (p : Piece) : Prop :=
  ∃ q ∈ s.starts roots, Relation.ReflTransGen s.Needs q p

/-- A build that makes a type of the first piece comes to the second. A reference by name must not find another
input type under the name of the record. -/
def Calls (s : Setting) (roots : RootRecords) (p q : Piece) : Prop :=
  ¬ q.Plain ∧ (q ∈ s.needs false p ∨ s.Needs p q ∧
    ∀ r, q = .input r → ∀ q', s.Leads roots q' → q'.name = r.name → ¬ q'.TakenAsInput)

/-- A build takes the name for certain: it starts from a piece with the name, or whatever it can make a type of
under another such name calls for one with the name. -/
inductive Opens (s : Setting) (roots : RootRecords) : String → Prop
  | start {p : Piece} : p ∈ s.starts roots → Opens s roots p.name
  | step {name called : String} : Opens s roots name →
      (∀ p, s.Leads roots p → p.name = name → p.Filled → ∃ q, s.Calls roots p q ∧ q.name = called) →
        Opens s roots called

end Setting

/-- A registered type is full and made of a full piece of some choice, which has what it needs. -/
def Registry.Full (s : Setting) (T : Piece → Prop) (r : Registry WireType) (name : String) (t : WireType) : Prop :=
  t.Filled ∧ ∃ p, T p ∧ p.name = name ∧ p.kind = t.kind ∧ p.Filled ∧ r.Provides fun named => s.needs named p

theorem Registry.Full.keeps {s : Setting} {T : Piece → Prop} {r r' : Registry WireType} {name : String}
    {t : WireType} (hk : r.Keeps r') : r.Full s T name t → r'.Full s T name t :=
  fun ⟨hfilled, p, hp, hname, hkind, hpf, hneeds⟩ => ⟨hfilled, p, hp, hname, hkind, hpf, hneeds.keeps hk⟩

/-- Whatever the second draft holds that the first does not is full. -/
structure Draft.Fills (s : Setting) (T : Piece → Prop) (d d' : Draft) : Prop where
  keeps : d.types.Keeps d'.types
  entry : ∀ {name t}, d'.types.get? name = some t → d.types.get? name = some t ∨ d'.types.Full s T name t

/-- A walk that fills what it registers, with pieces of a choice. -/
structure Walker.Fills (s : Setting) (T : Piece → Prop) (w : Walker) : Prop where
  output : ∀ {t d ref d'}, (∀ p ∈ s.outputPiece? true t, T p) → (w.output t).Gives d ref d' → d.Fills s T d'
  input : ∀ {t d ref d'}, (∀ p ∈ s.inputPiece? true t, T p) → (w.input t).Gives d ref d' → d.Fills s T d'

namespace Draft

variable {s : Setting} {T : Piece → Prop} {d d' d₁ d₂ d₃ : Draft} {p : Piece} {t u : WireType}

theorem Fills.refl (d : Draft) : d.Fills s T d := ⟨.refl _, .inl⟩

theorem Fills.trans (h1 : d₁.Fills s T d₂) (h2 : d₂.Fills s T d₃) : d₁.Fills s T d₃ where
  keeps := h1.keeps.trans h2.keeps
  entry ht := by
    rcases h2.entry ht with ht | hfull
    · exact (h1.entry ht).imp_right (.keeps h2.keeps)
    · exact .inr hfull

/-- Adding a full type. -/
theorem Fills.add (hk : t.NamedByKind) (ht : (d.add t).types.Full s T t.name t) : d.Fills s T (d.add t) where
  keeps := (d.grows_add hk).keeps
  entry hu := by
    rcases get?_add_cases hu with hu | ⟨rfl, rfl⟩
    · exact .inl hu
    · exact .inr ht

/-- A builder registers its type empty, takes the steps below it, and completes it. -/
theorem Fills.complete (h : d.Fills s T d₁) (hk : u.NamedByKind) (h1 : (d₁.add u).Fills s T d₂)
    (hname : u.name = t.name) (hkind : u.kind = t.kind) (ht : d₂.types.Full s T t.name t) :
    d.Fills s T (d₂.replace t) where
  keeps := h.keeps.trans (((d₁.grows_add hk).keeps.trans h1.keeps).trans (d₂.keeps_replace t))
  entry {name v} hv := by
    have hkeep := d₂.keeps_replace t
    -- What is found is the finished type, or from the steps below it, or from before, and not the empty type,
    -- which the finished one has replaced.
    rcases get?_replace_cases hv with ⟨rfl, rfl⟩ | ⟨hv2, hother⟩
    · exact .inr (ht.keeps hkeep)
    rcases h1.entry hv2 with hv1 | hfull
    · rcases get?_add_cases hv1 with hv0 | ⟨rfl, rfl⟩
      · exact (h.entry hv0).imp_right (.keeps (((d₁.grows_add hk).keeps.trans h1.keeps).trans hkeep))
      · exact absurd hkind (hother hname)
    · exact .inr (hfull.keeps hkeep)

end Draft

namespace Build

variable {α β : Type} {s : Setting} {T : Piece → Prop} {d d' : Draft} {ref : TypeRef}

theorem Steps.fills {x : α → Build β} {as : List α} {bs : List β} (h : Steps x d as bs d')
    (hx : ∀ a ∈ as, ∀ {e b e'}, (x a).Gives e b e' → e.Fills s T e') : d.Fills s T d' :=
  h.lift (R := Draft.Fills s T) .refl (fun h1 h2 => h1.trans h2) fun a ha => hx a ha

/-- Values come from items. -/
theorem Steps.ne_nil {x : α → Build β} {as : List α} {bs : List β} (h : Steps x d as bs d') (hb : bs ≠ []) :
    as ≠ [] := by
  cases h with
  | nil => exact absurd rfl hb
  | cons _ _ => exact List.cons_ne_nil _ _

/-! Leaves. -/

theorem fills_scalar {hostName : String} (hT : ∀ p ∈ s.scalarPiece? hostName, T p)
    (h : (scalar s hostName).Gives d ref d') : d.Fills s T d' := by
  obtain ⟨t, ht, -, ⟨-, rfl⟩ | ⟨-, rfl⟩⟩ := gives_scalar h
  · exact .refl _
  · have hp : T (.scalar t.wireName) := hT _ (by rw [Setting.scalarPiece?, ht]; rfl)
    exact .add trivial ⟨trivial, _, hp, rfl, rfl, trivial, Registry.provides_plain trivial⟩

theorem fills_enum {e : EnumType} (hT : T (.enum e)) (h : (enum e).Gives d ref d') : d.Fills s T d' := by
  obtain ⟨-, ⟨-, rfl⟩ | ⟨-, hm, rfl⟩⟩ := gives_enum h
  · exact .refl _
  · refine .add trivial ⟨hm, _, hT, rfl, rfl, hm, ?_⟩
    exact Registry.provides_needs (List.forall_mem_nil _) (List.forall_mem_nil _) (List.forall_mem_nil _)

theorem filled_markerTypes {id string boolean : TypeRef} : ∀ t ∈ markerTypes s id string boolean, t.Filled := by
  intro t ht
  simp only [markerTypes, List.mem_cons, List.not_mem_nil, or_false] at ht
  rcases ht with rfl | rfl | rfl | rfl <;> exact List.cons_ne_nil _ _

theorem fills_markers (hclosed : s.ClosedUnder T) {name : String} (hT : T (.marker name)) {u : Unit}
    (h : (markers s).Gives d u d') : d.Fills s T d' := by
  obtain ⟨-, rfl⟩ | ⟨-, id, string, boolean, d1, d2, d3, us, h1, h2, h3, hs⟩ := gives_markers h
  · exact .refl _
  have hscalar (hostName : String) (hm : hostName ∈ pagingScalars) : ∀ p ∈ s.scalarPiece? hostName, T p :=
    fun p hp => hclosed.part hT (List.mem_append_right _ (List.mem_filterMap.mpr ⟨hostName, hm, hp⟩))
  have f1 := fills_scalar (hscalar "ID" (by decide)) h1
  have f2 := fills_scalar (hscalar "String" (by decide)) h2
  have f3 := fills_scalar (hscalar "bool" (by decide)) h3
  have hg : d3.Grows d' := hs.grows fun t ht => grows_addUnlessPresent (namedByKind_markerTypes t ht)
  refine (f1.trans (f2.trans f3)).trans ⟨hg.keeps, fun {name t} ht => ?_⟩
  refine (get?_addAll_cases hs ht).imp_right fun ⟨hname, hmem⟩ => ?_
  have htype : MarkerType s t := ⟨id, string, boolean, ref_scalar h1, ref_scalar h2, ref_scalar h3, hmem⟩
  have hmarker : T (.marker t.name) := by
    refine hclosed.part hT (List.mem_append_left _ (List.mem_map_of_mem ?_))
    simp only [markerTypes, List.mem_cons, List.not_mem_nil, or_false] at hmem
    rcases hmem with rfl | rfl | rfl | rfl <;> simp [markerNames, WireType.name]
  exact ⟨filled_markerTypes t hmem, _, hmarker, hname.symm, (Piece.kind_of_markerType htype).symm, trivial,
    Registry.provides_plain trivial⟩

/-! Builders that use a walk for the types below them. -/

section
variable {steps : Nat} (hclosed : s.ClosedUnder T) (hw : (Walker.within s steps).Fills s T)
include hw

theorem fills_argument {field : String} {a : Argument} {out : WireArgument}
    (hT : ∀ p ∈ s.inputPiece? true a.type, T p)
    (h : (argument s (.within s steps) field a).Gives d out d') : d.Fills s T d' := by
  obtain ⟨-, ref, default, href, -⟩ := gives_argument h
  exact hw.input hT href

omit hw in
theorem fills_pagingArgument {p : String × String × String} {out : WireArgument}
    (hT : ∀ q ∈ s.scalarPiece? p.2.1, T q) (h : (pagingArgument s p).Gives d out d') : d.Fills s T d' := by
  obtain ⟨ref, href, -⟩ := gives_map.mp h
  exact fills_scalar hT href

theorem fills_outputField {f : Field} {out : WireField} (hT : ∀ p ∈ s.fieldPieces true f, T p)
    (h : (outputField s (.within s steps) f).Gives d out d') : d.Fills s T d' := by
  simp only [Setting.mem_fieldPieces] at hT
  obtain ⟨ref, declared, d1, d2, href, hargs, arguments, binding, -, hcase⟩ := gives_outputField h
  have h1 := hw.output (fun p hp => hT p (.inl hp)) href
  have h2 := hargs.fills fun a ha => fills_argument hw fun p hp => hT p (.inr (.inl ⟨a, ha, hp⟩))
  rcases hcase with ⟨kind, element, hc, hpage, -⟩ | ⟨-, -, -, rfl⟩
  · obtain ⟨added, hs, -⟩ := gives_paging nodup_pagingArguments hpage
    refine h1.trans (h2.trans (hs.fills fun p hp {e b e'} => fills_pagingArgument fun q hq => hT q (.inr (.inr ?_))))
    rw [Setting.pagingPieces, hc]
    rw [List.filter_congr fun p _ => all_name_argument (forms_arguments hargs) p.1] at hp
    exact List.mem_filterMap.mpr ⟨p, hp, hq⟩
  · exact h1.trans h2

theorem fills_outputFields {type : String} {declared : List Field} {fields : List WireField}
    (hT : ∀ f ∈ declared.filter Field.inOutput, ∀ p ∈ s.fieldPieces true f, T p)
    (h : (outputFields s (.within s steps) type declared).Gives d fields d') : d.Fills s T d' :=
  (gives_outputFields h).1.fills fun f hf => fills_outputField hw (hT f hf)

theorem fills_inputFields {type : String} {declared : List Field} {fields : List InputField}
    (hT : ∀ f ∈ declared.filter Field.inInput, ∀ p ∈ s.inputPiece? true f.type, T p)
    (h : (inputFields s (.within s steps) type declared).Gives d fields d') : d.Fills s T d' := by
  refine (gives_inputFields h).1.fills fun f hf {e b e'} hg => ?_
  obtain ⟨ref, default, href, -⟩ := gives_inputField hg
  exact hw.input (hT f hf) href

include hclosed

theorem fills_interface {r : Record} (hT : T (.interface r))
    (h : (interface s (.within s steps) r).Gives d ref d') : d.Fills s T d' := by
  obtain ⟨-, ⟨-, rfl⟩ | ⟨-, fields, d1, hf, hne, rfl⟩⟩ := gives_interface h
  · exact .refl _
  · have h1 := fills_outputFields hw (fun f hf => hclosed.field hT hf) hf
    have hneeds := Registry.provides_needs (p := .interface r) (List.forall_mem_nil _)
      (provides_outputFields (Walker.provides_within s steps) hf) (List.forall_mem_nil _)
    have hpf := (gives_outputFields hf).1.ne_nil hne
    exact .complete (.refl d) (by trivial) h1 rfl rfl ⟨hne, _, hT, rfl, rfl, hpf, hneeds⟩

theorem fills_ensureInterface {name : String} {u : Unit} (hT : ∀ p ∈ s.interfacePiece? name, T p)
    (h : (ensureInterface s (.within s steps) name).Gives d u d') : d.Fills s T d' := by
  unfold Setting.interfacePiece? at hT
  obtain ⟨-, rfl⟩ | ⟨-, ⟨hm, hmark⟩ | ⟨hm, r, ref, hr, hi⟩⟩ := gives_ensureInterface h
  · exact .refl _
  · exact fills_markers hclosed (hT (.marker name) (by simp [hm])) hmark
  · exact fills_interface hclosed hw (hT _ (by simp [hm, hr])) hi

/-- An object type is full of the fields of the piece that has its name and its interfaces. -/
theorem fills_objectNamed {p : Piece} {interfaces : List String} {r : Record}
    (hkind : p.kind = "object") (hfilled : r.fields.filter Field.inOutput ≠ [] → p.Filled)
    (hparts : s.parts p = interfaces.filterMap s.interfacePiece?)
    (houtputs : p.outputs = r.fields.filter Field.inOutput) (hinputs : p.inputs = []) (hT : T p)
    (h : (objectNamed s (.within s steps) p.name interfaces r).Gives d ref d') : d.Fills s T d' := by
  obtain ⟨-, ⟨-, rfl⟩ | ⟨-, fields, d1, us, d2, hf, hne, hs, rfl⟩⟩ := gives_objectNamed h
  · exact .refl _
  · have h1 := fills_outputFields hw (fun f hf => hclosed.field hT (houtputs ▸ hf)) hf
    have h2 := hs.fills fun i hi => fills_ensureInterface hclosed hw fun q hq => hclosed.part hT (by
      rw [hparts]
      exact List.mem_filterMap.mpr ⟨i, hi, hq⟩)
    have hneeds : d2.types.Provides fun named => s.needs named p := by
      refine Registry.provides_needs ?_ ?_ (hinputs ▸ List.forall_mem_nil _)
      · rw [hparts]
        exact offers_interfaces hs
      · rw [houtputs]
        exact fun f hf' => (provides_outputFields (Walker.provides_within s steps) hf f hf').keeps h2.keeps
    have hpf := hfilled ((gives_outputFields hf).1.ne_nil hne)
    exact .complete (.refl d) (by trivial) (h1.trans h2) rfl rfl ⟨hne, _, hT, rfl, hkind, hpf, hneeds⟩

theorem fills_object {r : Record} (hT : T (.object r)) (h : (object s (.within s steps) r).Gives d ref d') :
    d.Fills s T d' :=
  fills_objectNamed (p := .object r) hclosed hw rfl id rfl rfl rfl hT h

theorem fills_node {r : Record} (hT : T (.node r))
    (h : (objectNamed s (.within s steps) (r.name ++ "Node") ["Node"] r).Gives d ref d') : d.Fills s T d' :=
  fills_objectNamed (p := .node r) hclosed hw rfl id rfl rfl rfl hT h

theorem fills_inputObject {r : Record} (hT : T (.input r))
    (h : (inputObject s (.within s steps) r).Gives d ref d') : d.Fills s T d' := by
  obtain ⟨-, ⟨-, rfl⟩ | ⟨-, fields, d1, hf, hne, rfl⟩⟩ := gives_inputObject h
  · exact .refl _
  · have h1 := fills_inputFields hw (fun f hf => hclosed.input hT hf) hf
    have hneeds := Registry.provides_needs (p := .input r) (List.forall_mem_nil _) (List.forall_mem_nil _)
      (provides_inputFields (Walker.provides_within s steps) hf)
    have hpf := (gives_inputFields hf).1.ne_nil hne
    exact .complete (.refl d) (by exact ⟨r.name, rfl⟩) h1 rfl rfl ⟨hne, _, hT, rfl, rfl, hpf, hneeds⟩

omit hw hclosed in
theorem fills_edge {r : Record} {cursor : TypeRef} {u : Unit} (hT : T (.edge r))
    (h : (addUnlessPresent (.object (edgeType r cursor))).Gives d u d') : d.Fills s T d' := by
  obtain ⟨e, -, -, rfl⟩ | ⟨-, rfl⟩ := gives_addUnlessPresent h
  · exact .refl _
  · refine .add trivial ⟨List.cons_ne_nil _ _, _, hT, rfl, rfl, trivial, ?_⟩
    refine Registry.provides_needs (fun q hq named => .of_plain ?_) (List.forall_mem_nil _) (List.forall_mem_nil _)
    rcases List.mem_cons.mp hq with rfl | hq
    · trivial
    · obtain ⟨wireName, rfl⟩ := Setting.scalarPiece?_cases (Option.mem_toList.mp hq)
      trivial

theorem fills_connection {kind : String} {element : HostType}
    (hT : ∀ p ∈ s.outputPiece? true (.connection kind element), T p)
    (h : (connection s (.within s steps) kind element).Gives d ref d') : d.Fills s T d' := by
  have hg := Walker.grows_within s steps
  obtain ⟨r, hr, -, ⟨-, -, rfl⟩ |
    ⟨-, -, d1, node, d2, cursor, d3, d4, fields, d5, hm, hnode, hc, he, hf, rfl⟩⟩ := gives_connection h
  · exact .refl _
  simp only [Setting.outputPiece?, hr, Option.map_some, Option.mem_def, Option.some.injEq, forall_eq'] at hT
  have hpart {q : Piece} (hq : q ∈ s.parts (.connection (kindOf s kind) r)) : T q := hclosed.part hT hq
  have h0 := fills_markers hclosed (hpart (q := .marker "Connection") (by simp [Setting.parts])) hm
  have hnoted : d.Fills s T (d1.noteConnection (r.name ++ "Connection") (extraNames s kind)) := ⟨h0.keeps, h0.entry⟩
  have hedge : T (.edge r) := hpart (by simp [Setting.parts])
  have h1 := fills_node hclosed hw (hpart (by simp [Setting.parts])) hnode
  have h2 : d2.Fills s T d3 :=
    fills_scalar (fun p hp => hclosed.part hedge (List.mem_cons_of_mem _ (Option.mem_toList.mpr hp))) hc
  have h3 : d3.Fills s T d4 := fills_edge hedge he
  have h4 := fills_outputFields hw (fun f hf => hclosed.field hT hf) hf
  have hneeds : d5.types.Provides fun named => s.needs named (.connection (kindOf s kind) r) := by
    refine Registry.provides_needs (fun q hq named => ?_)
      (provides_outputFields (Walker.provides_within s steps) hf) (List.forall_mem_nil _)
    simp only [Setting.parts, List.mem_cons, List.not_mem_nil, or_false] at hq
    rcases hq with rfl | rfl | rfl
    · trivial
    · exact .of_ne_none ((h2.trans (h3.trans h4)).keeps.ne_none (holds_objectNamed hg hnode).ne_none)
    · exact .of_ne_none (h4.keeps.ne_none (holds_addUnlessPresent he).ne_none)
  exact hnoted.complete (by trivial) (h1.trans (h2.trans (h3.trans h4))) rfl rfl
    ⟨List.cons_ne_nil _ _, _, hT, rfl, rfl, trivial, hneeds⟩

theorem fills_namedOutput {name : String} (hT : ∀ p ∈ s.outputPiece? true (.named name), T p)
    (h : (namedOutput s (.within s steps) name).Gives d ref d') : d.Fills s T d' := by
  simp only [Setting.outputPiece?, if_true] at hT
  obtain ⟨-, -, rfl⟩ | ⟨-, ⟨r, hr, hi⟩ | ⟨hno, r, hr, ho⟩ | ⟨hi, hr, hm, -, hmark⟩⟩ := gives_namedOutput h
  · exact .refl _
  · exact fills_interface hclosed hw (hT _ (by simp [hr])) hi
  · exact fills_object hclosed hw (hT _ (by simp [hno, hr])) ho
  · exact fills_markers hclosed (hT (.marker name) (by simp [hi, hr, hm])) hmark

theorem fills_namedInput {name : String} (hT : ∀ p ∈ s.inputPiece? true (.named name), T p)
    (h : (namedInput s (.within s steps) name).Gives d ref d') : d.Fills s T d' := by
  simp only [Setting.inputPiece?, if_true] at hT
  obtain ⟨-, -, rfl⟩ | ⟨-, r, hr, hi⟩ := gives_namedInput h
  · exact .refl _
  · exact fills_inputObject hclosed hw (hT _ (by rw [hr]; rfl)) hi

end

end Build

namespace Walker

variable {s : Setting} {T : Piece → Prop}

/-- The walk fills what it registers, however many steps it is given. -/
theorem fills_within (hclosed : s.ClosedUnder T) (steps : Nat) : (within s steps).Fills s T := by
  induction steps with
  | zero => exact ⟨fun _ h => (Build.gives_throw h).elim, fun _ h => (Build.gives_throw h).elim⟩
  | succ steps ih =>
    constructor
    · intro t d ref d' hT h
      cases t with
      | scalar hostName => exact Build.fills_scalar hT h
      | enum key =>
        obtain ⟨e, he, h⟩ := gives_output_enum h
        exact Build.fills_enum (hT _ (by rw [Setting.outputPiece?, he]; rfl)) h
      | list element =>
        obtain ⟨_, he, -⟩ := gives_output_list h
        exact ih.output (t := element) hT he
      | optional inner => exact ih.output (t := inner) hT h
      | record key =>
        obtain ⟨r, hr, h⟩ := gives_output_record h
        exact Build.fills_object hclosed ih (hT _ (by rw [Setting.outputPiece?, hr]; rfl)) h
      | connection kind element => exact Build.fills_connection hclosed ih hT h
      | named name => exact Build.fills_namedOutput hclosed ih hT h
    · intro t d ref d' hT h
      cases t with
      | scalar hostName => exact Build.fills_scalar hT h
      | enum key =>
        obtain ⟨e, he, h⟩ := gives_input_enum h
        exact Build.fills_enum (hT _ (by rw [Setting.inputPiece?, he]; rfl)) h
      | list element =>
        obtain ⟨_, he, -⟩ := gives_input_list h
        exact ih.input (t := element) hT he
      | optional inner => exact ih.input (t := inner) hT h
      | record key =>
        obtain ⟨r, hr, h⟩ := gives_input_record h
        exact Build.fills_inputObject hclosed ih (hT _ (by rw [Setting.inputPiece?, hr]; rfl)) h
      | connection kind element => exact (Build.gives_throw h).elim
      | named name => exact Build.fills_namedInput hclosed ih hT h

end Walker

/-! Whole builds. -/

namespace Build

variable {α β : Type} {s : Setting} {roots : RootRecords} {T : Piece → Prop} {w : Walker} {d d' d'' : Draft}
  {steps : Nat}

/-- The builder of a piece that a build may start from. -/
def start (s : Setting) (w : Walker) : Piece → Build TypeRef
  | .enum e => enum e
  | .interface r => interface s w r
  | .object r => object s w r
  | .input r => inputObject s w r
  | p => throw (.unmappableType p.name)

theorem Steps.append {x : α → Build β} {as as' : List α} {bs bs' : List β} (h : Steps x d as bs d')
    (h' : Steps x d' as' bs' d'') : Steps x d (as ++ as') (bs ++ bs') d'' := by
  induction h with
  | nil => exact h'
  | cons h _ ih => exact .cons h (ih h')

theorem steps_start {x : α → Build Unit} (piece : α → Piece) {as : List α} {u : Unit}
    (h : (as.forM x).Gives d u d')
    (hx : ∀ a {e u e'}, (x a).Gives e u e' → ∃ ref, (start s w (piece a)).Gives e ref e') :
    ∃ refs, Steps (start s w) d (as.map piece) refs d' := by
  obtain ⟨us, hs⟩ := gives_forM.mp h
  induction hs with
  | nil => exact ⟨[], .nil⟩
  | cons ha hrest ih =>
    obtain ⟨ref, href⟩ := hx _ ha
    obtain ⟨refs, hrefs⟩ := ih (gives_forM.mpr ⟨_, hrest⟩)
    exact ⟨ref :: refs, .cons href hrefs⟩

/-- A whole build takes a step for each piece that it starts from. -/
theorem gives_starts {out : String × Option String × Option String} (h : (schema s w roots).Gives d out d') :
    ∃ refs, Steps (start s w) d (s.starts roots) refs d' := by
  obtain ⟨u, d4, hseeds, hroots⟩ := gives_bind.mp (gives_upTo h)
  simp only [seeds, gives_bind] at hseeds
  obtain ⟨_, d1, h1, _, d2, h2, _, d3, h3, h4⟩ := hseeds
  obtain ⟨_, s1⟩ := steps_start (s := s) (w := w) .enum h1 fun _ {_ _ _} hg => gives_discard.mp hg
  obtain ⟨_, s2⟩ := steps_start (s := s) (w := w) .interface h2 fun _ {_ _ _} hg => gives_discard.mp hg
  obtain ⟨_, s3⟩ := steps_start (s := s) (w := w) .object h3 fun _ {_ _ _} hg => gives_discard.mp hg
  obtain ⟨_, s4⟩ := steps_start (s := s) (w := w) .input h4 fun _ {_ _ _} hg => gives_discard.mp hg
  obtain ⟨_, s5⟩ := steps_start (s := s) (w := w) (fun p => .object { p.2 with name := p.1 }) hroots
    fun p {e u e'} hg => by
      obtain ⟨name, hroot⟩ := gives_discard.mp hg
      obtain ⟨ref, hobject, -⟩ := gives_map.mp hroot
      exact ⟨ref, hobject⟩
  exact ⟨_, (((s1.append s2).append s3).append s4).append s5⟩

theorem fills_start {p : Piece} {ref : TypeRef} (hclosed : s.ClosedUnder T) (hT : T p)
    (h : (start s (.within s steps) p).Gives d ref d') : d.Fills s T d' := by
  have hw := Walker.fills_within hclosed steps
  cases p with
  | enum e => exact fills_enum hT h
  | interface r => exact fills_interface hclosed hw hT h
  | object r => exact fills_object hclosed hw hT h
  | input r => exact fills_inputObject hclosed hw hT h
  | _ => exact (gives_throw h).elim

theorem offers_start {p : Piece} {ref : TypeRef} (h : (start s (.within s steps) p).Gives d ref d') :
    d'.types.get? p.name ≠ none := by
  have hg := Walker.grows_within s steps
  cases p with
  | enum e => exact (holds_enum h).ne_none
  | interface r => exact (holds_interface hg h).ne_none
  | object r => exact (holds_objectNamed hg h).ne_none
  | input r => exact (holds_inputObject hg h).ne_none
  | _ => exact (gives_throw h).elim

/-- The names of all pieces that the steps start from are taken after them. -/
theorem Steps.taken {ps : List Piece} {refs : List TypeRef} (hclosed : s.ClosedUnder T) (hT : ∀ p ∈ ps, T p)
    (h : Steps (start s (.within s steps)) d ps refs d') : ∀ p ∈ ps, d'.types.get? p.name ≠ none := by
  induction h with
  | nil => exact List.forall_mem_nil _
  | cons h hs ih =>
    rw [List.forall_mem_cons] at hT
    have hrest := hs.fills fun p hp => fills_start hclosed (hT.2 p hp)
    exact List.forall_mem_cons.mpr ⟨hrest.keeps.ne_none (offers_start h), ih hT.2⟩

end Build

namespace Setting

variable {s : Setting} {roots : RootRecords} {T : Piece → Prop} {p : Piece}

theorem closedUnder_leads (s : Setting) (roots : RootRecords) : s.ClosedUnder (s.Leads roots) := by
  rintro p ⟨q, hq, hpath⟩ p' hp'
  exact ⟨q, hq, hpath.tail hp'⟩

theorem leads_of_start (h : p ∈ s.starts roots) : s.Leads roots p := ⟨p, h, .refl⟩

/-- A closed choice that holds the starts of a build holds all that they lead to. -/
theorem ClosedUnder.of_leads (hT : s.ClosedUnder T) (hstarts : ∀ p ∈ s.starts roots, T p)
    (h : s.Leads roots p) : T p := by
  obtain ⟨q, hq, hpath⟩ := h
  induction hpath with
  | refl => exact hstarts q hq
  | tail _ hneed ih => exact hT _ ih _ hneed

end Setting

namespace Piece

variable {p : Piece}

theorem takenAsInput_of_kind {t : WireType} (hkind : p.kind = t.kind) (ht : t.isInput = true) :
    p.TakenAsInput := by
  cases t with
  | scalar t =>
    obtain ⟨wireName, rfl⟩ := scalar_of_kind hkind
    trivial
  | enum t =>
    obtain ⟨e, rfl⟩ := enum_of_kind hkind
    trivial
  | inputObject t =>
    obtain ⟨r, rfl⟩ := input_of_kind hkind
    trivial
  | _ => exact absurd ht Bool.false_ne_true

end Piece

theorem Registry.Offers.cases {r : Registry WireType} {named : Bool} {p : Piece} (h : r.Offers named p) :
    p.Plain ∨ r.get? p.name ≠ none ∨
      named = true ∧ ∃ record, p = .input record ∧ r.Holds WireType.isInput record.name := by
  cases p with
  | scalar wireName => exact .inl trivial
  | marker name => exact .inl trivial
  | input record => exact .inr (h.imp_right (.imp_right fun hheld => ⟨record, rfl, hheld⟩))
  | _ => exact .inr (.inl h)

/-- At the end of a build, the names that it took for certain are taken. -/
theorem Setting.Opens.taken {s : Setting} {roots : RootRecords} {d : Draft} {name : String}
    (hentry : ∀ {name t}, d.types.get? name = some t → d.types.Full s (s.Leads roots) name t)
    (hstarts : ∀ q ∈ s.starts roots, d.types.get? q.name ≠ none) (h : s.Opens roots name) :
    d.types.get? name ≠ none := by
  induction h with
  | start hp => exact hstarts _ hp
  | step _ hcalls ih =>
    -- What stands under a name is made of a full piece, so what this one calls for is there.
    obtain ⟨t, ht⟩ := Option.ne_none_iff_exists'.mp ih
    obtain ⟨-, p, hp, hname, -, hfilled, hneeds⟩ := hentry ht
    obtain ⟨q, ⟨hplain, hcall⟩, rfl⟩ := hcalls p hp hname hfilled
    rcases hcall with hq | ⟨hq, hfree⟩
    · obtain hq | htaken | ⟨hno, -⟩ := (hneeds false q hq).cases
      · exact absurd hq hplain
      · exact htaken
      · cases hno
    · obtain hq | htaken | ⟨-, r, hr, u, hu, hinput⟩ := (hneeds true q hq).cases
      · exact absurd hq hplain
      · exact htaken
      · obtain ⟨-, q', hq', hname', hkind, -⟩ := hentry hu
        exact absurd (Piece.takenAsInput_of_kind hkind hinput) (hfree r hr q' hq' hname')

namespace Model

variable {s : Setting} {roots : RootRecords} {m : Model}

/-- Whatever a build registers is full, and the names of its starts are taken. -/
theorem full_of_build (h : build s roots = .ok m) : ∃ d : Draft, d.types = m.types ∧ d.types.names.Nodup ∧
    (∀ {name t}, d.types.get? name = some t → d.types.Full s (s.Leads roots) name t) ∧
      ∀ p ∈ s.starts roots, d.types.get? p.name ≠ none := by
  obtain ⟨d, hd, htypes⟩ := gives_of_build h
  obtain ⟨refs, hs⟩ := Build.gives_starts hd
  have hclosed := Setting.closedUnder_leads s roots
  have hleads : ∀ p ∈ s.starts roots, s.Leads roots p := fun p => Setting.leads_of_start
  have hfills : ({} : Draft).Fills s (s.Leads roots) d :=
    hs.fills fun p hp => Build.fills_start hclosed (hleads p hp)
  refine ⟨d, htypes, (Build.makes_schema hd).grows.distinct List.nodup_nil, fun {name t} ht => ?_,
    hs.taken hclosed hleads⟩
  rcases hfills.entry ht with hnone | hfull
  · cases hnone
  · exact hfull

/-- Every type of a built model has a field or a member. If a build takes a name for certain, and all descriptors
that it leads to and that have the name lack what their forms show or take, it fails. -/
theorem nothing_stays_empty (s : Setting) (roots : RootRecords) :
    (∀ m, build s roots = .ok m → ∀ t ∈ m.types.values, t.Filled) ∧
      ∀ name, s.Opens roots name → (∀ p, s.Leads roots p → p.name = name → ¬ p.Filled) →
        ∃ e, build s roots = .error e := by
  refine ⟨fun m hm t ht => ?_, fun name hopens hempty => ?_⟩
  · obtain ⟨d, htypes, hnodup, hfull, -⟩ := full_of_build hm
    rw [htypes] at hnodup
    obtain ⟨name, ht⟩ := Registry.exists_of_mem_values hnodup ht
    exact (hfull (htypes ▸ ht)).1
  · cases hbuild : build s roots with
    | error e => exact ⟨e, rfl⟩
    | ok m =>
      obtain ⟨d, -, -, hfull, hstarts⟩ := full_of_build hbuild
      obtain ⟨t, ht⟩ := Option.ne_none_iff_exists'.mp (hopens.taken hfull hstarts)
      obtain ⟨-, p, hp, hname, -, hfilled, -⟩ := hfull ht
      exact absurd hfilled (hempty p hp hname)

/-- A catalogue whose books show nothing to clients. -/
def sealedBook : Record :=
  { name := "Book", fields := [{ name := "id", type := .scalar "ID", inputOnly := true }] }

def sealedShop : Setting := { catalogue := { records := [("Book", sealedBook)] }, options := {} }

def sealedRoots : RootRecords :=
  { query := { name := "Shop", fields := [{ name := "best", type := .record "Book" }] } }

def sealedRoot : Record := { sealedRoots.query with name := "Query" }

/-- A sealed shop leads to its root and to books only. -/
theorem sealedShop_leads {q : Piece} (h : sealedShop.Leads sealedRoots q) :
    q = .object sealedRoot ∨ q = .object sealedBook := by
  have hclosed : sealedShop.ClosedUnder fun q => q = .object sealedRoot ∨ q = .object sealedBook := by
    rintro p (rfl | rfl) q hq
    · exact .inr (List.mem_singleton.mp (show q ∈ [.object sealedBook] from hq))
    · cases show q ∈ [] from hq
  refine hclosed.of_leads (fun p hp => .inl ?_) h
  exact List.mem_singleton.mp (show p ∈ [.object sealedRoot] from hp)

theorem bookshop_full_sealedShop_fails :
    (∃ m, build (bookshop []) shopRoots = .ok m ∧ ∀ t ∈ m.types.values, t.Filled) ∧
      sealedShop.Opens sealedRoots "Book" ∧
      (∀ p, sealedShop.Leads sealedRoots p → p.name = "Book" → ¬ p.Filled) ∧
      ∃ e, build sealedShop sealedRoots = .error e := by
  obtain ⟨m, hm⟩ : ∃ m, build (bookshop []) shopRoots = .ok m := ⟨_, rfl⟩
  have hroot : sealedShop.Opens sealedRoots "Query" := .start (p := .object sealedRoot) List.mem_cons_self
  have hopens : sealedShop.Opens sealedRoots "Book" := by
    refine hroot.step fun p hp hname _ => ?_
    rcases sealedShop_leads hp with rfl | rfl
    · exact ⟨.object sealedBook, ⟨fun hplain => hplain.elim, .inl List.mem_cons_self⟩, rfl⟩
    · exact absurd hname (by decide)
  have hempty : ∀ p, sealedShop.Leads sealedRoots p → p.name = "Book" → ¬ p.Filled := by
    intro p hp hname
    rcases sealedShop_leads hp with rfl | rfl
    · exact absurd hname (by decide)
    · exact fun hfilled => hfilled rfl
  exact ⟨⟨m, hm, (nothing_stays_empty _ _).1 m hm⟩, hopens, hempty, (nothing_stays_empty _ _).2 _ hopens hempty⟩

/-- A catalogue with a draft of a book, which has no fields yet and goes by the name of books. -/
def draftShop : Setting :=
  { catalogue :=
      { records := [("Book", { name := "Book", fields := [{ name := "id", type := .scalar "ID" }] }),
          ("Draft", { name := "Book" })] }
    options := {} }

def draftRoots : RootRecords :=
  { query := { name := "Shop", fields := [{ name := "best", type := .record "Book" },
                                          { name := "next", type := .record "Draft" }] } }

/-- The books that were registered first stand for the drafts, whose type nobody builds. -/
theorem draftShop_builds : ∃ m, build draftShop draftRoots = .ok m ∧
    draftShop.Leads draftRoots (.object { name := "Book" }) ∧ ¬ (Piece.object { name := "Book" }).Filled := by
  obtain ⟨m, hm⟩ : ∃ m, build draftShop draftRoots = .ok m := ⟨_, rfl⟩
  refine ⟨m, hm, ⟨_, List.mem_cons_self, .single ?_⟩, fun hfilled => hfilled rfl⟩
  exact List.mem_cons_of_mem _ List.mem_cons_self

end Model

end RecordGraph
