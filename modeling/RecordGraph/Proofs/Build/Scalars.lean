import RecordGraph.Proofs.Build.Filled
/-! Where the scalars of a build come from. A scalar is looked up by its name on the host and registered under its
name on the wire, where the first one stays. So a registered scalar is configured for some host scalar that the
build came to, and that one is used by a piece: a declared field of the piece is of it, or an argument, or the
types of paging need it. A builder registers its type unfinished and comes to the scalars below it; when it is
done, the piece is taken up, and accounts for them. -/

namespace RecordGraph

/-- The host scalar that a host type is, through lists and optionals. -/
def HostType.scalarName? : HostType → Option String
  | .scalar hostName => some hostName
  | .list t | .optional t => t.scalarName?
  | _ => none

namespace Setting

/-- The paging arguments that a field gets, with their host scalars. -/
def pagingFor (s : Setting) (f : Field) : List (String × String × String) :=
  match f.type.stripOptional with
  | .connection _ _ => Build.pagingArguments.filter fun p => f.arguments.all fun a => s.wireName a.name != p.1
  | _ => []

/-- The host scalars of an output field. -/
def scalarsOfField (s : Setting) (f : Field) : List String :=
  f.type.scalarName?.toList ++ f.arguments.filterMap (fun a => a.type.scalarName?) ++
    (s.pagingFor f).map fun p => p.2.1

/-- The host scalars of a piece that no declared field of it is of. -/
def generatedScalars : Piece → List String
  | .marker _ => Build.pagingScalars
  | .edge _ | .connection _ _ => ["String"]
  | _ => []

/-- The host scalars that a piece uses. -/
def scalarsOf (s : Setting) (p : Piece) : List String :=
  generatedScalars p ++ p.outputs.flatMap s.scalarsOfField ++ p.inputs.filterMap fun f => f.type.scalarName?

variable {s : Setting} {p : Piece} {f : Field} {hostName : String}

theorem mem_scalarsOfField : hostName ∈ s.scalarsOfField f ↔ f.type.scalarName? = some hostName ∨
    (∃ a ∈ f.arguments, a.type.scalarName? = some hostName) ∨ ∃ p ∈ s.pagingFor f, p.2.1 = hostName := by
  simp only [scalarsOfField, List.mem_append, Option.mem_toList, List.mem_filterMap, List.mem_map, or_assoc]

theorem mem_scalarsOf : hostName ∈ s.scalarsOf p ↔ hostName ∈ generatedScalars p ∨
    (∃ f ∈ p.outputs, hostName ∈ s.scalarsOfField f) ∨ ∃ f ∈ p.inputs, f.type.scalarName? = some hostName := by
  simp only [scalarsOf, List.mem_append, List.mem_flatMap, List.mem_filterMap, or_assoc]

end Setting

namespace Draft

/-- What is noted under the name of a connection type is what the piece notes. -/
def Notes (d : Draft) : Piece → Prop
  | .connection kind r => d.noted? (r.name ++ "Connection") = some (kind.fields.map Field.name)
  | _ => False

/-- A piece is taken up between two drafts: its name is new, and the type made of it has the name. The name of a
connection may have gone to a type of another kind while it was under way, and then the connection is noted. -/
structure Takes (s : Setting) (d d' : Draft) (p : Piece) : Prop where
  fresh : d.types.get? p.name = none
  made : ∃ t, d'.types.get? p.name = some t ∧ (p.Makes s d d' t ∨ t.kind ≠ p.kind ∧ d'.Notes p)

/-- The host scalar is one of some choice, or a piece uses it that is taken up between two drafts. -/
def Calls (s : Setting) (T : Piece → Prop) (H : String → Prop) (d d' : Draft) (hostName : String) : Prop :=
  H hostName ∨ ∃ p, T p ∧ d.Takes s d' p ∧ hostName ∈ s.scalarsOf p

/-- The second draft holds what the first does, and its new scalars are configured for host scalars that are called
for. -/
structure Draws (s : Setting) (T : Piece → Prop) (H : String → Prop) (d d' : Draft) : Prop where
  grows : d.Grows d'
  entry : ∀ {name u}, d'.types.get? name = some (.scalar u) → d.types.get? name = some (.scalar u) ∨
    ∃ hostName, s.scalar? hostName = some u ∧ u.wireName = name ∧ d.Calls s T H d' hostName

variable {s : Setting} {T : Piece → Prop} {H : String → Prop} {d d' d₁ d₂ d₃ e e' : Draft} {p : Piece}
  {t u : WireType} {hostName : String}

theorem Notes.mono (h : d.Upholds d') (hn : d.types.get? p.name ≠ none) (hp : d.Notes p) : d'.Notes p := by
  cases p with
  | connection kind r => exact (h.notes hn).trans hp
  | _ => exact hp.elim

theorem Takes.widen (h1 : d.Grows e) (h2 : e'.Upholds d')
    (hkeep : ∀ t, e'.types.get? p.name = some t → d'.types.get? p.name = some t) (h : e.Takes s e' p) :
    d.Takes s d' p := by
  obtain ⟨t, ht, hcase⟩ := h.made
  refine ⟨by_contra fun hne => h1.keeps.ne_none hne h.fresh, t, hkeep t ht, ?_⟩
  rcases hcase with hmakes | ⟨hkind, hnotes⟩
  · exact .inl (hmakes.widen h1 h2)
  · exact .inr ⟨hkind, hnotes.mono h2 (by simp [ht])⟩

theorem Calls.imp (h : d.Calls s T H d' hostName) (hp : ∀ p, d.Takes s d' p → e.Takes s e' p) :
    e.Calls s T H e' hostName :=
  h.imp_right fun ⟨p, hT, htakes, hmem⟩ => ⟨p, hT, hp p htakes, hmem⟩

theorem Draws.refl (d : Draft) : d.Draws s T H d := ⟨.refl d, .inl⟩

theorem Draws.trans (h1 : d₁.Draws s T H d₂) (h2 : d₂.Draws s T H d₃) : d₁.Draws s T H d₃ where
  grows := h1.grows.trans h2.grows
  entry hu := by
    rcases h2.entry hu with hu | ⟨hostName, hconf, hname, hcall⟩
    · refine (h1.entry hu).imp_right fun ⟨hostName, hconf, hname, hcall⟩ => ⟨hostName, hconf, hname, hcall.imp ?_⟩
      exact fun p htakes => htakes.widen (.refl _) h2.grows.upholds fun _ => h2.grows.types
    · exact .inr ⟨hostName, hconf, hname, hcall.imp fun p htakes => htakes.widen h1.grows (.refl _) fun _ => id⟩

/-- A piece that was taken up accounts for its own scalars. -/
theorem Draws.own (h : d.Draws s T (· ∈ s.scalarsOf p) d') (hp : T p) (ht : d.Takes s d' p) : d.Draws s T H d' where
  grows := h.grows
  entry hu := by
    refine (h.entry hu).imp_right fun ⟨hostName, hconf, hname, hcall⟩ => ⟨hostName, hconf, hname, .inr ?_⟩
    exact hcall.elim (fun hmem => ⟨p, hp, ht, hmem⟩) id

/-- What is taken up before a connection is noted does not mind the note. -/
theorem Draws.noteConnection {name : String} {extra : List String} (hn : d.types.get? name = none)
    (h : d.Draws s (fun p => T p ∧ p.Plain) H d') : d.Draws s T H (d'.noteConnection name extra) where
  grows := h.grows.noteConnection hn
  entry hu := by
    refine (h.entry hu).imp_right fun ⟨hostName, hconf, hname, hcall⟩ => ⟨hostName, hconf, hname, ?_⟩
    refine hcall.imp_right fun ⟨p, ⟨hp, hplain⟩, htakes, hmem⟩ => ⟨p, hp, ⟨htakes.fresh, ?_⟩, hmem⟩
    obtain ⟨t, ht, hmakes | ⟨-, hnotes⟩⟩ := htakes.made
    · exact ⟨t, ht, .inl (hmakes.noteConnection hplain)⟩
    · cases p with
      | connection kind r => exact hplain.elim
      | _ => exact hnotes.elim

/-- Adding a type of another kind. -/
theorem Draws.add (hk : t.NamedByKind) (ht : t.kind ≠ "scalar") : d.Draws s T H (d.add t) where
  grows := d.grows_add hk
  entry hu := by
    rcases get?_add_cases hu with hu | ⟨-, rfl⟩
    · exact .inl hu
    · exact absurd rfl ht

/-- A type that is completed takes the place of none but one of its name and kind. -/
theorem get?_replace_of_other {name : String} {v : WireType} (h : d.types.get? name = some v)
    (hother : name = t.name → v.kind ≠ t.kind) : (d.replace t).types.get? name = some v := by
  by_cases hname : t.name = name
  · rw [replace, if_neg, h]
    rw [hname, h]
    exact fun hk => hother hname.symm (Option.some.inj hk)
  · rw [get?_replace_of_ne hname, h]

/-- A type that a builder completes stands for its piece, if the name was free or the piece is noted. -/
theorem takes_completed (h : (d.add u).Grows d') (hn : e.types.get? t.name = none) (he : e.Grows (d.add u))
    (hname : u.name = t.name) (hkind : u.kind = t.kind) (hm : p.Makes s (d.add u) d' t)
    (hfree : d.types.get? t.name = none ∨ d'.Notes p) : e.Takes s (d'.replace t) p := by
  have hpname := hm.name_eq
  have hup := d'.upholds_replace t
  obtain ⟨v, hv⟩ := Option.ne_none_iff_exists'.mp (hname ▸ d.get?_add_ne_none u)
  have hv' := h.types hv
  refine ⟨hpname ▸ hn, ?_⟩
  by_cases hvk : v.kind = t.kind
  · exact ⟨t, hpname ▸ get?_replace_self hv' hvk, .inl (hm.widen he hup)⟩
  rcases hfree with hfree | hnotes
  · rw [← hname, get?_add_self (hname ▸ hfree)] at hv
    cases hv
    exact absurd hkind hvk
  · refine ⟨v, hpname ▸ get?_replace_of_other hv' fun _ => hvk, .inr ⟨hm.kind_eq ▸ hvk, hnotes.mono hup ?_⟩⟩
    simp [← hpname, hv']

/-- A builder registers its type unfinished, comes to scalars of its piece in the steps below it, and completes the
type. -/
theorem Draws.complete (h : d.Draws s T H d₁) (hk : u.NamedByKind)
    (h1 : (d₁.add u).Draws s T (· ∈ s.scalarsOf p) d₂) (hn : d.types.get? t.name = none)
    (hother : ¬ d₁.types.Has t.name t.kind) (hname : u.name = t.name) (hkind : u.kind = t.kind)
    (ht : t.kind ≠ "scalar") (hp : T p) (hm : p.Makes s (d₁.add u) d₂ t)
    (hfree : d₁.types.get? t.name = none ∨ d₂.Notes p) : d.Draws s T H (d₂.replace t) := by
  have hadd : d₁.Grows (d₁.add u) := d₁.grows_add hk
  have hup : d₂.Upholds (d₂.replace t) := d₂.upholds_replace t
  have htakes : d.Takes s (d₂.replace t) p :=
    takes_completed h1.grows hn (h.grows.trans hadd) hname hkind hm hfree
  refine ⟨(h.grows.trans (hadd.trans h1.grows)).replace hn, fun {name v} hv => ?_⟩
  rcases get?_replace_cases hv with ⟨-, rfl⟩ | ⟨hv2, -⟩
  · exact absurd rfl ht
  rcases h1.entry hv2 with hv1 | ⟨hostName, hconf, hwire, hown | ⟨q, hq, hqtakes, hmem⟩⟩
  · rcases get?_add_cases hv1 with hv0 | ⟨-, rfl⟩
    · refine (h.entry hv0).imp_right fun ⟨hostName, hconf, hwire, hcall⟩ => ⟨hostName, hconf, hwire, hcall.imp ?_⟩
      refine fun q hq => hq.widen (.refl _) ((hadd.trans h1.grows).upholds.trans hup) fun v hv => ?_
      refine get?_replace_of_other ((hadd.trans h1.grows).types hv) ?_
      exact fun hqname hk => hother ⟨v, hqname ▸ hv, hk⟩
    · exact absurd hkind.symm ht
  · exact .inr ⟨hostName, hconf, hwire, .inr ⟨p, hp, htakes, hown⟩⟩
  · -- What was taken up below has another name, for the name of the type was taken by then.
    refine .inr ⟨hostName, hconf, hwire, .inr ⟨q, hq, hqtakes.widen (h.grows.trans hadd) hup fun v hv => ?_, hmem⟩⟩
    refine get?_replace_of_other hv fun hqname => ?_
    exact absurd (hqname ▸ hqtakes.fresh) (hname ▸ d₁.get?_add_ne_none u)

end Draft

/-- A walk that draws scalars for the host types that it maps, and for pieces of a choice. -/
structure Walker.Draws (s : Setting) (T : Piece → Prop) (w : Walker) : Prop where
  output : ∀ {H : String → Prop} {t d ref d'}, (∀ p ∈ s.outputPiece? true t, T p) →
    (∀ hostName ∈ t.scalarName?, H hostName) → (w.output t).Gives d ref d' → d.Draws s T H d'
  input : ∀ {H : String → Prop} {t d ref d'}, (∀ p ∈ s.inputPiece? true t, T p) →
    (∀ hostName ∈ t.scalarName?, H hostName) → (w.input t).Gives d ref d' → d.Draws s T H d'

namespace Build

variable {α β : Type} {s : Setting} {T : Piece → Prop} {H : String → Prop} {d d' : Draft} {ref : TypeRef}

theorem Steps.draws {x : α → Build β} {as : List α} {bs : List β} (h : Steps x d as bs d')
    (hx : ∀ a ∈ as, ∀ {e b e'}, (x a).Gives e b e' → e.Draws s T H e') : d.Draws s T H d' :=
  h.lift (R := Draft.Draws s T H) .refl (fun h1 h2 => h1.trans h2) fun a ha => hx a ha

/-! Leaves. -/

theorem draws_scalar {hostName : String} (hH : H hostName) (h : (scalar s hostName).Gives d ref d') :
    d.Draws s T H d' := by
  obtain ⟨t, ht, -, ⟨-, rfl⟩ | ⟨-, rfl⟩⟩ := gives_scalar h
  · exact .refl _
  · refine ⟨d.grows_add trivial, fun hu => ?_⟩
    rcases Draft.get?_add_cases hu with hu | ⟨hname, ⟨⟩⟩
    · exact .inl hu
    · subst hname
      exact .inr ⟨hostName, ht, rfl, .inl hH⟩

theorem draws_enum {e : EnumType} (h : (enum e).Gives d ref d') : d.Draws s T H d' := by
  obtain ⟨-, ⟨-, rfl⟩ | ⟨-, -, rfl⟩⟩ := gives_enum h
  · exact .refl _
  · exact .add trivial (by simp [WireType.kind])

theorem draws_addUnlessPresent {t : WireType} {u : Unit} (hk : t.NamedByKind) (ht : t.kind ≠ "scalar")
    (h : (addUnlessPresent t).Gives d u d') : d.Draws s T H d' := by
  obtain ⟨e, -, -, rfl⟩ | ⟨-, rfl⟩ := gives_addUnlessPresent h
  · exact .refl _
  · exact .add hk ht

/-- Beside scalars, only types that all connections share are registered with them. -/
theorem entry_markers {name : String} {t : WireType} {u : Unit} (h : (markers s).Gives d u d')
    (ht : d'.types.get? name = some t) (hk : t.kind ≠ "scalar") :
    d.types.get? name = some t ∨ (Piece.marker name).Makes s d d' t := by
  have hplain : Piece.Plain (.marker "Connection") := trivial
  obtain ⟨hc, -⟩ := covers_markers (fun p hp q hq => Draft.plain_of_needs hp hq) hplain h
  refine (hc.entry name t ht).imp_right fun ⟨p, hplain, hname, hmakes, _⟩ => ?_
  cases p with
  | scalar wireName => exact absurd hmakes.kind_eq hk
  | marker name =>
    subst hname
    exact hmakes
  | _ => exact hplain.elim

/-- Registering the types that all connections share takes up the interface of connections. -/
theorem takes_marker {u : Unit} (hno : ¬ d.types.Has "Connection" "interface") (h : (markers s).Gives d u d') :
    d.Takes s d' (.marker "Connection") := by
  obtain ⟨t, ht, hk⟩ : d'.types.Has "Connection" "interface" :=
    (holds_markers h).has fun _ => WireType.kind_of_isInterface
  refine ⟨?_, t, ht, .inl ?_⟩
  · by_contra hne
    obtain ⟨v, hv⟩ := Option.ne_none_iff_exists'.mp hne
    cases ht.symm.trans (((grows_markers s).of_gives h).types hv)
    exact hno ⟨t, hv, hk⟩
  · exact (entry_markers h ht (by simp [hk])).resolve_left fun hold => hno ⟨t, hold, hk⟩

theorem draws_markers {u : Unit} (hT : T (.marker "Connection")) (h : (markers s).Gives d u d') :
    d.Draws s T H d' := by
  by_cases hc : d.types.Has "Connection" "interface"
  · obtain ⟨-, rfl⟩ | ⟨hno, -⟩ := marked_of_gives h
    · exact .refl _
    · obtain ⟨t, ht, hk⟩ := hc
      exact absurd ⟨t, ht, WireType.isInterface_of_kind hk⟩ hno
  have htakes := takes_marker hc h
  obtain ⟨-, rfl⟩ | ⟨-, id, string, boolean, d1, d2, d3, us, h1, h2, h3, hs⟩ := gives_markers h
  · exact .refl _
  refine Draft.Draws.own (p := .marker "Connection") ?_ hT htakes
  have hscalar (hostName : String) (hm : hostName ∈ pagingScalars) : hostName ∈ s.scalarsOf (.marker "Connection") :=
    Setting.mem_scalarsOf.mpr (.inl hm)
  have c1 := draws_scalar (T := T) (hscalar "ID" (by decide)) h1
  have c2 := draws_scalar (T := T) (hscalar "String" (by decide)) h2
  have c3 := draws_scalar (T := T) (hscalar "bool" (by decide)) h3
  refine (c1.trans (c2.trans c3)).trans (hs.draws fun t ht {e u e'} => ?_)
  refine draws_addUnlessPresent (namedByKind_markerTypes t ht) ?_
  simp only [markerTypes, List.mem_cons, List.not_mem_nil, or_false] at ht
  rcases ht with rfl | rfl | rfl | rfl <;> simp [WireType.kind]

/-! Builders that use a walk for the types below them. -/

section
variable {steps : Nat} (hclosed : s.ClosedUnder T) (hw : (Walker.within s steps).Draws s T)
include hw

theorem draws_argument {field : String} {a : Argument} {out : WireArgument}
    (hT : ∀ p ∈ s.inputPiece? true a.type, T p) (hH : ∀ hostName ∈ a.type.scalarName?, H hostName)
    (h : (argument s (.within s steps) field a).Gives d out d') : d.Draws s T H d' := by
  obtain ⟨-, ref, default, href, -⟩ := gives_argument h
  exact hw.input hT hH href

omit hw in
theorem draws_pagingArgument {p : String × String × String} {out : WireArgument} (hH : H p.2.1)
    (h : (pagingArgument s p).Gives d out d') : d.Draws s T H d' := by
  obtain ⟨ref, href, -⟩ := gives_map.mp h
  exact draws_scalar hH href

theorem draws_outputField {f : Field} {out : WireField} (hT : ∀ p ∈ s.fieldPieces true f, T p)
    (hH : ∀ hostName ∈ s.scalarsOfField f, H hostName)
    (h : (outputField s (.within s steps) f).Gives d out d') : d.Draws s T H d' := by
  simp only [Setting.mem_fieldPieces] at hT
  simp only [Setting.mem_scalarsOfField] at hH
  obtain ⟨ref, declared, d1, d2, href, hargs, arguments, binding, -, hcase⟩ := gives_outputField h
  have h1 : d.Draws s T H d1 := hw.output (fun p hp => hT p (.inl hp)) (fun n hn => hH n (.inl hn)) href
  have h2 : d1.Draws s T H d2 := hargs.draws fun a ha =>
    draws_argument hw (fun p hp => hT p (.inr (.inl ⟨a, ha, hp⟩))) fun n hn => hH n (.inr (.inl ⟨a, ha, hn⟩))
  rcases hcase with ⟨kind, element, hc, hpage, -⟩ | ⟨-, -, -, rfl⟩
  · obtain ⟨added, hs, -⟩ := gives_paging nodup_pagingArguments hpage
    refine h1.trans (h2.trans (hs.draws fun p hp {e b e'} => draws_pagingArgument (hH _ ?_)))
    refine .inr (.inr ⟨p, ?_, rfl⟩)
    rw [List.filter_congr fun p _ => all_name_argument (forms_arguments hargs) p.1] at hp
    rwa [Setting.pagingFor, hc]
  · exact h1.trans h2

theorem draws_outputFields {type : String} {declared : List Field} {fields : List WireField}
    (hT : ∀ f ∈ declared.filter Field.inOutput, ∀ p ∈ s.fieldPieces true f, T p)
    (hH : ∀ f ∈ declared.filter Field.inOutput, ∀ hostName ∈ s.scalarsOfField f, H hostName)
    (h : (outputFields s (.within s steps) type declared).Gives d fields d') : d.Draws s T H d' :=
  (gives_outputFields h).1.draws fun f hf => draws_outputField hw (hT f hf) (hH f hf)

theorem draws_inputFields {type : String} {declared : List Field} {fields : List InputField}
    (hT : ∀ f ∈ declared.filter Field.inInput, ∀ p ∈ s.inputPiece? true f.type, T p)
    (hH : ∀ f ∈ declared.filter Field.inInput, ∀ hostName ∈ f.type.scalarName?, H hostName)
    (h : (inputFields s (.within s steps) type declared).Gives d fields d') : d.Draws s T H d' := by
  refine (gives_inputFields h).1.draws fun f hf {e b e'} hg => ?_
  obtain ⟨ref, default, href, -⟩ := gives_inputField hg
  exact hw.input (hT f hf) (hH f hf) href

include hclosed

/-- The declared fields of a piece come to scalars of the piece. -/
theorem draws_ownFields {p : Piece} {type : String} {declared : List Field} {fields : List WireField} (hT : T p)
    (hp : p.outputs = declared.filter Field.inOutput)
    (h : (outputFields s (.within s steps) type declared).Gives d fields d') :
    d.Draws s T (· ∈ s.scalarsOf p) d' :=
  draws_outputFields hw (fun _ hf => hclosed.field hT (hp ▸ hf))
    (fun f hf _ hn => Setting.mem_scalarsOf.mpr (.inr (.inl ⟨f, hp ▸ hf, hn⟩))) h

theorem draws_interface {r : Record} (hT : T (.interface r))
    (h : (interface s (.within s steps) r).Gives d ref d') : d.Draws s T H d' := by
  obtain ⟨-, ⟨-, rfl⟩ | ⟨hn, fields, d1, hf, -, rfl⟩⟩ := gives_interface h
  · exact .refl _
  · have h1 := draws_ownFields hclosed hw hT rfl hf
    exact .complete (.refl d) (by trivial) h1 hn (fun hhas => hhas.ne_none hn) rfl rfl (by simp [WireType.kind]) hT
      ⟨fields, forms_outputFields hf, rfl⟩ (.inl hn)

theorem draws_ensureInterface {name : String} {u : Unit} (hT : ∀ p ∈ s.interfacePiece? name, T p)
    (h : (ensureInterface s (.within s steps) name).Gives d u d') : d.Draws s T H d' := by
  unfold Setting.interfacePiece? at hT
  obtain ⟨-, rfl⟩ | ⟨-, ⟨hm, hmark⟩ | ⟨hm, r, ref, hr, hi⟩⟩ := gives_ensureInterface h
  · exact .refl _
  · have hmarker : T (.marker name) := hT _ (by simp [hm])
    exact draws_markers (hclosed.part hmarker (by simp [Setting.parts, markerNames])) hmark
  · exact draws_interface hclosed hw (hT _ (by simp [hm, hr])) hi

/-- An object type takes up the piece that has its name, its fields and its interfaces. -/
theorem draws_objectNamed {p : Piece} {interfaces : List String} {r : Record}
    (hparts : s.parts p = interfaces.filterMap s.interfacePiece?)
    (houtputs : p.outputs = r.fields.filter Field.inOutput)
    (hmakes : ∀ {e e' fields}, OutputForms s e e' r.fields fields → p.Makes s e e'
      (.object { name := p.name, description := r.description, fields := fields, interfaces := interfaces }))
    (hT : T p) (h : (objectNamed s (.within s steps) p.name interfaces r).Gives d ref d') : d.Draws s T H d' := by
  obtain ⟨-, ⟨-, rfl⟩ | ⟨hn, fields, d1, us, d2, hf, -, hs, rfl⟩⟩ := gives_objectNamed h
  · exact .refl _
  · have h1 := draws_ownFields hclosed hw hT houtputs hf
    have h2 : d1.Draws s T (· ∈ s.scalarsOf p) d2 := hs.draws fun i hi =>
      draws_ensureInterface hclosed hw fun q hq => hclosed.part hT (by
        rw [hparts]
        exact List.mem_filterMap.mpr ⟨i, hi, hq⟩)
    have hforms : OutputForms s _ d2 r.fields fields :=
      (forms_outputFields hf).imp fun _ _ hform => hform.widen (.refl _) h2.grows.keeps
    exact .complete (.refl d) (by trivial) (h1.trans h2) hn (fun hhas => hhas.ne_none hn) rfl rfl
      (by simp [WireType.kind]) hT (hmakes hforms) (.inl hn)

theorem draws_object {r : Record} (hT : T (.object r)) (h : (object s (.within s steps) r).Gives d ref d') :
    d.Draws s T H d' :=
  draws_objectNamed (p := .object r) hclosed hw rfl rfl (fun hf => ⟨_, hf, rfl⟩) hT h

theorem draws_node {r : Record} (hT : T (.node r))
    (h : (objectNamed s (.within s steps) (r.name ++ "Node") ["Node"] r).Gives d ref d') : d.Draws s T H d' :=
  draws_objectNamed (p := .node r) hclosed hw rfl rfl (fun hf => ⟨_, hf, rfl⟩) hT h

theorem draws_inputObject {r : Record} (hT : T (.input r))
    (h : (inputObject s (.within s steps) r).Gives d ref d') : d.Draws s T H d' := by
  obtain ⟨-, ⟨-, rfl⟩ | ⟨hn, fields, d1, hf, -, rfl⟩⟩ := gives_inputObject h
  · exact .refl _
  · have h1 : Draft.Draws s T (· ∈ s.scalarsOf (.input r)) _ d1 :=
      draws_inputFields hw (fun f hf => hclosed.input hT hf)
        (fun f hf _ hn => Setting.mem_scalarsOf.mpr (.inr (.inr ⟨f, hf, hn⟩))) hf
    exact .complete (.refl d) (by exact ⟨r.name, rfl⟩) h1 hn (fun hhas => hhas.ne_none hn) rfl rfl
      (by simp [WireType.kind]) hT ⟨fields, forms_inputFields hf, rfl⟩ (.inl hn)

omit hw hclosed in
/-- None of the types that all connections share is a connection type. -/
theorem not_has_connection {r : Record} (hn : d.types.get? (r.name ++ "Connection") = none)
    (hm : (markers s).Gives d () d') : ¬ d'.types.Has (r.name ++ "Connection") "object" := by
  rintro ⟨t, ht, hk⟩
  rcases entry_markers hm ht (by simp [hk]) with hold | hmakes
  · cases hn.symm.trans hold
  · rcases Piece.kind_marker (r.name ++ "Connection") with ⟨-, hname⟩ | hinterface
    · exact (append_connection_ne r.name).1 hname
    · exact absurd (hinterface.symm.trans (hmakes.kind_eq.symm.trans hk)) (by decide)

theorem draws_connection {kind : String} {element : HostType}
    (hT : ∀ p ∈ s.outputPiece? true (.connection kind element), T p)
    (h : (connection s (.within s steps) kind element).Gives d ref d') : d.Draws s T H d' := by
  obtain ⟨r, hr, -, ⟨-, -, rfl⟩ |
    ⟨hn, -, d1, node, d2, cursor, d3, d4, fields, d5, hm, hnode, hc, he, hf, rfl⟩⟩ := gives_connection h
  · exact .refl _
  simp only [Setting.outputPiece?, hr, Option.map_some, Option.mem_def, Option.some.injEq, forall_eq'] at hT
  have hpart {q : Piece} (hq : q ∈ s.parts (.connection (kindOf s kind) r)) : T q := hclosed.part hT hq
  have hmarker : T (.marker "Connection") := hpart (by simp [Setting.parts])
  have h0 : d.Draws s T H (d1.noteConnection (r.name ++ "Connection") (extraNames s kind)) :=
    .noteConnection hn (draws_markers ⟨hmarker, trivial⟩ hm)
  have hstring : "String" ∈ s.scalarsOf (.connection (kindOf s kind) r) :=
    Setting.mem_scalarsOf.mpr (.inl List.mem_cons_self)
  have h1 := draws_node (H := (· ∈ s.scalarsOf (.connection (kindOf s kind) r))) hclosed hw
    (hpart (by simp [Setting.parts])) hnode
  have h2 := draws_scalar (T := T) hstring hc
  have h3 : d3.Draws s T (· ∈ s.scalarsOf (.connection (kindOf s kind) r)) d4 :=
    draws_addUnlessPresent (by trivial) (by simp [WireType.kind]) he
  have h4 := draws_ownFields (p := .connection (kindOf s kind) r) hclosed hw hT rfl hf
  have hmakes := connection_made (h1.trans (h2.trans h3)).grows (forms_outputFields hf) h4.grows
  have hother := not_has_connection hn hm
  exact h0.complete (by trivial) (h1.trans (h2.trans (h3.trans h4))) hn hother rfl rfl
    (by simp [WireType.kind, connectionType]) hT hmakes (.inr hmakes.2.1)

theorem draws_namedOutput {name : String} (hT : ∀ p ∈ s.outputPiece? true (.named name), T p)
    (h : (namedOutput s (.within s steps) name).Gives d ref d') : d.Draws s T H d' := by
  simp only [Setting.outputPiece?, if_true] at hT
  obtain ⟨-, -, rfl⟩ | ⟨-, ⟨r, hr, hi⟩ | ⟨hno, r, hr, ho⟩ | ⟨hi, hr, hm, -, hmark⟩⟩ := gives_namedOutput h
  · exact .refl _
  · exact draws_interface hclosed hw (hT _ (by simp [hr])) hi
  · exact draws_object hclosed hw (hT _ (by simp [hno, hr])) ho
  · have hmarker : T (.marker name) := hT _ (by simp [hi, hr, hm])
    exact draws_markers (hclosed.part hmarker (by simp [Setting.parts, markerNames])) hmark

theorem draws_namedInput {name : String} (hT : ∀ p ∈ s.inputPiece? true (.named name), T p)
    (h : (namedInput s (.within s steps) name).Gives d ref d') : d.Draws s T H d' := by
  simp only [Setting.inputPiece?, if_true] at hT
  obtain ⟨-, -, rfl⟩ | ⟨-, r, hr, hi⟩ := gives_namedInput h
  · exact .refl _
  · exact draws_inputObject hclosed hw (hT _ (by rw [hr]; rfl)) hi

end

end Build

namespace Walker

variable {s : Setting} {T : Piece → Prop}

/-- The walk draws scalars for what it maps, however many steps it is given. -/
theorem draws_within (hclosed : s.ClosedUnder T) (steps : Nat) : (within s steps).Draws s T := by
  induction steps with
  | zero => exact ⟨fun _ _ h => (Build.gives_throw h).elim, fun _ _ h => (Build.gives_throw h).elim⟩
  | succ steps ih =>
    constructor
    · intro H t d ref d' hT hH h
      cases t with
      | scalar hostName => exact Build.draws_scalar (hH _ rfl) h
      | enum key =>
        obtain ⟨e, -, h⟩ := gives_output_enum h
        exact Build.draws_enum h
      | list element =>
        obtain ⟨_, he, -⟩ := gives_output_list h
        exact ih.output (t := element) hT hH he
      | optional inner => exact ih.output (t := inner) hT hH h
      | record key =>
        obtain ⟨r, hr, h⟩ := gives_output_record h
        exact Build.draws_object hclosed ih (hT _ (by rw [Setting.outputPiece?, hr]; rfl)) h
      | connection kind element => exact Build.draws_connection hclosed ih hT h
      | named name => exact Build.draws_namedOutput hclosed ih hT h
    · intro H t d ref d' hT hH h
      cases t with
      | scalar hostName => exact Build.draws_scalar (hH _ rfl) h
      | enum key =>
        obtain ⟨e, -, h⟩ := gives_input_enum h
        exact Build.draws_enum h
      | list element =>
        obtain ⟨_, he, -⟩ := gives_input_list h
        exact ih.input (t := element) hT hH he
      | optional inner => exact ih.input (t := inner) hT hH h
      | record key =>
        obtain ⟨r, hr, h⟩ := gives_input_record h
        exact Build.draws_inputObject hclosed ih (hT _ (by rw [Setting.inputPiece?, hr]; rfl)) h
      | connection kind element => exact (Build.gives_throw h).elim
      | named name => exact Build.draws_namedInput hclosed ih hT h

end Walker

/-! Whole builds. -/

namespace Build

variable {s : Setting} {T : Piece → Prop} {H : String → Prop} {d d' : Draft} {p : Piece} {ref : TypeRef} {steps : Nat}

theorem draws_start (hclosed : s.ClosedUnder T) (hT : T p)
    (h : (start s (.within s steps) p).Gives d ref d') : d.Draws s T H d' := by
  have hw := Walker.draws_within hclosed steps
  cases p with
  | enum e => exact draws_enum h
  | interface r => exact draws_interface hclosed hw hT h
  | object r => exact draws_object hclosed hw hT h
  | input r => exact draws_inputObject hclosed hw hT h
  | _ => exact (gives_throw h).elim

theorem covers_start (hclosed : s.ClosedUnder T) (hT : T p)
    (h : (start s (.within s steps) p).Gives d ref d') : d.Covers s T d' := by
  have hw := Walker.covers_within hclosed steps
  cases p with
  | enum e => exact (covers_enum hT h).1
  | interface r => exact (covers_interface hclosed hw hT h).1
  | object r => exact (covers_object hclosed hw hT h).1
  | input r => exact (covers_inputObject hclosed hw hT h).1
  | _ => exact (gives_throw h).elim

end Build

end RecordGraph
