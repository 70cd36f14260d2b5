import RecordGraph.Proofs.Build.Coverage
/-! What a successful builder leaves behind for the pieces it came to. The name of each piece is taken when the
builder of its host type is done, whether the builder took it or found it taken. Only a reference by name as an
input may leave it free: it takes an input type that has the very name of the record, where there is one. -/

namespace RecordGraph

namespace Registry

/-- A type stands under the name of the piece, or where a reference by name finds it in its place. Nothing is
asked for scalars and the types that all connections share. -/
def Offers (r : Registry WireType) (named : Bool) : Piece → Prop
  | .scalar _ | .marker _ => True
  | .input record => r.get? (record.name ++ "Input") ≠ none ∨ named = true ∧ r.Holds WireType.isInput record.name
  | p => r.get? p.name ≠ none

/-- All pieces are offered, those that references by name mean among them. -/
def Provides (r : Registry WireType) (pieces : Bool → List Piece) : Prop :=
  ∀ named, ∀ p ∈ pieces named, r.Offers named p

variable {r r' : Registry WireType} {named : Bool} {p : Piece} {pieces : Bool → List Piece}

theorem Offers.of_ne_none (h : r.get? p.name ≠ none) : r.Offers named p := by
  cases p with
  | scalar wireName => trivial
  | marker name => trivial
  | input record => exact .inl h
  | _ => exact h

theorem Offers.of_plain (h : p.Plain) : r.Offers named p := by
  cases p with
  | scalar wireName => trivial
  | marker name => trivial
  | _ => exact h.elim

theorem Offers.keeps (hk : r.Keeps r') (h : r.Offers named p) : r'.Offers named p := by
  cases p with
  | scalar wireName => trivial
  | marker name => trivial
  | input record => exact h.imp hk.ne_none (.imp_right (hk.holds WireType.isInput_congr))
  | _ => exact hk.ne_none h

theorem Provides.keeps (hk : r.Keeps r') (h : r.Provides pieces) : r'.Provides pieces :=
  fun named p hp => (h named p hp).keeps hk

/-- Whatever names are asked for, the piece is one. -/
theorem Provides.of_name {piece? : Bool → Option Piece} (h : ∀ named, ∀ p ∈ piece? named, r.get? p.name ≠ none) :
    r.Provides fun named => (piece? named).toList :=
  fun named p hp => .of_ne_none (h named p (Option.mem_toList.mp hp))

theorem Holds.ne_none {k : WireType → Bool} {name : String} (h : r.Holds k name) : r.get? name ≠ none := by
  obtain ⟨t, ht, -⟩ := h
  simp [ht]

/-- What a piece needs is provided part by part and field by field. -/
theorem provides_needs {s : Setting} (hparts : ∀ q ∈ s.parts p, ∀ named, r.Offers named q)
    (houtputs : ∀ f ∈ p.outputs, r.Provides fun named => s.fieldPieces named f)
    (hinputs : ∀ f ∈ p.inputs, r.Provides fun named => (s.inputPiece? named f.type).toList) :
    r.Provides fun named => s.needs named p := by
  intro named q hq
  obtain hq | ⟨f, hf, hq⟩ | ⟨f, hf, hq⟩ := Setting.mem_needs.mp hq
  · exact hparts q hq named
  · exact houtputs f hf named q hq
  · exact hinputs f hf named q (Option.mem_toList.mpr hq)

/-- Scalars and the types that all connections share need nothing but each other. -/
theorem provides_plain {s : Setting} (hp : p.Plain) : r.Provides fun named => s.needs named p :=
  fun _ _ hq => .of_plain (Draft.plain_of_needs hp hq)

end Registry

/-- A walk that leaves the pieces of host types offered. -/
structure Walker.Provides (s : Setting) (w : Walker) : Prop where
  output : ∀ {t d ref d'}, (w.output t).Gives d ref d' →
    d'.types.Provides fun named => (s.outputPiece? named t).toList
  input : ∀ {t d ref d'}, (w.input t).Gives d ref d' →
    d'.types.Provides fun named => (s.inputPiece? named t).toList

namespace Build

variable {α β : Type} {s : Setting} {d d' : Draft} {ref : TypeRef}

/-- What each step of a list provides is still there after all of them. -/
theorem Steps.provides {x : α → Build β} (pieces : α → Bool → List Piece) {as : List α} {bs : List β}
    (h : Steps x d as bs d') (hg : ∀ a, (x a).Grows)
    (hx : ∀ a ∈ as, ∀ {e b e'}, (x a).Gives e b e' → e'.types.Provides (pieces a)) :
    ∀ a ∈ as, d'.types.Provides (pieces a) := by
  induction h with
  | nil => exact List.forall_mem_nil _
  | cons h hs ih =>
    rw [List.forall_mem_cons] at hx
    exact List.forall_mem_cons.mpr ⟨(hx.1 h).keeps (hs.grows fun a _ => hg a).keeps, ih hx.2⟩

theorem provides_scalarPiece (r : Registry WireType) (hostName : String) :
    r.Provides fun _ => (s.scalarPiece? hostName).toList := by
  intro named p hp
  obtain ⟨wireName, rfl⟩ := Setting.scalarPiece?_cases (Option.mem_toList.mp hp)
  trivial

section
variable {steps : Nat} (hw : (Walker.within s steps).Provides s)
include hw

theorem provides_argument {field : String} {a : Argument} {out : WireArgument}
    (h : (argument s (.within s steps) field a).Gives d out d') :
    d'.types.Provides fun named => (s.inputPiece? named a.type).toList := by
  obtain ⟨-, ref, default, href, -⟩ := gives_argument h
  exact hw.input href

theorem provides_outputField {f : Field} {out : WireField}
    (h : (outputField s (.within s steps) f).Gives d out d') :
    d'.types.Provides fun named => s.fieldPieces named f := by
  have hg := grows_argument (s := s) (Walker.grows_within s steps) f.name
  obtain ⟨ref, declared, d1, d2, href, hargs, arguments, binding, -, hcase⟩ := gives_outputField h
  have hpaging : d2.types.Keeps d'.types := by
    rcases hcase with ⟨kind, element, -, hpage, -⟩ | ⟨-, -, -, rfl⟩
    · obtain ⟨added, hs, -⟩ := gives_paging nodup_pagingArguments hpage
      exact (hs.grows fun p _ => grows_pagingArgument p).keeps
    · exact .refl _
  have hfirst := (hw.output href).keeps ((hargs.grows fun a _ => hg a).keeps.trans hpaging)
  have hall := hargs.provides (fun a named => (s.inputPiece? named a.type).toList) hg
    fun a _ => provides_argument hw
  intro named p hp
  obtain hp | ⟨a, ha, hp⟩ | hp := Setting.mem_fieldPieces.mp hp
  · exact hfirst named p (Option.mem_toList.mpr hp)
  · exact ((hall a ha).keeps hpaging) named p (Option.mem_toList.mpr hp)
  · obtain ⟨wireName, rfl⟩ := Setting.pagingPieces_cases hp
    trivial

theorem provides_outputFields {type : String} {declared : List Field} {fields : List WireField}
    (h : (outputFields s (.within s steps) type declared).Gives d fields d') :
    ∀ f ∈ declared.filter Field.inOutput, d'.types.Provides fun named => s.fieldPieces named f :=
  (gives_outputFields h).1.provides (fun f named => s.fieldPieces named f)
    (grows_outputField (Walker.grows_within s steps)) fun _ _ => provides_outputField hw

theorem provides_inputFields {type : String} {declared : List Field} {fields : List InputField}
    (h : (inputFields s (.within s steps) type declared).Gives d fields d') :
    ∀ f ∈ declared.filter Field.inInput, d'.types.Provides fun named => (s.inputPiece? named f.type).toList := by
  refine (gives_inputFields h).1.provides (fun f named => (s.inputPiece? named f.type).toList)
    grows_inputField fun f _ {e b e'} hg => ?_
  obtain ⟨ref, default, href, -⟩ := gives_inputField hg
  exact hw.input href

omit hw

/-- A reference by name finds the name taken, or takes it. -/
theorem provides_namedOutput {name : String} (h : (namedOutput s (.within s steps) name).Gives d ref d') :
    d'.types.Provides fun named => (s.outputPiece? named (.named name)).toList := by
  have hg := Walker.grows_within s steps
  intro named p hp
  cases named with
  | false => cases Option.mem_toList.mp hp
  | true =>
    have hheld : p.Plain ∨ d'.types.get? name ≠ none := by
      obtain ⟨⟨t, ht, -⟩, -, rfl⟩ | ⟨-, ⟨r, hr, hi⟩ | ⟨-, r, hr, ho⟩ | ⟨hi, hr, -⟩⟩ := gives_namedOutput h
      · exact .inr (by simp [ht])
      · exact .inr (Setting.name_of_interface? hr ▸ (holds_interface hg hi).ne_none)
      · exact .inr (Setting.name_of_record? hr ▸ (holds_objectNamed hg ho).ne_none)
      · obtain ⟨r, hr', -⟩ | ⟨-, r, hr', -⟩ | ⟨-, rfl⟩ := Setting.outputPiece?_name (Option.mem_toList.mp hp)
        · cases hi.symm.trans hr'
        · cases hr.symm.trans hr'
        · exact .inl trivial
    rcases hheld with hplain | hheld
    · exact .of_plain hplain
    obtain ⟨r, hr, rfl⟩ | ⟨-, r, hr, rfl⟩ | ⟨-, rfl⟩ := Setting.outputPiece?_name (Option.mem_toList.mp hp)
    · exact .of_ne_none (by rwa [Piece.name, Setting.name_of_interface? hr])
    · exact .of_ne_none (by rwa [Piece.name, Setting.name_of_record? hr])
    · trivial

theorem provides_namedInput {name : String} (h : (namedInput s (.within s steps) name).Gives d ref d') :
    d'.types.Provides fun named => (s.inputPiece? named (.named name)).toList := by
  intro named p hp
  cases named with
  | false => cases Option.mem_toList.mp hp
  | true =>
    obtain ⟨r, hr, rfl⟩ := Option.map_eq_some_iff.mp (Option.mem_toList.mp hp)
    obtain ⟨hfound, -, rfl⟩ | ⟨-, r', hr', hi⟩ := gives_namedInput h
    · have hname : r.name = name := by
        obtain hr | ⟨-, hr⟩ := Option.or_eq_some_iff.mp hr
        · exact Setting.name_of_record? hr
        · exact Setting.name_of_interface? hr
      exact .inr ⟨rfl, hname ▸ hfound⟩
    · cases hr.symm.trans hr'
      exact .inl (holds_inputObject (Walker.grows_within s steps) hi).ne_none

/-- After the interfaces of an object are ensured, their names are taken. -/
theorem offers_interfaces {interfaces : List String} {us : List Unit}
    (h : Steps (ensureInterface s (.within s steps)) d interfaces us d') :
    ∀ q ∈ interfaces.filterMap s.interfacePiece?, ∀ named, d'.types.Offers named q := by
  have hg := Walker.grows_within s steps
  have hall := h.provides (fun i _ => (s.interfacePiece? i).toList) (grows_ensureInterface hg)
    fun name _ {e u e'} hensured named p hp => ?_
  · intro q hq named
    obtain ⟨i, hi, hq⟩ := List.mem_filterMap.mp hq
    exact hall i hi named q (Option.mem_toList.mpr hq)
  obtain rfl | ⟨r, hr, rfl⟩ := Setting.interfacePiece?_cases (Option.mem_toList.mp hp)
  · trivial
  refine .of_ne_none ?_
  rw [Piece.name, Setting.name_of_interface? hr]
  obtain ⟨⟨t, ht⟩, rfl⟩ | ⟨-, ⟨hm, -⟩ | ⟨-, r', ref, hr', hi⟩⟩ := gives_ensureInterface hensured
  · simp [ht]
  · rw [Setting.interfacePiece?, if_pos hm] at hp
    cases Option.mem_toList.mp hp
  · exact Setting.name_of_interface? hr' ▸ (holds_interface hg hi).ne_none

end

end Build

namespace Walker

variable {s : Setting}

theorem provides_within (s : Setting) (steps : Nat) : (within s steps).Provides s := by
  induction steps with
  | zero => exact ⟨fun h => (Build.gives_throw h).elim, fun h => (Build.gives_throw h).elim⟩
  | succ steps ih =>
    have hg := grows_within s steps
    constructor
    · intro t d ref d' h
      cases t with
      | scalar hostName => exact Build.provides_scalarPiece _ hostName
      | enum key =>
        obtain ⟨e, he, h⟩ := gives_output_enum h
        refine .of_name fun named p hp => ?_
        simp only [Setting.outputPiece?, he, Option.map_some, Option.mem_def, Option.some.injEq] at hp
        exact hp ▸ (Build.holds_enum h).ne_none
      | list element =>
        obtain ⟨_, he, -⟩ := gives_output_list h
        exact ih.output (t := element) he
      | optional inner => exact ih.output (t := inner) h
      | record key =>
        obtain ⟨r, hr, h⟩ := gives_output_record h
        refine .of_name fun named p hp => ?_
        simp only [Setting.outputPiece?, hr, Option.map_some, Option.mem_def, Option.some.injEq] at hp
        exact hp ▸ (Build.holds_objectNamed hg h).ne_none
      | connection kind element =>
        refine .of_name fun named p hp => ?_
        obtain ⟨r, hr, rfl⟩ := Option.map_eq_some_iff.mp hp
        exact Build.get?_connection_ne_none hg hr h
      | named name => exact Build.provides_namedOutput h
    · intro t d ref d' h
      cases t with
      | scalar hostName => exact Build.provides_scalarPiece _ hostName
      | enum key =>
        obtain ⟨e, he, h⟩ := gives_input_enum h
        refine .of_name fun named p hp => ?_
        simp only [Setting.inputPiece?, he, Option.map_some, Option.mem_def, Option.some.injEq] at hp
        exact hp ▸ (Build.holds_enum h).ne_none
      | list element =>
        obtain ⟨_, he, -⟩ := gives_input_list h
        exact ih.input (t := element) he
      | optional inner => exact ih.input (t := inner) h
      | record key =>
        obtain ⟨r, hr, h⟩ := gives_input_record h
        refine .of_name fun named p hp => ?_
        simp only [Setting.inputPiece?, hr, Option.map_some, Option.mem_def, Option.some.injEq] at hp
        exact hp ▸ (Build.holds_inputObject hg h).ne_none
      | connection kind element => exact (Build.gives_throw h).elim
      | named name => exact Build.provides_namedInput h

end Walker

end RecordGraph
