import RecordGraph.Proofs.Build.Pages
/-! What a build registers, piece by piece. Every registered type is made of a descriptor of the schema: the
type of a record in one of its forms, an enum, a scalar, or one of the types that all connections share. What
a piece needs besides itself is known from the schema, and so is the content of its type. A draft backs a piece
that has all it needs there. Builders register a piece before what it needs, so while a build is under way not
every piece is backed; what a successful builder has added is. -/

namespace RecordGraph

/-- What a registered type is made of. -/
inductive Piece where
  /-- A scalar by its name on the wire. -/
  | scalar (wireName : String)
  | enum (type : EnumType)
  /-- One of the types that all connections share. -/
  | marker (name : String)
  | object (r : Record)
  | interface (r : Record)
  | input (r : Record)
  | node (r : Record)
  | edge (r : Record)
  | connection (kind : ConnectionKind) (r : Record)

namespace Piece

/-- The name of the type that is made of a piece. -/
def name : Piece → String
  | .scalar name | .marker name => name
  | .enum type => type.name
  | .object r | .interface r => r.name
  | .input r => r.name ++ "Input"
  | .node r => r.name ++ "Node"
  | .edge r => r.name ++ "Edge"
  | .connection _ r => r.name ++ "Connection"

/-- The kind of the type that is made of a piece. -/
def kind : Piece → String
  | .scalar _ => "scalar"
  | .enum _ => "enum"
  | .marker name => if name = Build.pageInfoType then "object" else "interface"
  | .object _ | .node _ | .edge _ | .connection _ _ => "object"
  | .interface _ => "interface"
  | .input _ => "input object"

/-- The declared fields that the type shows. -/
def outputs : Piece → List Field
  | .object r | .interface r | .node r => r.fields.filter Field.inOutput
  | .connection kind _ => kind.fields.filter Field.inOutput
  | _ => []

/-- The declared fields that the type takes. -/
def inputs : Piece → List Field
  | .input r => r.fields.filter Field.inInput
  | _ => []

end Piece

/-- The names of the types that all connections share. -/
def markerNames : List String := [Build.pageInfoType, "Node", "Edge", "Connection"]

namespace Setting

/-- The piece that a scalar stands for. -/
def scalarPiece? (s : Setting) (hostName : String) : Option Piece :=
  (s.scalar? hostName).map fun t => .scalar t.wireName

/-- The piece that a host type stands for as the type of an output field. References by name are left out
unless they are asked for. -/
def outputPiece? (s : Setting) (named : Bool) : HostType → Option Piece
  | .scalar hostName => s.scalarPiece? hostName
  | .enum key => (Entries.get? s.catalogue.enums key).map .enum
  | .list t | .optional t => s.outputPiece? named t
  | .record key => (Entries.get? s.catalogue.records key).map .object
  | .connection kind element =>
    (Build.elementRecord? s element).map (.connection (Build.kindOf s kind))
  | .named name =>
    if named then
      ((s.interface? name).map .interface).or
        (((s.record? name).map .object).or (if Build.isMarker name then some (.marker name) else none))
    else none

/-- The piece that a host type stands for as the type of an argument or input field. -/
def inputPiece? (s : Setting) (named : Bool) : HostType → Option Piece
  | .scalar hostName => s.scalarPiece? hostName
  | .enum key => (Entries.get? s.catalogue.enums key).map .enum
  | .list t | .optional t => s.inputPiece? named t
  | .record key => (Entries.get? s.catalogue.records key).map .input
  | .connection _ _ => none
  | .named name => if named then ((s.record? name).or (s.interface? name)).map .input else none

/-- The piece that an object needs for an interface that it implements. -/
def interfacePiece? (s : Setting) (name : String) : Option Piece :=
  if Build.isMarker name then some (.marker name) else (s.interface? name).map .interface

/-- The scalars of the paging arguments that a field gets. -/
def pagingPieces (s : Setting) (f : Field) : List Piece :=
  match f.type.stripOptional with
  | .connection _ _ =>
    (Build.pagingArguments.filter fun p => f.arguments.all fun a => s.wireName a.name != p.1).filterMap
      fun p => s.scalarPiece? p.2.1
  | _ => []

/-- The pieces of an output field. -/
def fieldPieces (s : Setting) (named : Bool) (f : Field) : List Piece :=
  (s.outputPiece? named f.type).toList ++ f.arguments.filterMap (fun a => s.inputPiece? named a.type) ++
    s.pagingPieces f

/-- What a piece needs besides the pieces of its fields. -/
def parts (s : Setting) : Piece → List Piece
  | .marker _ => markerNames.map .marker ++ Build.pagingScalars.filterMap s.scalarPiece?
  | .object r => r.interfaces.filterMap s.interfacePiece?
  | .node _ => [.marker "Node"]
  | .edge _ => .marker "Edge" :: (s.scalarPiece? "String").toList
  | .connection _ r => [.marker "Connection", .node r, .edge r]
  | _ => []

/-- What a piece needs. -/
def needs (s : Setting) (named : Bool) (p : Piece) : List Piece :=
  s.parts p ++ p.outputs.flatMap (s.fieldPieces named) ++
    p.inputs.filterMap fun f => s.inputPiece? named f.type

end Setting

/-- A type of a kind is registered under a name. -/
def Registry.Has (r : Registry WireType) (name kind : String) : Prop :=
  ∃ t, r.get? name = some t ∧ t.kind = kind

namespace Draft

/-- The extra fields that are noted for a connection type. -/
def noted? (d : Draft) (name : String) : Option (List String) := Entries.get? d.connectionFields name

/-- A builder that comes to the piece finds it. The interface of connections stands for all that connections
share, and a connection type that was noted is taken for registered, whatever has its name. -/
def Stands (d : Draft) : Piece → Prop
  | .marker name => d.types.Has name (Piece.marker name).kind ∨ d.types.Has "Connection" "interface"
  | .connection kind r =>
    d.types.get? (r.name ++ "Connection") ≠ none ∧
        d.noted? (r.name ++ "Connection") = some (kind.fields.map Field.name) ∨
      d.types.Has (r.name ++ "Connection") "object" ∧ d.noted? (r.name ++ "Connection") = none
  | p => d.types.Has p.name p.kind

/-- What a piece needs is there, references by name aside. -/
def Backs (s : Setting) (d : Draft) (p : Piece) : Prop := ∀ q ∈ s.needs false p, d.Stands q

/-- Names keep the kinds of their types, and registered names what is noted for them. -/
structure Upholds (d d' : Draft) : Prop where
  types : d.types.Keeps d'.types
  notes : ∀ {name}, d.types.get? name ≠ none → d'.noted? name = d.noted? name

end Draft

/-- Output fields stand for the declared ones that clients may see, in order. -/
def OutputForms (s : Setting) (d d' : Draft) (declared : List Field) (fields : List WireField) : Prop :=
  List.Forall₂ (OutputForm s d d') (declared.filter Field.inOutput) fields

/-- A type is made of a piece: what it holds is what the piece declares. -/
def Piece.Makes (s : Setting) (d d' : Draft) : Piece → WireType → Prop
  | .scalar wireName, t => ∃ u, u.wireName = wireName ∧ t = .scalar u
  | .enum type, t => t = .enum type
  | .marker name, t => t.name = name ∧ MarkerType s t ∧ d'.Marked
  | .object r, t => ∃ fields, OutputForms s d d' r.fields fields ∧
      t = .object { name := r.name, description := r.description, fields := fields, interfaces := r.interfaces }
  | .interface r, t => ∃ fields, OutputForms s d d' r.fields fields ∧
      t = .interface { name := r.name, description := r.description, fields := fields }
  | .input r, t => ∃ fields, List.Forall₂ (InputForm s d d') (r.fields.filter Field.inInput) fields ∧
      t = .inputObject { name := r.name ++ "Input", description := r.description, fields := fields,
                         loader := r.loader }
  | .node r, t => ∃ fields, OutputForms s d d' r.fields fields ∧
      t = .object { name := r.name ++ "Node", description := r.description, fields := fields,
                    interfaces := ["Node"] }
  | .edge r, t => ∃ cursor, s.outputRef? (.scalar "String") = some cursor ∧ t = .object (Build.edgeType r cursor)
  | .connection kind r, t => d'.types.get? (r.name ++ "Connection") ≠ none ∧
      d'.noted? (r.name ++ "Connection") = some (kind.fields.map Field.name) ∧
      ∃ fields, OutputForms s d d' kind.fields fields ∧
        t = .object { name := r.name ++ "Connection", description := kind.description,
                      fields := Build.connectionHead s r ++ fields, interfaces := ["Connection"] }

namespace Draft

/-- Whatever the second draft holds that the first does not is made of a piece that has all it needs there. -/
def Accounts (s : Setting) (T : Piece → Prop) (d d' : Draft) : Prop :=
  ∀ name t, d'.types.get? name = some t → d.types.get? name = some t ∨
    ∃ p, T p ∧ p.name = name ∧ p.Makes s d d' t ∧ d'.Backs s p

/-- The second draft holds what the first does, and beside it pieces of some choice that have all they need
there. This goes for connection types too that are noted only. -/
structure Covers (s : Setting) (T : Piece → Prop) (d d' : Draft) : Prop where
  grows : d.Grows d'
  entry : d.Accounts s T d'
  note : ∀ {name extra}, d'.noted? name = some extra → d.noted? name = some extra ∨
    ∃ kind r, T (.connection kind r) ∧ r.name ++ "Connection" = name ∧ kind.fields.map Field.name = extra ∧
      d'.types.get? name ≠ none ∧ d'.Backs s (.connection kind r)

/-- A builder sets out to register a piece: the draft holds what the first one does, and what it notes beside
is the note of the piece. -/
structure Starts (s : Setting) (T : Piece → Prop) (p : Piece) (d d' : Draft) : Prop where
  grows : d.Grows d'
  entry : d.Accounts s T d'
  note : ∀ {name extra}, d'.noted? name = some extra → d.noted? name = some extra ∨
    ∃ kind r, p = .connection kind r ∧ r.name ++ "Connection" = name ∧ kind.fields.map Field.name = extra

end Draft

/-! What a host type may stand for. -/

/-- The kind and the element of pages, through lists and optionals. -/
def HostType.pages? : HostType → Option (String × HostType)
  | .list t | .optional t => t.pages?
  | .connection kind element => some (kind, element)
  | _ => none

namespace Setting

variable {s : Setting} {t : HostType} {p : Piece} {f : Field} {name : String}

theorem scalarPiece?_cases (h : s.scalarPiece? name = some p) : ∃ wireName, p = .scalar wireName := by
  obtain ⟨u, -, rfl⟩ := Option.map_eq_some_iff.mp h
  exact ⟨_, rfl⟩

/-- What a name stands for as the type of an output field. -/
theorem outputPiece?_name (h : s.outputPiece? true (.named name) = some p) :
    (∃ r, s.interface? name = some r ∧ p = .interface r) ∨
      (s.interface? name = none ∧ ∃ r, s.record? name = some r ∧ p = .object r) ∨
      Build.isMarker name = true ∧ p = .marker name := by
  rcases Option.or_eq_some_iff.mp h with h | ⟨hno, h⟩
  · obtain ⟨r, hr, rfl⟩ := Option.map_eq_some_iff.mp h
    exact .inl ⟨r, hr, rfl⟩
  rcases Option.or_eq_some_iff.mp h with h | ⟨-, h⟩
  · obtain ⟨r, hr, rfl⟩ := Option.map_eq_some_iff.mp h
    exact .inr (.inl ⟨Option.map_eq_none_iff.mp hno, r, hr, rfl⟩)
  · split at h
    · cases h
      exact .inr (.inr ⟨‹_›, rfl⟩)
    · cases h

/-- What a name stands for as the type of an input field. -/
theorem inputPiece?_name (h : s.inputPiece? true (.named name) = some p) :
    ∃ r, (s.record? name = some r ∨ s.interface? name = some r) ∧ p = .input r := by
  obtain ⟨r, hr, rfl⟩ := Option.map_eq_some_iff.mp h
  exact ⟨r, (Option.or_eq_some_iff.mp hr).imp_right And.right, rfl⟩

/-- What a host type may stand for as the type of an output field, if it answers some pages or none. -/
inductive OutputPiece (s : Setting) (pages : Option (String × HostType)) : Piece → Prop
  | scalar (wireName : String) : OutputPiece s pages (.scalar wireName)
  | enum (e : EnumType) : OutputPiece s pages (.enum e)
  | marker (name : String) : OutputPiece s pages (.marker name)
  | object {r : Record} : r ∈ s.knownRecords → OutputPiece s pages (.object r)
  | interface {name : String} {r : Record} : s.interface? name = some r → OutputPiece s pages (.interface r)
  | connection {kind : String} {element : HostType} {r : Record} : pages = some (kind, element) →
      Build.elementRecord? s element = some r → OutputPiece s pages (.connection (Build.kindOf s kind) r)

/-- What a host type may stand for as the type of an input field. -/
inductive InputPiece (s : Setting) : Piece → Prop
  | scalar (wireName : String) : InputPiece s (.scalar wireName)
  | enum (e : EnumType) : InputPiece s (.enum e)
  | input {r : Record} : r ∈ s.knownRecords → InputPiece s (.input r)

theorem outputPiece?_cases (h : s.outputPiece? true t = some p) : s.OutputPiece t.pages? p := by
  induction t with
  | scalar hostName =>
    obtain ⟨wireName, rfl⟩ := scalarPiece?_cases h
    exact .scalar wireName
  | enum key =>
    obtain ⟨e, -, rfl⟩ := Option.map_eq_some_iff.mp h
    exact .enum e
  | list t ih => exact ih h
  | optional t ih => exact ih h
  | record key =>
    obtain ⟨r, hr, rfl⟩ := Option.map_eq_some_iff.mp h
    exact .object (known_of_catalogue hr)
  | connection kind element =>
    obtain ⟨r, hr, rfl⟩ := Option.map_eq_some_iff.mp h
    exact .connection rfl hr
  | named name =>
    rcases outputPiece?_name h with ⟨r, hr, rfl⟩ | ⟨-, r, hr, rfl⟩ | ⟨-, rfl⟩
    · exact .interface hr
    · exact .object (known_of_record? hr)
    · exact .marker name

theorem inputPiece?_cases (h : s.inputPiece? true t = some p) : s.InputPiece p := by
  induction t with
  | scalar hostName =>
    obtain ⟨wireName, rfl⟩ := scalarPiece?_cases h
    exact .scalar wireName
  | enum key =>
    obtain ⟨e, -, rfl⟩ := Option.map_eq_some_iff.mp h
    exact .enum e
  | list t ih => exact ih h
  | optional t ih => exact ih h
  | record key =>
    obtain ⟨r, hr, rfl⟩ := Option.map_eq_some_iff.mp h
    exact .input (known_of_catalogue hr)
  | connection kind element => cases h
  | named name =>
    obtain ⟨r, hr | hr, rfl⟩ := inputPiece?_name h
    · exact .input (known_of_record? hr)
    · exact .input (known_of_interface? hr)

theorem pagingPieces_cases (h : p ∈ s.pagingPieces f) : ∃ wireName, p = .scalar wireName := by
  rw [pagingPieces] at h
  split at h
  · obtain ⟨paging, -, h⟩ := List.mem_filterMap.mp h
    exact scalarPiece?_cases h
  · cases h

theorem interfacePiece?_cases (h : s.interfacePiece? name = some p) :
    p = .marker name ∨ ∃ r, s.interface? name = some r ∧ p = .interface r := by
  rw [interfacePiece?] at h
  split at h
  · cases h
    exact .inl rfl
  · obtain ⟨r, hr, rfl⟩ := Option.map_eq_some_iff.mp h
    exact .inr ⟨r, hr, rfl⟩

theorem outputPiece?_stripOptional (named : Bool) (t : HostType) :
    s.outputPiece? named t.stripOptional = s.outputPiece? named t := by
  induction t with
  | optional inner ih => exact ih
  | _ => rfl

end Setting

/-! Needs. -/

namespace Setting

variable {s : Setting} {p q : Piece}

theorem mem_needs {named : Bool} : q ∈ s.needs named p ↔ q ∈ s.parts p ∨
    (∃ f ∈ p.outputs, q ∈ s.fieldPieces named f) ∨ ∃ f ∈ p.inputs, s.inputPiece? named f.type = some q := by
  simp only [needs, List.mem_append, List.mem_flatMap, List.mem_filterMap, or_assoc]

theorem mem_fieldPieces {named : Bool} {f : Field} : q ∈ s.fieldPieces named f ↔
    s.outputPiece? named f.type = some q ∨ (∃ a ∈ f.arguments, s.inputPiece? named a.type = some q) ∨
      q ∈ s.pagingPieces f := by
  simp only [fieldPieces, List.mem_append, Option.mem_toList, List.mem_filterMap, or_assoc]

end Setting

/-! Kinds. -/

namespace Registry

variable {r r' : Registry WireType} {name kind kind' : String}

theorem Has.kind_eq (h : r.Has name kind) (h' : r.Has name kind') : kind = kind' := by
  obtain ⟨t, ht, rfl⟩ := h
  obtain ⟨t', ht', rfl⟩ := h'
  rw [Option.some.inj (ht.symm.trans ht')]

theorem Has.ne_none (h : r.Has name kind) : r.get? name ≠ none := by
  obtain ⟨t, ht, -⟩ := h
  simp [ht]

theorem Has.keeps (h : r.Has name kind) (hk : r.Keeps r') : r'.Has name kind := by
  obtain ⟨t, ht, rfl⟩ := h
  exact hk name t ht

theorem Keeps.ne_none (h : r.Keeps r') (hn : r.get? name ≠ none) : r'.get? name ≠ none := by
  obtain ⟨t, ht⟩ := Option.ne_none_iff_exists'.mp hn
  obtain ⟨t', ht', -⟩ := h name t ht
  simp [ht']

theorem Holds.has {p : WireType → Bool} (h : r.Holds p name) (hp : ∀ t, p t = true → t.kind = kind) :
    r.Has name kind := by
  obtain ⟨t, ht, hk⟩ := h
  exact ⟨t, ht, hp t hk⟩

end Registry

namespace WireType

theorem kind_of_isObject {t : WireType} (h : t.isObject = true) : t.kind = "object" := by
  cases t <;> first | rfl | exact absurd h Bool.false_ne_true

theorem kind_of_isInterface {t : WireType} (h : t.isInterface = true) : t.kind = "interface" := by
  cases t <;> first | rfl | exact absurd h Bool.false_ne_true

theorem kind_of_isInputObject {t : WireType} (h : (t matches .inputObject _) = true) :
    t.kind = "input object" := by
  cases t <;> first | rfl | exact absurd h Bool.false_ne_true

end WireType

/-! Drafts that uphold what others have. -/

namespace Draft

variable {s : Setting} {T : Piece → Prop} {d d' d₁ d₂ d₃ e e' : Draft} {p : Piece} {t u : WireType}
  {name : String}

theorem Upholds.refl (d : Draft) : d.Upholds d := ⟨.refl _, fun _ => rfl⟩

theorem Upholds.trans (h1 : d₁.Upholds d₂) (h2 : d₂.Upholds d₃) : d₁.Upholds d₃ where
  types := h1.types.trans h2.types
  notes hn := (h2.notes (h1.types.ne_none hn)).trans (h1.notes hn)

theorem Grows.upholds (h : d.Grows d') : d.Upholds d' := ⟨h.keeps, h.notes⟩

theorem upholds_replace (d : Draft) (t : WireType) : d.Upholds (d.replace t) :=
  ⟨d.keeps_replace t, fun _ => congrArg (Entries.get? · _) connectionFields_replace⟩

theorem Stands.mono (h : d.Upholds d') (hp : d.Stands p) : d'.Stands p := by
  cases p with
  | marker name => exact hp.imp (·.keeps h.types) (·.keeps h.types)
  | connection kind r =>
    rcases hp with ⟨hn, hnote⟩ | ⟨hobject, hnote⟩
    · exact .inl ⟨h.types.ne_none hn, (h.notes hn).trans hnote⟩
    · exact .inr ⟨hobject.keeps h.types, (h.notes hobject.ne_none).trans hnote⟩
  | _ => exact Registry.Has.keeps hp h.types

theorem Backs.mono (h : d.Upholds d') (hp : d.Backs s p) : d'.Backs s p := fun q hq => (hp q hq).mono h

end Draft

namespace Piece

variable {s : Setting} {d d' e e' : Draft} {p : Piece} {t : WireType}

theorem Makes.widen (h1 : d.Grows e) (h2 : e'.Upholds d') (h : p.Makes s e e' t) : p.Makes s d d' t := by
  cases p with
  | scalar wireName => exact h
  | enum type => exact h
  | marker name => exact ⟨h.1, h.2.1, h.2.2.of_keeps h2.types⟩
  | edge r => exact h
  | input r =>
    obtain ⟨fields, hf, rfl⟩ := h
    exact ⟨fields, hf.imp fun _ _ hform => hform.widen h1 h2.types, rfl⟩
  | connection kind r =>
    obtain ⟨hn, hnote, fields, hf, rfl⟩ := h
    exact ⟨h2.types.ne_none hn, (h2.notes hn).trans hnote, fields,
      hf.imp fun _ _ hform => hform.widen h1 h2.types, rfl⟩
  | _ =>
    obtain ⟨fields, hf, rfl⟩ := h
    exact ⟨fields, hf.imp fun _ _ hform => hform.widen h1 h2.types, rfl⟩

/-- Each of the types that all connections share has a kind of its own. -/
theorem kind_of_markerType (h : MarkerType s t) : t.kind = (Piece.marker t.name).kind := by
  obtain ⟨id, string, boolean, -, -, -, ht⟩ := h
  simp only [Build.markerTypes, List.mem_cons, List.not_mem_nil, or_false] at ht
  rcases ht with rfl | rfl | rfl | rfl <;> rfl

theorem Makes.name_eq (h : p.Makes s d d' t) : t.name = p.name := by
  cases p with
  | scalar wireName =>
    obtain ⟨u, hu, rfl⟩ := h
    exact hu
  | enum type => rw [show t = .enum type from h]; rfl
  | marker name => exact h.1
  | edge r =>
    obtain ⟨cursor, -, rfl⟩ := h
    rfl
  | connection kind r =>
    obtain ⟨-, -, fields, -, rfl⟩ := h
    rfl
  | _ =>
    obtain ⟨fields, -, rfl⟩ := h
    rfl

theorem Makes.kind_eq (h : p.Makes s d d' t) : t.kind = p.kind := by
  cases p with
  | scalar wireName =>
    obtain ⟨u, -, rfl⟩ := h
    rfl
  | enum type => rw [show t = .enum type from h]; rfl
  | marker name => rw [kind_of_markerType h.2.1, h.1]
  | edge r =>
    obtain ⟨cursor, -, rfl⟩ := h
    rfl
  | connection kind r =>
    obtain ⟨-, -, fields, -, rfl⟩ := h
    rfl
  | _ =>
    obtain ⟨fields, -, rfl⟩ := h
    rfl

/-- A piece whose type is registered is found. -/
theorem Makes.stands (h : p.Makes s d d' t) (ht : d'.types.get? p.name = some t) : d'.Stands p := by
  have hhas : d'.types.Has p.name p.kind := ⟨t, ht, h.kind_eq⟩
  cases p with
  | marker name => exact .inl hhas
  | connection kind r =>
    obtain ⟨hn, hnote, -⟩ := h
    exact .inl ⟨hn, hnote⟩
  | _ => exact hhas

end Piece

/-! Pieces by their kinds and names. -/

namespace Piece

variable {p : Piece}

theorem kind_marker (name : String) :
    (Piece.marker name).kind = "object" ∧ name = Build.pageInfoType ∨ (Piece.marker name).kind = "interface" := by
  by_cases hname : name = Build.pageInfoType
  · exact .inl ⟨if_pos hname, hname⟩
  · exact .inr (if_neg hname)

/-- The object types that paging generates. -/
def IsPart (element : String) (p : Piece) : Part → Prop
  | .pageInfo => element = "" ∧ p = .marker Build.pageInfoType
  | .node => ∃ r, r.name = element ∧ p = .node r
  | .edge => ∃ r, r.name = element ∧ p = .edge r
  | .connection => ∃ kind r, r.name = element ∧ p = .connection kind r

theorem IsPart.name_eq {element : String} {part : Part} (h : p.IsPart element part) :
    p.name = element ++ part.last := by
  cases part with
  | pageInfo =>
    obtain ⟨rfl, rfl⟩ := h
    rfl
  | connection =>
    obtain ⟨kind, r, rfl, rfl⟩ := h
    rfl
  | _ =>
    obtain ⟨r, rfl, rfl⟩ := h
    rfl

/-! The pieces that a kind of type is made of. -/

theorem scalar_of_kind (h : p.kind = "scalar") : ∃ wireName, p = .scalar wireName := by
  cases p with
  | scalar wireName => exact ⟨wireName, rfl⟩
  | marker name => rcases kind_marker name with ⟨hk, -⟩ | hk <;> exact absurd (hk.symm.trans h) (by decide)
  | _ => exact absurd h (by simp [kind])

theorem enum_of_kind (h : p.kind = "enum") : ∃ e, p = .enum e := by
  cases p with
  | enum e => exact ⟨e, rfl⟩
  | marker name => rcases kind_marker name with ⟨hk, -⟩ | hk <;> exact absurd (hk.symm.trans h) (by decide)
  | _ => exact absurd h (by simp [kind])

theorem input_of_kind (h : p.kind = "input object") : ∃ r, p = .input r := by
  cases p with
  | input r => exact ⟨r, rfl⟩
  | marker name => rcases kind_marker name with ⟨hk, -⟩ | hk <;> exact absurd (hk.symm.trans h) (by decide)
  | _ => exact absurd h (by simp [kind])

theorem interface_of_kind (h : p.kind = "interface") : (∃ r, p = .interface r) ∨ ∃ name, p = .marker name := by
  cases p with
  | interface r => exact .inl ⟨r, rfl⟩
  | marker name => exact .inr ⟨name, rfl⟩
  | _ => exact absurd h (by simp [kind])

theorem object_of_kind (h : p.kind = "object") :
    (∃ r, p = .object r) ∨ ∃ element part, p.IsPart element part := by
  cases p with
  | object r => exact .inl ⟨r, rfl⟩
  | marker name =>
    rcases kind_marker name with ⟨-, rfl⟩ | hk
    · exact .inr ⟨"", .pageInfo, rfl, rfl⟩
    · exact absurd (hk.symm.trans h) (by decide)
  | node r => exact .inr ⟨r.name, .node, r, rfl, rfl⟩
  | edge r => exact .inr ⟨r.name, .edge, r, rfl, rfl⟩
  | connection kind r => exact .inr ⟨r.name, .connection, kind, r, rfl, rfl⟩
  | _ => exact absurd h (by simp [kind])

end Piece

/-! Drafts that cover others. -/

namespace Draft

variable {s : Setting} {T T' : Piece → Prop} {d d' d₁ d₂ d₃ : Draft} {p : Piece} {t u : WireType} {name : String}

theorem Accounts.mono (hT : ∀ p, T p → T' p) (h : d.Accounts s T d') : d.Accounts s T' d' :=
  fun name t ht => (h name t ht).imp_right fun ⟨p, hp, hrest⟩ => ⟨p, hT p hp, hrest⟩

theorem Covers.mono (hT : ∀ p, T p → T' p) (h : d.Covers s T d') : d.Covers s T' d' where
  grows := h.grows
  entry := h.entry.mono hT
  note hn := (h.note hn).imp_right fun ⟨kind, r, hp, hrest⟩ => ⟨kind, r, hT _ hp, hrest⟩

theorem Accounts.trans (h1 : d₁.Accounts s T d₂) (h2 : d₂.Accounts s T d₃) (hg1 : d₁.Grows d₂)
    (hg2 : d₂.Grows d₃) : d₁.Accounts s T d₃ := by
  intro name t ht
  rcases h2 name t ht with ht | ⟨p, hp, hname, hmakes, hbacks⟩
  · refine (h1 name t ht).imp_right fun ⟨p, hp, hname, hmakes, hbacks⟩ => ⟨p, hp, hname, ?_, hbacks.mono hg2.upholds⟩
    exact hmakes.widen (.refl _) hg2.upholds
  · exact .inr ⟨p, hp, hname, hmakes.widen hg1 (.refl _), hbacks⟩

theorem Covers.refl (d : Draft) : d.Covers s T d := ⟨.refl d, fun _ _ => .inl, .inl⟩

theorem Covers.trans (h1 : d₁.Covers s T d₂) (h2 : d₂.Covers s T d₃) : d₁.Covers s T d₃ where
  grows := h1.grows.trans h2.grows
  entry := h1.entry.trans h2.entry h1.grows h2.grows
  note hn := by
    rcases h2.note hn with hn | hnew
    · refine (h1.note hn).imp_right fun ⟨kind, r, hp, hname, hextra, hfree, hbacks⟩ => ?_
      exact ⟨kind, r, hp, hname, hextra, h2.grows.keeps.ne_none hfree, hbacks.mono h2.grows.upholds⟩
    · exact .inr hnew

/-- A piece that needs nothing more is registered at once. -/
theorem Covers.add (hk : t.NamedByKind) (hp : T p) (hm : p.Makes s d (d.add t) t)
    (hb : (d.add t).Backs s p) : d.Covers s T (d.add t) where
  grows := d.grows_add hk
  entry _ _ hu := by
    rcases get?_add_cases hu with hu | ⟨hname, rfl⟩
    · exact .inl hu
    · exact .inr ⟨p, hp, (hname.trans hm.name_eq).symm, hm, hb⟩
  note := .inl

theorem Starts.refl (d : Draft) : d.Starts s T p d := ⟨.refl d, fun _ _ => .inl, .inl⟩

/-- A builder registers its type unfinished, takes the steps below it, and completes it. -/
theorem Starts.complete (h : d.Starts s T p d₁) (hk : u.NamedByKind) (h1 : (d₁.add u).Covers s T d₂)
    (hn : d.types.get? t.name = none) (hname : u.name = t.name) (hkind : u.kind = t.kind) (hp : T p)
    (hm : p.Makes s (d₁.add u) d₂ t) (hb : d₂.Backs s p) : d.Covers s T (d₂.replace t) := by
  have hadd : d₁.Grows (d₁.add u) := d₁.grows_add hk
  have hup : d₂.Upholds (d₂.replace t) := d₂.upholds_replace t
  have hpname : t.name = p.name := hm.name_eq
  refine ⟨(h.grows.trans (hadd.trans h1.grows)).replace hn, fun name v hv => ?_, fun {name extra} hv => ?_⟩
  · -- What is found is the finished type, or from the steps below it, or from before, and not the
    -- unfinished type, which the finished one has replaced.
    rcases get?_replace_cases hv with ⟨hown, rfl⟩ | ⟨hv2, hother⟩
    · exact .inr ⟨p, hp, (hown.trans hpname).symm, hm.widen (h.grows.trans hadd) hup, hb.mono hup⟩
    rcases h1.entry _ _ hv2 with hv1 | ⟨q, hq, hqname, hqm, hqb⟩
    · rcases get?_add_cases hv1 with hv0 | ⟨rfl, rfl⟩
      · refine (h.entry _ _ hv0).imp_right fun ⟨q, hq, hqname, hqm, hqb⟩ => ?_
        have hup1 : d₁.Upholds (d₂.replace t) := (hadd.trans h1.grows).upholds.trans hup
        exact ⟨q, hq, hqname, hqm.widen (.refl _) hup1, hqb.mono hup1⟩
      · exact absurd hkind (hother hname)
    · exact .inr ⟨q, hq, hqname, hqm.widen (h.grows.trans hadd) hup, hqb.mono hup⟩
  · have hv2 : d₂.noted? name = some extra := by
      rwa [noted?, connectionFields_replace] at hv
    rcases h1.note hv2 with hv1 | ⟨kind, r, hq, hqname, hextra, hfree, hqb⟩
    · refine (h.note hv1).imp_right fun ⟨kind, r, hown, hqname, hextra⟩ => ?_
      subst hown
      refine ⟨kind, r, hp, hqname, hextra, ?_, hb.mono hup⟩
      obtain ⟨hfree, -⟩ := hm
      exact hqname ▸ hup.types.ne_none hfree
    · exact .inr ⟨kind, r, hq, hqname, hextra, hup.types.ne_none hfree, hqb.mono hup⟩

end Draft

end RecordGraph
