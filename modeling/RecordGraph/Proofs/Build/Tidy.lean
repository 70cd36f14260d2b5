import RecordGraph.Proofs.Build.Coverage
import RecordGraph.Proofs.Build.Direct
/-! Settings in which names identify descriptors. A draft that successful mappings have led to then holds, for
each piece that stands there, all that the piece leads to: whatever is found under the name of a piece is made of
the piece itself, and has what it needs. -/

namespace RecordGraph

/-- A host type to map, as an output or as an input. -/
inductive Mapping where
  | output (t : HostType)
  | input (t : HostType)

namespace Mapping

def type : Mapping → HostType
  | .output t | .input t => t

def run (w : Walker) : Mapping → Build TypeRef
  | .output t => w.output t
  | .input t => w.input t

/-- The piece that the host type stands for. -/
def piece? (s : Setting) (named : Bool) : Mapping → Option Piece
  | .output t => s.outputPiece? named t
  | .input t => s.inputPiece? named t

/-- Whether a reference by name in this direction takes a type that it finds. -/
def takes : Mapping → WireType → Bool
  | .output _ => WireType.isOutput
  | .input _ => WireType.isInput

/-- The host type is a reference by name, and something is registered there that it takes. -/
def Finds (d : Draft) (m : Mapping) : Prop :=
  ∃ name, m.type.reference? = some name ∧ ∃ t, d.types.get? name = some t ∧ m.takes t = true

end Mapping

/-- The draft that mappings in a row lead to, each with as many steps as it takes. -/
inductive Draft.Reached (s : Setting) : List Mapping → Draft → Prop
  | start : Reached s [] {}
  | snoc {ms : List Mapping} {d d' : Draft} {m : Mapping} {steps : Nat} {ref : TypeRef} :
      Reached s ms d → (m.run (.within s steps)).Gives d ref d' → Reached s (ms ++ [m]) d'

namespace Setting

/-- A piece needs another. -/
def Needs (s : Setting) (p q : Piece) : Prop := q ∈ s.needs true p

/-- A piece that host types lead to. -/
def Reaches (s : Setting) (ms : List Mapping) (p : Piece) : Prop :=
  ∃ m ∈ ms, ∃ q ∈ m.piece? s true, Relation.ReflTransGen s.Needs q p

end Setting

namespace Piece

def record? : Piece → Option Record
  | .object r | .interface r | .input r | .node r | .edge r | .connection _ r => some r
  | _ => none

/-- A type with a name of its own, which the schema does not declare. -/
def Generated : Piece → Prop
  | .marker _ | .input _ | .node _ | .edge _ | .connection _ _ => True
  | _ => False

end Piece

/-- A record in one of its forms that host types lead to. -/
def Setting.Meets (s : Setting) (ms : List Mapping) (r : Record) : Prop :=
  ∃ p, s.Reaches ms p ∧ p.record? = some r

/-- Names identify descriptors among all that some host types lead to. No two records or enums share a name, and
none has the name of a generated type. Each element record has one connection kind, and no field or argument is
a reference by name. -/
structure Setting.Tidy (s : Setting) (ms : List Mapping) : Prop where
  records : ∀ {r r'}, s.Meets ms r → s.Meets ms r' → r.name = r'.name → r = r'
  enums : ∀ {e e'}, s.Reaches ms (.enum e) → s.Reaches ms (.enum e') → e.name = e'.name → e = e'
  apart : ∀ {r e}, s.Meets ms r → s.Reaches ms (.enum e) → r.name ≠ e.name
  generated : ∀ {p}, s.Reaches ms p → p.Generated →
    (∀ r, s.Meets ms r → p.name ≠ r.name) ∧ ∀ e, s.Reaches ms (.enum e) → p.name ≠ e.name
  kinds : ∀ {kind kind' r}, s.Reaches ms (.connection kind r) → s.Reaches ms (.connection kind' r) → kind = kind'
  direct : ∀ {p}, s.Reaches ms p →
    (∀ f ∈ p.outputs, f.type.reference? = none ∧ f.Direct) ∧ ∀ f ∈ p.inputs, f.type.reference? = none

/-- No scalar has the name of a reference by name that stands for a record or an interface. -/
def Mapping.Distinct (s : Setting) (ms : List Mapping) (m : Mapping) : Prop :=
  ∀ name, m.type.reference? = some name → (s.record? name).isSome ∨ (s.interface? name).isSome →
    ¬ s.Reaches ms (.scalar name)

/-! What host types lead to. -/

namespace Setting

variable {s : Setting} {ms ms' : List Mapping} {m : Mapping} {p q : Piece} {t : HostType} {T : Piece → Prop}

theorem closedUnder_reaches (s : Setting) (ms : List Mapping) : s.ClosedUnder (s.Reaches ms) := by
  rintro p ⟨m, hm, q, hq, hpath⟩ p' hp'
  exact ⟨m, hm, q, hq, hpath.tail hp'⟩

theorem reaches_of_piece? (hm : m ∈ ms) : ∀ p ∈ m.piece? s true, s.Reaches ms p :=
  fun p hp => ⟨m, hm, p, hp, .refl⟩

theorem Reaches.mono (hms : ms ⊆ ms') (h : s.Reaches ms p) : s.Reaches ms' p := by
  obtain ⟨m, hm, hrest⟩ := h
  exact ⟨m, hms hm, hrest⟩

theorem Reaches.trans (h : s.Reaches ms p) (hpath : Relation.ReflTransGen s.Needs p q) : s.Reaches ms q := by
  obtain ⟨m, hm, p', hp', hpath'⟩ := h
  exact ⟨m, hm, p', hp', hpath'.trans hpath⟩

/-- A closed choice that holds the pieces of some host types holds all that they lead to. -/
theorem ClosedUnder.of_reaches (hT : s.ClosedUnder T) (hms : ∀ m ∈ ms, ∀ p ∈ m.piece? s true, T p)
    (h : s.Reaches ms p) : T p := by
  obtain ⟨m, hm, q, hq, hpath⟩ := h
  induction hpath with
  | refl => exact hms m hm q hq
  | tail _ hneed ih => exact hT _ ih _ hneed

theorem outputPiece?_direct (h : t.reference? = none) : s.outputPiece? true t = s.outputPiece? false t := by
  induction t with
  | list t ih => exact ih h
  | optional t ih => exact ih h
  | named name => cases h
  | _ => rfl

theorem inputPiece?_direct (h : t.reference? = none) : s.inputPiece? true t = s.inputPiece? false t := by
  induction t with
  | list t ih => exact ih h
  | optional t ih => exact ih h
  | named name => cases h
  | _ => rfl

/-- Where nothing refers by name, a draft that backs a piece has all it needs. -/
theorem Tidy.needs_direct (ht : s.Tidy ms) (hp : s.Reaches ms p) (hq : s.Needs p q) : q ∈ s.needs false p := by
  obtain ⟨houtputs, hinputs⟩ := ht.direct hp
  rw [Needs, mem_needs] at hq
  rw [mem_needs]
  obtain hq | ⟨f, hf, hq⟩ | ⟨f, hf, hq⟩ := hq
  · exact .inl hq
  · refine .inr (.inl ⟨f, hf, ?_⟩)
    rw [mem_fieldPieces] at hq ⊢
    obtain hq | ⟨a, ha, hq⟩ | hq := hq
    · exact .inl (by rwa [outputPiece?_direct (houtputs f hf).1] at hq)
    · exact .inr (.inl ⟨a, ha, by rwa [inputPiece?_direct ((houtputs f hf).2 a ha)] at hq⟩)
    · exact .inr (.inr hq)
  · exact .inr (.inr ⟨f, hf, by rwa [inputPiece?_direct (hinputs f hf)] at hq⟩)

end Setting

theorem Piece.IsPart.generated {p : Piece} {element : String} {part : Part} (h : p.IsPart element part) :
    p.Generated := by
  cases part with
  | pageInfo =>
    obtain ⟨-, rfl⟩ := h
    trivial
  | connection =>
    obtain ⟨kind, r, -, rfl⟩ := h
    trivial
  | _ =>
    obtain ⟨r, -, rfl⟩ := h
    trivial

namespace Setting.Tidy

variable {s : Setting} {ms : List Mapping} {p q : Piece}

theorem record_eq (ht : s.Tidy ms) (hp : s.Reaches ms p) (hq : s.Reaches ms q) {r r' : Record}
    (hr : p.record? = some r) (hr' : q.record? = some r') (hname : r.name = r'.name) : r = r' :=
  ht.records ⟨p, hp, hr⟩ ⟨q, hq, hr'⟩ hname

theorem ne_of_generated (ht : s.Tidy ms) (hp : s.Reaches ms p) (hq : s.Reaches ms q) (hg : p.Generated)
    {r : Record} (hr : q.record? = some r) : p.name ≠ r.name :=
  (ht.generated hp hg).1 r ⟨q, hq, hr⟩

theorem eq_of_object (ht : s.Tidy ms) (hp : s.Reaches ms p) (hq : s.Reaches ms q) (hname : p.name = q.name)
    (hkp : p.kind = "object") (hkq : q.kind = "object") : p = q := by
  rcases Piece.object_of_kind hkp with ⟨r, rfl⟩ | ⟨element, part, hpart⟩
  · rcases Piece.object_of_kind hkq with ⟨r', rfl⟩ | ⟨element', part', hpart'⟩
    · rw [ht.record_eq hp hq rfl rfl hname]
    · exact absurd hname.symm (ht.ne_of_generated hq hp hpart'.generated rfl)
  · rcases Piece.object_of_kind hkq with ⟨r', rfl⟩ | ⟨element', part', hpart'⟩
    · exact absurd hname (ht.ne_of_generated hp hq hpart.generated rfl)
    · obtain ⟨rfl, rfl⟩ := Part.eq_of_append (hpart.name_eq.symm.trans (hname.trans hpart'.name_eq))
      cases part with
      | pageInfo => exact hpart.2.trans hpart'.2.symm
      | node =>
        obtain ⟨r, hr, rfl⟩ := hpart
        obtain ⟨r', hr', rfl⟩ := hpart'
        rw [ht.record_eq hp hq rfl rfl (hr.trans hr'.symm)]
      | edge =>
        obtain ⟨r, hr, rfl⟩ := hpart
        obtain ⟨r', hr', rfl⟩ := hpart'
        rw [ht.record_eq hp hq rfl rfl (hr.trans hr'.symm)]
      | connection =>
        obtain ⟨kind, r, hr, rfl⟩ := hpart
        obtain ⟨kind', r', hr', rfl⟩ := hpart'
        obtain rfl := ht.record_eq hp hq rfl rfl (hr.trans hr'.symm)
        rw [ht.kinds hp hq]

theorem eq_of_interface (ht : s.Tidy ms) (hp : s.Reaches ms p) (hq : s.Reaches ms q) (hname : p.name = q.name)
    (hkp : p.kind = "interface") (hkq : q.kind = "interface") : p = q := by
  rcases Piece.interface_of_kind hkp with ⟨r, rfl⟩ | ⟨marker, rfl⟩
  · rcases Piece.interface_of_kind hkq with ⟨r', rfl⟩ | ⟨marker', rfl⟩
    · rw [ht.record_eq hp hq rfl rfl hname]
    · exact absurd hname.symm (ht.ne_of_generated hq hp trivial rfl)
  · rcases Piece.interface_of_kind hkq with ⟨r', rfl⟩ | ⟨marker', rfl⟩
    · exact absurd hname (ht.ne_of_generated hp hq trivial rfl)
    · exact congrArg Piece.marker hname

/-- A name and a kind belong to one piece. -/
theorem eq_of_name (ht : s.Tidy ms) (hp : s.Reaches ms p) (hq : s.Reaches ms q) (hname : p.name = q.name)
    (hkind : p.kind = q.kind) : p = q := by
  cases p with
  | scalar wireName =>
    obtain ⟨wireName', rfl⟩ := Piece.scalar_of_kind hkind.symm
    exact congrArg Piece.scalar hname
  | enum e =>
    obtain ⟨e', rfl⟩ := Piece.enum_of_kind hkind.symm
    rw [ht.enums hp hq hname]
  | input r =>
    obtain ⟨r', rfl⟩ := Piece.input_of_kind hkind.symm
    rw [ht.record_eq hp hq rfl rfl (append_inj_left hname)]
  | interface r => exact ht.eq_of_interface hp hq hname rfl hkind.symm
  | marker name =>
    rcases Piece.kind_marker name with ⟨hk, -⟩ | hk
    · exact ht.eq_of_object hp hq hname hk (hkind.symm.trans hk)
    · exact ht.eq_of_interface hp hq hname hk (hkind.symm.trans hk)
  | _ => exact ht.eq_of_object hp hq hname rfl hkind.symm

end Setting.Tidy

/-! Drafts of tidy settings. -/

/-- All that a draft holds is made of pieces that some host types lead to. -/
abbrev Draft.Sound (s : Setting) (ms : List Mapping) (d : Draft) : Prop := ({} : Draft).Covers s (s.Reaches ms) d

namespace Draft.Sound

variable {s : Setting} {ms ms' : List Mapping} {d : Draft} {p q : Piece} {name : String} {t : WireType}

theorem entry (hd : d.Sound s ms) (h : d.types.get? name = some t) :
    ∃ p, s.Reaches ms p ∧ p.name = name ∧ p.Makes s {} d t ∧ d.Backs s p := by
  rcases Draft.Covers.entry hd name t h with hnone | hmade
  · cases hnone
  · exact hmade

/-- What has the name and the kind of a piece is made of it. -/
theorem made_of_has (hd : d.Sound s ms) (ht : s.Tidy ms) (hp : s.Reaches ms p) (h : d.types.Has p.name p.kind) :
    ∃ t, d.types.get? p.name = some t ∧ p.Makes s {} d t ∧ d.Backs s p := by
  obtain ⟨t, hget, hk⟩ := h
  obtain ⟨q, hq, hname, hmakes, hbacks⟩ := hd.entry hget
  obtain rfl := ht.eq_of_name hq hp hname (hmakes.kind_eq.symm.trans hk)
  exact ⟨t, hget, hmakes, hbacks⟩

/-- One of the types that all connections share stands for all of them. -/
theorem marked (hd : d.Sound s ms) (ht : s.Tidy ms) (hp : s.Reaches ms (.marker name))
    (h : d.Stands (.marker name)) : d.Marked ∧ d.Backs s (.marker name) := by
  rcases h with h | h
  · obtain ⟨t, -, hmakes, hbacks⟩ := hd.made_of_has ht hp h
    exact ⟨hmakes.2.2, hbacks⟩
  · have hconnection : s.Reaches ms (.marker "Connection") :=
      (s.closedUnder_reaches ms).part hp (by simp [Setting.parts, markerNames])
    obtain ⟨t, -, hmakes, hbacks⟩ := hd.made_of_has ht hconnection h
    exact ⟨hmakes.2.2, hbacks⟩

/-- A piece that stands has all it needs. -/
theorem backs (hd : d.Sound s ms) (ht : s.Tidy ms) (hp : s.Reaches ms p) (h : d.Stands p) : d.Backs s p := by
  cases p with
  | marker name => exact (hd.marked ht hp h).2
  | connection kind r =>
    rcases h with ⟨-, hnote⟩ | ⟨hobject, -⟩
    · rcases Draft.Covers.note hd hnote with hnone | ⟨kind', r', hq, hname, -, -, hbacks⟩
      · cases hnone
      · obtain rfl := ht.record_eq hq hp rfl rfl (append_inj_left hname)
        obtain rfl := ht.kinds hq hp
        exact hbacks
    · obtain ⟨t, -, -, hbacks⟩ := hd.made_of_has ht hp hobject
      exact hbacks
  | _ =>
    obtain ⟨t, -, -, hbacks⟩ := hd.made_of_has ht hp h
    exact hbacks

/-- All that a standing piece leads to stands. -/
theorem stands (hd : d.Sound s ms) (ht : s.Tidy ms) (hp : s.Reaches ms p) (h : d.Stands p)
    (hpath : Relation.ReflTransGen s.Needs p q) : d.Stands q := by
  induction hpath with
  | refl => exact h
  | tail hpath hneed ih =>
    have hreach := hp.trans hpath
    exact hd.backs ht hreach ih _ (ht.needs_direct hreach hneed)

end Draft.Sound

/-! Settings of plain records, which are tidy if their names are. -/

/-- One of some scalars or of some records. -/
def Piece.Flat (scalars : List String) (rs : List Record) : Piece → Prop
  | .scalar wireName => wireName ∈ scalars
  | .object r | .input r => r ∈ rs
  | _ => False

/-- The field stands for one of some scalars or of some records, whichever form it is in, and takes no
arguments. -/
structure Field.Flat (s : Setting) (scalars : List String) (rs : List Record) (f : Field) : Prop where
  direct : f.type.reference? = none
  arguments : f.arguments = []
  paging : s.pagingPieces f = []
  output : ∀ p ∈ s.outputPiece? true f.type, p.Flat scalars rs
  input : ∀ p ∈ s.inputPiece? true f.type, p.Flat scalars rs

/-- Records of such fields. -/
def Setting.Flat (s : Setting) (scalars : List String) (rs : List Record) : Prop :=
  ∀ r ∈ rs, r.interfaces = [] ∧ ∀ f ∈ r.fields, f.Flat s scalars rs

namespace Setting

variable {s : Setting} {ms : List Mapping} {scalars : List String} {rs : List Record} {p : Piece}

theorem Flat.closedUnder (hrs : s.Flat scalars rs) : s.ClosedUnder (Piece.Flat scalars rs) := by
  intro p hp q hneed
  obtain hq | ⟨f, hf, hq⟩ | ⟨f, hf, hq⟩ := mem_needs.mp hneed
  · cases p with
    | object r =>
      rw [parts, (hrs r hp).1] at hq
      cases hq
    | scalar _ => cases hq
    | input _ => cases hq
    | _ => exact hp.elim
  · cases p with
    | object r =>
      have hflat := (hrs r hp).2 f (List.mem_of_mem_filter hf)
      rw [mem_fieldPieces, hflat.arguments, hflat.paging] at hq
      obtain hq | ⟨a, ha, -⟩ | hq := hq
      · exact hflat.output q hq
      · cases ha
      · cases hq
    | scalar _ => cases hf
    | input _ => cases hf
    | _ => exact hp.elim
  · cases p with
    | input r => exact ((hrs r hp).2 f (List.mem_of_mem_filter hf)).input q hq
    | scalar _ => cases hf
    | object _ => cases hf
    | _ => exact hp.elim

theorem Flat.tidy (hrs : s.Flat scalars rs) (hms : ∀ m ∈ ms, ∀ p ∈ m.piece? s true, p.Flat scalars rs)
    (hnames : (rs.map Record.name).Nodup) (hinputs : ∀ r ∈ rs, ∀ r' ∈ rs, r.name ++ "Input" ≠ r'.name) :
    s.Tidy ms := by
  have hflat {p : Piece} (hp : s.Reaches ms p) : p.Flat scalars rs := hrs.closedUnder.of_reaches hms hp
  have hmeets {r : Record} (hr : s.Meets ms r) : r ∈ rs := by
    obtain ⟨p, hp, hr⟩ := hr
    have hp := hflat hp
    cases p with
    | object _ => cases hr; exact hp
    | input _ => cases hr; exact hp
    | scalar _ => cases hr
    | _ => exact hp.elim
  have hno {e : EnumType} (he : s.Reaches ms (.enum e)) : False := hflat he
  constructor
  case records => exact fun hr hr' hname => List.inj_on_of_nodup_map hnames (hmeets hr) (hmeets hr') hname
  case enums => exact fun he => (hno he).elim
  case apart => exact fun _ he => (hno he).elim
  case generated =>
    intro p hp hg
    refine ⟨fun r' hr' => ?_, fun e he => (hno he).elim⟩
    have hp := hflat hp
    cases p with
    | input r => exact hinputs r hp r' (hmeets hr')
    | scalar _ => exact hg.elim
    | object _ => exact hg.elim
    | _ => exact hp.elim
  case kinds => exact fun hc => (show False from hflat hc).elim
  case direct =>
    intro p hp
    have hp := hflat hp
    cases p with
    | object r =>
      refine ⟨fun f hf => ?_, List.forall_mem_nil _⟩
      have hf := (hrs r hp).2 f (List.mem_of_mem_filter hf)
      exact ⟨hf.direct, by rw [Field.Direct, hf.arguments]; exact List.forall_mem_nil _⟩
    | input r => exact ⟨List.forall_mem_nil _, fun f hf => ((hrs r hp).2 f (List.mem_of_mem_filter hf)).direct⟩
    | scalar _ => exact ⟨List.forall_mem_nil _, List.forall_mem_nil _⟩
    | _ => exact hp.elim

theorem Flat.distinct (hrs : s.Flat scalars rs) (hms : ∀ m ∈ ms, ∀ p ∈ m.piece? s true, p.Flat scalars rs)
    {m : Mapping} (hno : ∀ name, m.type.reference? = some name → name ∉ scalars) : m.Distinct s ms :=
  fun name hname _ hreach => hno name hname (hrs.closedUnder.of_reaches hms hreach)

end Setting

end RecordGraph
