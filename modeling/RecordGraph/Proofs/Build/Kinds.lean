import RecordGraph.Proofs.Build.Coverage
/-! Which kind a connection type shows. Whichever kind comes to an element first makes its connection type, and the
names of its extra fields are noted. Another kind is compared with this note only, so what the types, arguments
and defaults of its extra fields are does not count. -/

namespace RecordGraph

namespace Setting

/-- A declared field answers pages of a record in a kind. -/
def UsesKind (s : Setting) (roots : RootRecords) (kind : String) (r : Record) : Prop :=
  ∃ f element, s.DeclaresField roots f ∧ f.type.pages? = some (kind, element) ∧
    Build.elementRecord? s element = some r

/-- A piece of what the schema declares. -/
def DeclaresPiece (s : Setting) (roots : RootRecords) : Piece → Prop
  | .object r | .interface r | .input r | .node r | .edge r => r ∈ s.declared roots
  | .connection kind r => ∃ name, kind = Build.kindOf s name ∧ s.UsesKind roots name r
  | _ => True

/-- Where a connection type is noted, kinds that name other extra fields are refused. -/
def RefusesOthers (s : Setting) : Prop :=
  ∀ w kind element r d c noted, Build.elementRecord? s element = some r →
    d.types.get? (r.name ++ "Connection") = some (.object c) → d.noted? (r.name ++ "Connection") = some noted →
    noted ≠ Build.extraNames s kind → (Build.connection s w kind element).outcome d =
      (.error (.connectionKindConflict (r.name ++ "Connection")), d)

/-- A name of a connection type that neither a scalar of paging nor a record has. -/
def Generates (s : Setting) (roots : RootRecords) (name : String) : Prop :=
  s.Undisplaced name ∧ ∀ r ∈ s.declared roots, r.name ≠ name

variable {s : Setting} {roots : RootRecords} {t : HostType} {p : Piece} {f : Field}

theorem declaresPiece_output (hf : s.DeclaresField roots f) :
    ∀ q ∈ s.outputPiece? true f.type, s.DeclaresPiece roots q := by
  intro q hq
  cases outputPiece?_cases hq with
  | object hr => exact Build.declared_of_known hr
  | interface hr => exact Build.declared_of_known (known_of_interface? hr)
  | connection hpages hr => exact ⟨_, rfl, f, _, hf, hpages, hr⟩
  | _ => trivial

theorem declaresPiece_input : ∀ q ∈ s.inputPiece? true t, s.DeclaresPiece roots q := by
  intro q hq
  cases inputPiece?_cases hq with
  | input hr => exact Build.declared_of_known hr
  | _ => trivial

theorem declaresPiece_field (hf : s.DeclaresField roots f) :
    ∀ q ∈ s.fieldPieces true f, s.DeclaresPiece roots q := by
  intro q hq
  obtain hq | ⟨a, -, hq⟩ | hq := mem_fieldPieces.mp hq
  · exact declaresPiece_output hf q hq
  · exact declaresPiece_input q hq
  · obtain ⟨wireName, rfl⟩ := pagingPieces_cases hq
    trivial

theorem declaresPiece_part (hp : s.DeclaresPiece roots p) : ∀ q ∈ s.parts p, s.DeclaresPiece roots q := by
  intro q hq
  cases p with
  | marker name =>
    rcases List.mem_append.mp hq with hq | hq
    · obtain ⟨marker, -, rfl⟩ := List.mem_map.mp hq
      trivial
    · obtain ⟨hostName, -, hq⟩ := List.mem_filterMap.mp hq
      obtain ⟨wireName, rfl⟩ := scalarPiece?_cases hq
      trivial
  | object r =>
    obtain ⟨i, -, hi⟩ := List.mem_filterMap.mp hq
    rcases interfacePiece?_cases hi with rfl | ⟨r', hr', rfl⟩
    · trivial
    · exact Build.declared_of_known (known_of_interface? hr')
  | node r =>
    cases List.mem_singleton.mp hq
    trivial
  | edge r =>
    rcases List.mem_cons.mp hq with rfl | hq
    · trivial
    · obtain ⟨wireName, rfl⟩ := scalarPiece?_cases (Option.mem_toList.mp hq)
      trivial
  | connection kind r =>
    obtain ⟨name, -, f, element, -, -, hr⟩ := hp
    have hdeclared : r ∈ s.declared roots := Build.declared_of_known (known_of_elementRecord? hr)
    simp only [parts, List.mem_cons, List.not_mem_nil, or_false] at hq
    rcases hq with rfl | rfl | rfl
    · trivial
    · exact hdeclared
    · exact hdeclared
  | _ => exact absurd hq List.not_mem_nil

theorem declaresField_of_mem_outputs (hp : s.DeclaresPiece roots p) (hf : f ∈ p.outputs) :
    s.DeclaresField roots f := by
  cases p with
  | connection kind r =>
    obtain ⟨name, rfl, -⟩ := hp
    exact .inr ⟨name, List.mem_of_mem_filter hf⟩
  | object r => exact .inl ⟨r, hp, List.mem_of_mem_filter hf⟩
  | interface r => exact .inl ⟨r, hp, List.mem_of_mem_filter hf⟩
  | node r => exact .inl ⟨r, hp, List.mem_of_mem_filter hf⟩
  | _ => exact absurd hf List.not_mem_nil

theorem startsFrom_declaresPiece (s : Setting) (roots : RootRecords) :
    s.StartsFrom roots (s.DeclaresPiece roots) where
  closed p hp q hq := by
    obtain hq | ⟨f, hf, hq⟩ | ⟨f, -, hq⟩ := mem_needs.mp hq
    · exact declaresPiece_part hp q hq
    · exact declaresPiece_field (declaresField_of_mem_outputs hp hf) q hq
    · exact declaresPiece_input q hq
  enums _ _ := trivial
  interfaces r hr := Build.declared_of_known (by simp [knownRecords, hr])
  objects _ hr := hr
  inputs r hr := Build.declared_of_known (by simp [knownRecords, hr])

end Setting

/-- Where a type is made of a piece, each declared field of the piece has a form there. -/
theorem Piece.Makes.form_of_mem {s : Setting} {d d' : Draft} {p : Piece} {t : WireType} {f : Field}
    (h : p.Makes s d d' t) (hf : f ∈ p.outputs) :
    ∃ fields, t.fields? = some fields ∧ ∃ out ∈ fields, OutputForm s d d' f out := by
  cases p with
  | object r =>
    obtain ⟨fields, hforms, rfl⟩ := h
    exact ⟨fields, rfl, exists_of_mem_left hforms hf⟩
  | interface r =>
    obtain ⟨fields, hforms, rfl⟩ := h
    exact ⟨fields, rfl, exists_of_mem_left hforms hf⟩
  | node r =>
    obtain ⟨fields, hforms, rfl⟩ := h
    exact ⟨fields, rfl, exists_of_mem_left hforms hf⟩
  | connection kind r =>
    obtain ⟨-, -, fields, hforms, rfl⟩ := h
    obtain ⟨out, hout, hform⟩ := exists_of_mem_left hforms hf
    exact ⟨_, rfl, out, List.mem_append_right _ hout, hform⟩
  | _ => exact absurd hf List.not_mem_nil

/-- The connection type of a record shows the extra fields of a kind after edges and page information. -/
def Draft.ShowsKind (s : Setting) (d : Draft) (r : Record) (kind : String) : Prop :=
  ∃ c extra, d.types.get? (r.name ++ "Connection") = some (.object c) ∧
    c.fields = Build.connectionHead s r ++ extra ∧ OutputForms s {} d (Build.kindOf s kind).fields extra

namespace Model

/-- A source of a model tells of each of its types which declared piece it is made of, one that has all it needs
at the end of the build. -/
structure Sources (m : Model) (s : Setting) (roots : RootRecords) (d : Draft) (source : String → Piece) : Prop where
  types : d.types = m.types
  made : ∀ {name t}, m.types.get? name = some t →
    (source name).name = name ∧ s.DeclaresPiece roots (source name) ∧ (source name).Makes s {} d t
  backed : ∀ {name t}, m.types.get? name = some t → d.Backs s (source name)

/-- Some type of a model is made of a piece with a field that answers pages of a record. -/
structure ServesPages (m : Model) (s : Setting) (source : String → Piece) (f : Field) (kind : String)
    (r : Record) : Prop where
  served : ∃ name t, m.types.get? name = some t ∧ f ∈ (source name).outputs
  pages : ∃ element, f.type.stripOptional = .connection kind element ∧ Build.elementRecord? s element = some r

/-- Kinds that are used with one element name the same extra fields. -/
def KindsNamed (m : Model) (s : Setting) (roots : RootRecords) (source : String → Piece) : Prop :=
  ∀ f kind r f' kind' r', m.ServesPages s source f kind r → m.ServesPages s source f' kind' r' → r.name = r'.name →
    s.Generates roots (r.name ++ "Connection") → Build.extraNames s kind = Build.extraNames s kind'

/-- The connection type of an element shows each kind that is used with the element. -/
def OneKind (m : Model) (s : Setting) (roots : RootRecords) (d : Draft) (source : String → Piece) : Prop :=
  ∀ f kind r, m.ServesPages s source f kind r → s.Generates roots (r.name ++ "Connection") → d.ShowsKind s r kind

/-- A kind is not shown, for another one with the same names of extra fields has come to the element first. -/
def KindHidden (m : Model) (s : Setting) (roots : RootRecords) (d : Draft) (source : String → Piece) : Prop :=
  ∃ f kind r first r', m.ServesPages s source f kind r ∧ s.Generates roots (r.name ++ "Connection") ∧
    s.UsesKind roots first r' ∧ r'.name = r.name ∧ Build.extraNames s first = Build.extraNames s kind ∧
    d.ShowsKind s r first ∧ ¬ d.ShowsKind s r kind

section
variable {m : Model} {s : Setting} {roots : RootRecords} {d : Draft} {source : String → Piece} {f : Field}
  {kind : String} {r : Record}

/-- A built model has a source for its types. -/
theorem exists_sources (h : build s roots = .ok m) : ∃ d source, m.Sources s roots d source := by
  obtain ⟨d, hd, htypes⟩ := gives_of_build h
  have hcovers : ({} : Draft).Covers s (s.DeclaresPiece roots) d :=
    Build.covers_schema (s.startsFrom_declaresPiece roots) hd
  have hentry (name : String) : ∃ p : Piece, ∀ t, m.types.get? name = some t →
      s.DeclaresPiece roots p ∧ p.name = name ∧ p.Makes s {} d t ∧ d.Backs s p := by
    cases hget : m.types.get? name with
    | none => exact ⟨.scalar name, fun t ht => by cases ht⟩
    | some t =>
      rw [← htypes] at hget
      rcases hcovers.entry name t hget with hnone | ⟨p, hp⟩
      · cases hnone
      · exact ⟨p, fun u hu => by cases hu; exact hp⟩
  choose source hsource using hentry
  refine ⟨d, source, htypes, fun {name t} ht => ?_, fun {name t} ht => ?_⟩
  · obtain ⟨hdeclared, hname, hmakes, -⟩ := hsource name t ht
    exact ⟨hname, hdeclared, hmakes⟩
  · obtain ⟨-, -, -, hbacks⟩ := hsource name t ht
    exact hbacks

/-- The connection type that a served field answers pages of is an object type. -/
theorem Sources.object (hs : m.Sources s roots d source) (h : build s roots = .ok m)
    (hserves : m.ServesPages s source f kind r) (hu : s.Undisplaced (r.name ++ "Connection")) :
    ∃ c, d.types.get? (r.name ++ "Connection") = some (.object c) := by
  obtain ⟨⟨name, t, ht, hf⟩, element, htype, hr⟩ := hserves
  obtain ⟨-, -, hmakes⟩ := hs.made ht
  obtain ⟨fields, hfields, out, hout, hform⟩ := hmakes.form_of_mem hf
  obtain ⟨r₁, hr₁, hbase⟩ := hform.connection_ref htype
  cases hr.symm.trans hr₁
  -- The declaration that the type was built from may be another one, but its element has the same name.
  obtain ⟨d', hd', -, horigin⟩ := origins_of_build h
  have hbinding : out.connection = s.bindingOf f := hform.connection
  rw [Setting.bindingOf, htype] at hbinding
  obtain ⟨f', -, hform'⟩ := declaration_of_binding (horigin ht).2 hfields hout hbinding
  obtain ⟨kind', element', htype'⟩ := stripOptional_of_binding (hform'.connection.symm.trans hbinding)
  obtain ⟨r', hr', hbase'⟩ := hform'.toOutputForm.connection_ref htype'
  have hname : r'.name ++ "Connection" = r.name ++ "Connection" := hbase'.symm.trans hbase
  have hholds := hform'.registered htype' hr' (hname ▸ hu)
  rw [hname, hd', ← hs.types] at hholds
  exact hholds.object

/-- The kind that the connection type of an element is made of is declared for an element of its name, and has the
names of extra fields that all kinds have that are used with it. -/
theorem Sources.first (hs : m.Sources s roots d source) (h : build s roots = .ok m)
    (hserves : m.ServesPages s source f kind r) (hfree : s.Generates roots (r.name ++ "Connection")) :
    ∃ first r', source (r.name ++ "Connection") = .connection (Build.kindOf s first) r' ∧
      s.UsesKind roots first r' ∧ r'.name = r.name ∧ Build.extraNames s first = Build.extraNames s kind ∧
      d.ShowsKind s r first := by
  obtain ⟨c, hget⟩ := hs.object h hserves hfree.1
  obtain ⟨hname, hdeclared, hmakes⟩ := hs.made (hs.types ▸ hget)
  have hstands : d.Stands (.connection (Build.kindOf s kind) r) := by
    obtain ⟨⟨name, t, ht, hf⟩, element, htype, hr⟩ := hserves
    refine hs.backed ht _ (Setting.mem_needs.mpr (.inr (.inl ⟨f, hf, Setting.mem_fieldPieces.mpr (.inl ?_)⟩)))
    rw [← Setting.outputPiece?_stripOptional, htype, Setting.outputPiece?, hr]
    rfl
  obtain ⟨first, r', hfirst, huses, hrname⟩ : ∃ first r', source (r.name ++ "Connection") =
      .connection (Build.kindOf s first) r' ∧ s.UsesKind roots first r' ∧ r'.name = r.name := by
    rcases Piece.object_of_kind hmakes.kind_eq.symm with ⟨r', hr'⟩ | ⟨element, part, hpart⟩
    · rw [hr'] at hname hdeclared
      exact absurd hname (hfree.2 r' hdeclared)
    · have happend : element ++ part.last = r.name ++ Part.connection.last := hpart.name_eq.symm.trans hname
      obtain ⟨rfl, rfl⟩ := Part.eq_of_append happend
      obtain ⟨shown, r', hrname, hshown⟩ := hpart
      rw [hshown] at hdeclared
      obtain ⟨first, rfl, huses⟩ := hdeclared
      exact ⟨first, r', hshown, huses, hrname⟩
  rw [hfirst] at hmakes
  obtain ⟨-, hnoted, extra, hforms, hc⟩ := hmakes
  cases hc
  rw [hrname] at hnoted
  refine ⟨first, r', hfirst, huses, hrname, ?_, _, extra, hget, ?_, hforms⟩
  · rcases hstands with ⟨-, hown⟩ | ⟨-, hnone⟩
    · exact Option.some.inj (hnoted.symm.trans hown)
    · cases hnoted.symm.trans hnone
  · rw [Build.connectionHead, Build.connectionHead, hrname]

theorem refusesOthers (s : Setting) : s.RefusesOthers := by
  intro w kind element r d c noted hr hget hnote hne
  have htype : (Build.type? (r.name ++ "Connection")).outcome d = (.ok (some (.object c)), d) := by
    rw [← hget]
    rfl
  have hfound : Entries.get? d.connectionFields (r.name ++ "Connection") = some noted := hnote
  have hdraft : (get : Build Draft).outcome d = (.ok d, d) := rfl
  unfold Build.connection
  simp only [hr, Build.outcome_bind, htype, hdraft, hfound]
  exact congrArg (fun x : Build TypeRef => x.outcome d) (if_neg hne)

/-- In every source of a built model all kinds that are used with one element name the same extra fields, and other
ones are refused. Its connection type shows all of them, exactly if none hides another. -/
theorem one_kind_iff (h : build s roots = .ok m) : (∃ d source, m.Sources s roots d source) ∧ s.RefusesOthers ∧
    ∀ d source, m.Sources s roots d source →
      m.KindsNamed s roots source ∧ (m.OneKind s roots d source ↔ ¬ m.KindHidden s roots d source) := by
  refine ⟨exists_sources h, refusesOthers s, fun d source hs => ⟨?named, ?shown, ?hidden⟩⟩
  case named =>
    intro f kind r f' kind' r' hserves hserves' hname hfree
    obtain ⟨first, r₁, hfirst, -, -, hnames, -⟩ := hs.first h hserves hfree
    rw [hname] at hfree hfirst
    obtain ⟨first', r₁', hfirst', -, -, hnames', -⟩ := hs.first h hserves' hfree
    have hkind : Build.kindOf s first = Build.kindOf s first' := by
      have hsame := hfirst.symm.trans hfirst'
      injection hsame
    rw [← hnames, ← hnames', Build.extraNames, Build.extraNames, hkind]
  case shown =>
    rintro hone ⟨f, kind, r, -, -, hserves, hfree, -, -, -, -, hno⟩
    exact hno (hone f kind r hserves hfree)
  case hidden =>
    intro hno f kind r hserves hfree
    by_contra hhidden
    obtain ⟨first, r', -, huses, hrname, hnames, hshows⟩ := hs.first h hserves hfree
    exact hno ⟨f, kind, r, first, r', hserves, hfree, huses, hrname, hnames, hshows, hhidden⟩

end

/-- Two kinds of pages, each with a field for a total. -/
def twoKinds (total : HostType) : Setting :=
  { bookshop [] with catalogue :=
      { (bookshop []).catalogue with connections :=
          [("Counted", { fields := [{ name := "total", type := .scalar "i64" }] }),
           ("Tagged", { fields := [{ name := "total", type := total }] })] } }

/-- A root that answers pages of books in both kinds. -/
def twoKindRoots : RootRecords :=
  { query := { name := "Shop"
               fields := [{ name := "books", type := .connection "Counted" (.record "Book") },
                          { name := "tagged", type := .connection "Tagged" (.record "Book") }] } }

/-- Two kinds with the same total are both shown. -/
theorem one_kind_counted : ∃ m d source, build (twoKinds (.scalar "i64")) twoKindRoots = .ok m ∧
    m.Sources (twoKinds (.scalar "i64")) twoKindRoots d source ∧
    m.OneKind (twoKinds (.scalar "i64")) twoKindRoots d source := by
  obtain ⟨m, hm⟩ : ∃ m, build (twoKinds (.scalar "i64")) twoKindRoots = .ok m := ⟨_, rfl⟩
  obtain ⟨⟨d, source, hs⟩, -, hall⟩ := one_kind_iff hm
  refine ⟨m, d, source, hm, hs, (hall d source hs).2.mpr ?_⟩
  rintro ⟨f, kind, r, first, r', -, -, -, -, hnames, hshows, hno⟩
  have hkind : Build.kindOf (twoKinds (.scalar "i64")) first = Build.kindOf (twoKinds (.scalar "i64")) kind := by
    have hcases (name : String) : Build.kindOf (twoKinds (.scalar "i64")) name = {} ∨
        Build.kindOf (twoKinds (.scalar "i64")) name = { fields := [{ name := "total", type := .scalar "i64" }] } := by
      unfold Build.kindOf twoKinds
      simp only [Entries.get?_cons]
      split_ifs
      · exact .inr rfl
      · exact .inr rfl
      · exact .inl rfl
    unfold Build.extraNames at hnames
    rcases hcases first with h | h <;> rcases hcases kind with h' | h' <;> rw [h, h'] at hnames ⊢ <;> cases hnames
  unfold Draft.ShowsKind at hshows hno
  rw [hkind] at hshows
  exact hno hshows

/-- A text for the total passes for the number that the first kind has. -/
theorem mixed_twoKinds : ∃ m, build (twoKinds (.scalar "String")) twoKindRoots = .ok m ∧
    (∃ d source, m.Sources (twoKinds (.scalar "String")) twoKindRoots d source) ∧
    ∀ d source, m.Sources (twoKinds (.scalar "String")) twoKindRoots d source →
      ¬ m.OneKind (twoKinds (.scalar "String")) twoKindRoots d source := by
  obtain ⟨m, q, c, hm, hq, hc, htypes⟩ : ∃ m q c, build (twoKinds (.scalar "String")) twoKindRoots = .ok m ∧
      m.types.get? "Query" = some (.object q) ∧ m.types.get? "BookConnection" = some (.object c) ∧
        (c.fields.drop 2).map (fun f => f.type.base) = ["Int"] := ⟨_, _, _, rfl, rfl, rfl, rfl⟩
  refine ⟨m, hm, exists_sources hm, fun d source hs hone => ?_⟩
  set s := twoKinds (.scalar "String")
  obtain ⟨hname, hdeclared, hmakes⟩ := hs.made hq
  have hroot : source "Query" = .object { twoKindRoots.query with name := "Query" } := by
    rcases Piece.object_of_kind hmakes.kind_eq.symm with ⟨r, hr⟩ | ⟨element, part, hpart⟩
    · rw [hr] at hname hdeclared ⊢
      simp only [Setting.DeclaresPiece, Setting.declared, Setting.knownRecords, s, twoKinds, bookshop, twoKindRoots,
        List.map_cons, List.map_nil, List.append_nil, List.cons_append, List.nil_append, List.mem_cons,
        List.not_mem_nil, or_false, Option.toList_none] at hdeclared
      rcases hdeclared with rfl | rfl
      · exact absurd hname (by decide)
      · rfl
    · have hending := congrArg ending (hpart.name_eq.symm.trans hname)
      rw [ending_append _ part.two_le_length] at hending
      exact absurd hending (by cases part <;> decide)
  have hserves : m.ServesPages s source { name := "tagged", type := .connection "Tagged" (.record "Book") } "Tagged"
      { name := "Book", fields := [{ name := "id", type := .scalar "ID" }] } := by
    refine ⟨⟨"Query", _, hq, ?_⟩, .record "Book", rfl, rfl⟩
    rw [hroot]
    exact List.mem_cons_of_mem _ List.mem_cons_self
  have hfree : s.Generates twoKindRoots "BookConnection" := by
    refine ⟨by unfold Setting.Undisplaced; decide, ?_⟩
    simp [Setting.declared, Setting.knownRecords, s, twoKinds, bookshop, twoKindRoots]
  obtain ⟨c', extra, hget, hfields, hforms⟩ := hone _ _ _ hserves hfree
  rw [hs.types] at hget
  obtain rfl : c = c' := WireType.object.inj (Option.some.inj (hc.symm.trans hget))
  rw [hfields] at htypes
  change List.Forall₂ (OutputForm s {} d) [{ name := "total", type := .scalar "String" }] extra at hforms
  cases hforms with
  | cons hform hrest =>
    cases hrest
    obtain ⟨ref, href, htype⟩ := hform.type
    cases href
    exact absurd ((congrArg TypeRef.base htype).symm.trans (List.head_eq_of_cons_eq htypes)) (by decide)

end Model

end RecordGraph
